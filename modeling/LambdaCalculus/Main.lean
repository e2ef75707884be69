import LambdaCalculus.CommandLine.Invocation
/-!
The program `lambda`.
-/

set_option autoImplicit false

namespace LambdaCalculus.CommandLine

partial def readFirstLine (stream : IO.FS.Stream) (read : ByteArray) : IO ByteArray := do
  let bytes ← stream.read 4096
  if bytes.isEmpty then return read
  else if bytes.data.contains 10 then return read ++ bytes
  else readFirstLine stream (read ++ bytes)

def readFile (name : String) : IO (Option ByteArray) :=
  try some <$> IO.FS.readBinFile name
  catch _ => return none

def gather (arguments : List String) : IO Invocation := do
  let directives ← IO.getEnv "RUST_LOG"
  match Options.ofArguments arguments with
  | .error _ => return ⟨arguments, .empty, fun _ => none, directives⟩
  | .ok options =>
      match options.file with
      | some name =>
          let contents ← readFile name
          return ⟨arguments, .empty, fun _ => contents, directives⟩
      | none => return ⟨arguments, ← readFirstLine (← IO.getStdin) .empty, fun _ => none, directives⟩

def patience : Nat := 0x10000000000000000

end LambdaCalculus.CommandLine

open LambdaCalculus.CommandLine in
def main (arguments : List String) : IO UInt32 := do
  match (← gather arguments).run patience with
  | none => return 1
  | some outcome =>
      for directive in outcome.ignored do
        IO.eprintln ("warning: invalid logging spec '" ++ directive ++ "', ignoring it")
      for record in outcome.log do
        IO.eprintln record.line
      IO.print outcome.output
      if let some complaint := outcome.complaint then
        IO.eprintln complaint.message
      return outcome.exitCode.toUInt32
