import LambdaCalculus.CommandLine.Log
import LambdaCalculus.CommandLine.Options
import LambdaCalculus.Diagnostic
import LambdaCalculus.Letter
import LambdaCalculus.Parse
import LambdaCalculus.Reduction
/-!
What the program answers: it reads a term, reduces it, and prints what it came to.
-/

set_option autoImplicit false

namespace LambdaCalculus.CommandLine

structure Invocation where
  arguments : List String
  input : ByteArray
  files : String → Option ByteArray
  directives : Option String

inductive Complaint where
  | usage (error : UsageError)
  | unreadableFile (name : String)
  | unreadableInput
  | notATerm (diagnostic : Diagnostic)
deriving DecidableEq, Repr

namespace Complaint

def message : Complaint → String
  | .usage error => "error: " ++ error.message
  | .unreadableFile name => "Failed to read file " ++ name
  | .unreadableInput => "Failed to read standard input"
  | .notATerm diagnostic =>
      diagnostic.summary ++ " (" ++ Diagnostic.code ++ ")\nat byte " ++
        toString diagnostic.label.offset ++ ": " ++ diagnostic.label.text ++ "\nhelp: " ++ Failure.help

end Complaint

structure Outcome where
  exitCode : Nat
  output : String
  ignored : List String
  log : List Record
  complaint : Option Complaint
deriving DecidableEq, Repr

structure Program where
  name : String
  text : String
deriving DecidableEq, Repr

def readLine (input : ByteArray) : Option String :=
  (String.fromUTF8? ⟨(input.data.toList.takeWhile (· ≠ 10)).toArray⟩).map fun line =>
    String.ofList (line.toList.reverse.dropWhile (· = '\r')).reverse

namespace Invocation

def program (invocation : Invocation) : Option String → Except Complaint Program
  | some name =>
      match (invocation.files name).bind String.fromUTF8? with
      | some text => .ok ⟨name, text⟩
      | none => .error (.unreadableFile name)
  | none =>
      match readLine invocation.input with
      | some text => .ok ⟨"<stdin>", text⟩
      | none => .error .unreadableInput

end Invocation

namespace Options

def filter (options : Options) : Filter :=
  let chosen : Filter := ⟨[⟨none, .ofRank (2 + options.verbose - options.quiet)⟩], none⟩
  if options.trace then chosen.insert ⟨some "lambda", ⟨some .trace⟩⟩ else chosen

def reductionRecords (options : Options) (reduction : Reduction) : List Record :=
  (if options.trace then reduction.passes.mapIdx fun index term => .pass (index + 1) term else []) ++
    match reduction.halt with
    | .normalForm => [.normalForm reduction.steps]
    | .stepLimit => [.stepLimit reduction.steps, .stopped reduction.steps]

def answer [PatternLanguage] (options : Options) (patience : Nat) (filter : Filter) (ignored : List String)
    (program : Program) : Option Outcome :=
  let report : Report Event := if options.trace then .traced else .silent
  let (result, events) := parseReporting report program.text
  let opening := .read program.text.utf8ByteSize program.name :: events.map .rule
  match result with
  | .error failure =>
      some {
        exitCode := 1
        output := failure.message ++ "\n"
        ignored := ignored
        log := opening.filter filter.lets
        complaint :=
          if filter.enables "lambda" .info then
            some (.notATerm (.ofFailure program.name program.text failure))
          else none }
  | .ok term =>
      if options.parseOnly then some ⟨0, term.render ++ "\n", ignored, opening.filter filter.lets, none⟩
      else do
        let reduction ← term.normalize patience options.maxSteps
        let log := (opening ++ options.reductionRecords reduction).filter filter.lets
        some ⟨0, reduction.term.render ++ "\n", ignored, log, none⟩

end Options

namespace Invocation

def run [PatternLanguage] (patience : Nat) (invocation : Invocation) : Option Outcome :=
  match Options.ofArguments invocation.arguments with
  | .error error => some ⟨2, "", [], [], some (.usage error)⟩
  | .ok options =>
      let (filter, ignored) := invocation.directives.elim (options.filter, []) options.filter.extend
      match invocation.program options.file with
      | .error complaint => some ⟨1, "", ignored, [], some complaint⟩
      | .ok program => options.answer patience filter ignored program

end Invocation

end LambdaCalculus.CommandLine
