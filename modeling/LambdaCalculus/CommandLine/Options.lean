/-!
What the command line asks for.

`[-t] [-n STEPS] [--parse-only] [-v...] [-q...] [FILE]`, in any order. Short flags may be run together,
and an option's value may stand beside it, behind `=` or as the next argument. Whatever follows `--` is a
file. Help is left out: `-h` and `--help`, which would be answered with a text about the usage, are unknown
options here.
-/

set_option autoImplicit false

namespace LambdaCalculus.CommandLine

inductive UsageError where
  | unknownOption (option : String)
  | unwantedValue (option : String)
  | missingValue
  | invalidSteps (value : String)
  | repeatedOption (option : String)
  | emptyFile
  | secondFile (file : String)
  | verboseAndQuiet
deriving DecidableEq, Repr

def UsageError.message : UsageError → String
  | .unknownOption option => "unexpected argument '" ++ option ++ "'"
  | .unwantedValue option => "unexpected value for '" ++ option ++ "'"
  | .missingValue => "a value is required for '--max-steps <STEPS>'"
  | .invalidSteps value => "invalid value '" ++ value ++ "' for '--max-steps <STEPS>'"
  | .repeatedOption option => "the argument '" ++ option ++ "' cannot be used multiple times"
  | .emptyFile => "a value is required for '[FILE]'"
  | .secondFile file => "unexpected argument '" ++ file ++ "'"
  | .verboseAndQuiet => "the argument '--verbose...' cannot be used with '--quiet...'"

inductive Flag where
  | trace
  | parseOnly
  | verbose
  | quiet
deriving DecidableEq, Repr

def Flag.name : Flag → String
  | .trace => "--trace"
  | .parseOnly => "--parse-only"
  | .verbose => "--verbose"
  | .quiet => "--quiet"

def Flag.ofName? (name : String) : Option Flag :=
  [Flag.trace, .parseOnly, .verbose, .quiet].find? fun flag => flag.name == name

def Flag.ofLetter? : Char → Option Flag
  | 't' => some .trace
  | 'v' => some .verbose
  | 'q' => some .quiet
  | _ => none

inductive Item where
  | flag (flag : Flag)
  | steps (value : String)
  | file (name : String)
deriving DecidableEq, Repr

-- What an argument asks for, and whether a number of steps is to follow as the next argument.
abbrev Word := List Item × Bool

def attachedValue : List Char → String
  | '=' :: value => String.ofList value
  | value => String.ofList value

def shortOptions : List Char → Except UsageError Word
  | [] => .ok ([], false)
  | ['n'] => .ok ([], true)
  | 'n' :: value => .ok ([.steps (attachedValue value)], false)
  | letter :: rest =>
      match Flag.ofLetter? letter with
      | none => .error (.unknownOption ("-" ++ letter.toString))
      | some flag => do
          let (items, waiting) ← shortOptions rest
          .ok (.flag flag :: items, waiting)

def longOption (name : String) (value : Option String) : Except UsageError Word :=
  if name = "--max-steps" then
    match value with
    | some steps => .ok ([.steps steps], false)
    | none => .ok ([], true)
  else
    match Flag.ofName? name, value with
    | none, _ => .error (.unknownOption name)
    | some _, some _ => .error (.unwantedValue name)
    | some flag, none => .ok ([.flag flag], false)

def word (argument : String) : Except UsageError Word :=
  match argument.toList with
  | '-' :: '-' :: name =>
      let value := name.dropWhile (· ≠ '=')
      longOption ("--" ++ String.ofList (name.takeWhile (· ≠ '=')))
        (if value.isEmpty then none else some (String.ofList value.tail))
  | '-' :: letter :: rest => shortOptions (letter :: rest)
  | _ => .ok ([.file argument], false)

def items : List String → Except UsageError (List Item)
  | [] => .ok []
  | argument :: rest =>
      if argument = "--" then .ok (rest.map .file)
      else
        match word argument with
        | .error error => .error error
        | .ok (found, false) => do return found ++ (← items rest)
        | .ok (found, true) =>
            match rest with
            | [] => .error .missingValue
            | value :: rest => do return found ++ .steps value :: (← items rest)

def stepsBound : Nat := 0x10000000000000000

def readSteps? (value : String) : Option Nat :=
  let digits := match value.toList with
    | '+' :: digits => digits
    | digits => digits
  let number := digits.foldl (fun total digit => 10 * total + (digit.toNat - '0'.toNat)) 0
  if digits.isEmpty || !digits.all Char.isDigit || stepsBound ≤ number then none else some number

structure Options where
  file : Option String
  trace : Bool
  parseOnly : Bool
  maxSteps : Option Nat
  verbose : Nat
  quiet : Nat
deriving DecidableEq, Repr

namespace Options

def plain : Options :=
  ⟨none, false, false, none, 0, 0⟩

def add (options : Options) : Item → Except UsageError Options
  | .flag .trace =>
      if options.trace then .error (.repeatedOption Flag.trace.name)
      else .ok { options with trace := true }
  | .flag .parseOnly =>
      if options.parseOnly then .error (.repeatedOption Flag.parseOnly.name)
      else .ok { options with parseOnly := true }
  | .flag .verbose => .ok { options with verbose := options.verbose + 1 }
  | .flag .quiet => .ok { options with quiet := options.quiet + 1 }
  | .steps value =>
      match readSteps? value with
      | none => .error (.invalidSteps value)
      | some steps =>
          if options.maxSteps.isSome then .error (.repeatedOption "--max-steps <STEPS>")
          else .ok { options with maxSteps := some steps }
  | .file name =>
      if name.isEmpty then .error .emptyFile
      else if options.file.isSome then .error (.secondFile name)
      else .ok { options with file := some name }

def ofArguments (arguments : List String) : Except UsageError Options := do
  let options ← (← items arguments).foldlM add plain
  if 0 < options.verbose ∧ 0 < options.quiet then .error .verboseAndQuiet else .ok options

end Options

end LambdaCalculus.CommandLine
