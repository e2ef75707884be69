import LambdaCalculus.Grammar
/-!
What the program tells of its work, and which part of that is let through.

The language of the patterns that may stand behind a slash is a parameter. Where the program runs, a
pattern is taken word for word: characters with a meaning of their own in regular expressions have none.
-/

set_option autoImplicit false

namespace LambdaCalculus.CommandLine

inductive Level where
  | error
  | warn
  | info
  | debug
  | trace
deriving DecidableEq, Repr

namespace Level

def name : Level → String
  | .error => "ERROR"
  | .warn => "WARN"
  | .info => "INFO"
  | .debug => "DEBUG"
  | .trace => "TRACE"

def rank : Level → Nat
  | .error => 1
  | .warn => 2
  | .info => 3
  | .debug => 4
  | .trace => 5

end Level

structure Threshold where
  least : Option Level
deriving DecidableEq, Repr

namespace Threshold

def ofRank : Nat → Threshold
  | 0 => ⟨none⟩
  | 1 => ⟨some .error⟩
  | 2 => ⟨some .warn⟩
  | 3 => ⟨some .info⟩
  | 4 => ⟨some .debug⟩
  | _ => ⟨some .trace⟩

def ofName? (name : String) : Option Threshold :=
  match name.toLower with
  | "off" => some ⟨none⟩
  | "error" => some ⟨some .error⟩
  | "warn" => some ⟨some .warn⟩
  | "info" => some ⟨some .info⟩
  | "debug" => some ⟨some .debug⟩
  | "trace" => some ⟨some .trace⟩
  | _ => none

def allows (threshold : Threshold) (level : Level) : Bool :=
  threshold.least.any fun least => level.rank ≤ least.rank

end Threshold

inductive Record where
  | read (bytes : Nat) (name : String)
  | rule (event : Event)
  | pass (step : Nat) (term : Term)
  | stepLimit (steps : Nat)
  | normalForm (steps : Nat)
  | stopped (steps : Nat)
deriving DecidableEq, Repr

namespace Record

def level : Record → Level
  | .read _ _ | .stepLimit _ | .normalForm _ => .debug
  | .rule _ | .pass _ _ => .trace
  | .stopped _ => .warn

def target : Record → String
  | .read _ _ | .stopped _ => "lambda"
  | .rule _ => "lambda::parse"
  | .pass _ _ => "lambda::reduce"
  | .stepLimit _ | .normalForm _ => "lambda_eval::reducer"

def text : Record → String
  | .read bytes name => "read " ++ toString bytes ++ " bytes from " ++ name
  | .rule (.matched which next reading) =>
      toString next ++ ": " ++ which.name ++ " parsed: " ++ reading.render
  | .rule (.failed which position failure) =>
      toString position ++ ": " ++ which.name ++ " failed (innermost at " ++
        toString failure.position ++ ")"
  | .pass step term => "step " ++ toString step ++ ": " ++ term.render
  | .stepLimit steps => "step limit reached after " ++ toString steps ++ " steps"
  | .normalForm steps => "normal form reached after " ++ toString steps ++ " steps"
  | .stopped steps => "stopped after " ++ toString steps ++ " steps without reaching a normal form"

def line (record : Record) : String :=
  let name := record.level.name
  "[" ++ name ++ String.ofList (List.replicate (5 - name.length) ' ') ++ " " ++ record.target ++ "] " ++
    record.text

end Record

structure Directive where
  scope : Option String
  threshold : Threshold
deriving DecidableEq, Repr

namespace Directive

def covers (directive : Directive) (target : String) : Bool :=
  directive.scope.all fun name => name.toList.isPrefixOf target.toList

def precision (directive : Directive) : Nat :=
  directive.scope.elim 0 String.length

end Directive

-- The language of patterns is left open: all that is asked of it is what counts as a pattern,
-- and whether one occurs in a text.
class PatternLanguage where
  isPattern : String → Bool
  occursIn (pattern text : String) : Bool

structure Filter where
  directives : List Directive
  pattern : Option String
deriving DecidableEq, Repr

namespace Filter

def insert (filter : Filter) (directive : Directive) : Filter :=
  if filter.directives.any fun other => other.scope == directive.scope then
    { filter with
      directives := filter.directives.map fun other =>
        if other.scope = directive.scope then directive else other }
  else { filter with directives := filter.directives ++ [directive] }

def directive? (filter : Filter) (target : String) : Option Directive :=
  (filter.directives.filter fun directive => directive.covers target).foldl
    (fun best directive =>
      match best with
      | some other => if other.precision ≤ directive.precision then some directive else best
      | none => some directive)
    none

def enables (filter : Filter) (target : String) (level : Level) : Bool :=
  (filter.directive? target).any fun directive => directive.threshold.allows level

def lets [PatternLanguage] (filter : Filter) (record : Record) : Bool :=
  filter.enables record.target record.level &&
    filter.pattern.all fun pattern => PatternLanguage.occursIn pattern record.text

def isSpace (c : Char) : Bool :=
  [(0x9, 0xD), (0x20, 0x20), (0x85, 0x85), (0xA0, 0xA0), (0x1680, 0x1680), (0x2000, 0x200A),
    (0x2028, 0x2029), (0x202F, 0x202F), (0x205F, 0x205F), (0x3000, 0x3000)].any
    fun (first, last) => first ≤ c.toNat && c.toNat ≤ last

def trim (text : String) : String :=
  String.ofList ((text.toList.dropWhile isSpace).reverse.dropWhile isSpace).reverse

def readDirective (text : String) : Except String Directive :=
  match text.splitOn "=" with
  | [single] =>
      match Threshold.ofName? single with
      | some threshold => .ok ⟨none, threshold⟩
      | none => .ok ⟨some single, ⟨some .trace⟩⟩
  | [name, level] =>
      let level := trim level
      if level.isEmpty then .ok ⟨some name, ⟨some .trace⟩⟩
      else match Threshold.ofName? level with
        | some threshold => .ok ⟨some name, threshold⟩
        | none => .error level
  | _ => .error text

def insertAll (filter : Filter) (directives : String) : Filter × List String :=
  ((directives.splitOn ",").map trim).foldl
    (fun (filter, ignored) text =>
      if text.isEmpty then (filter, ignored)
      else match readDirective text with
        | .ok directive => (filter.insert directive, ignored)
        | .error obscure => (filter, ignored ++ [obscure]))
    (filter, [])

-- Adds directives, and behind a slash the pattern that records have to meet. With more than one
-- slash nothing of it is understood.
def extend [PatternLanguage] (filter : Filter) (spec : String) : Filter × List String :=
  match spec.splitOn "/" with
  | [directives] => insertAll ⟨filter.directives, none⟩ directives
  | [directives, pattern] =>
      if PatternLanguage.isPattern pattern then insertAll ⟨filter.directives, some pattern⟩ directives
      else
        let (extended, ignored) := insertAll ⟨filter.directives, none⟩ directives
        (extended, ignored ++ [pattern])
  | _ => (⟨filter.directives, none⟩, [spec])

end Filter

def occurs (words : List Char) : List Char → Bool
  | [] => words.isEmpty
  | c :: rest => words.isPrefixOf (c :: rest) || occurs words rest

instance plainWords : PatternLanguage where
  isPattern _ := true
  occursIn pattern text := occurs pattern.toList text.toList

end LambdaCalculus.CommandLine
