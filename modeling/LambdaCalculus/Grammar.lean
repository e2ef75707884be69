import LambdaCalculus.Alphabet
import LambdaCalculus.Parser
import LambdaCalculus.Term
/-!
The notation of terms, as backtracking rules. The first alternative that matches wins:

* `expression := term | bracketed`
* `term := app | var | abs`
* `app := atom atom atom*`
* `atom := var | abs | bracketed`
* `abs := "\" identifier "." expression`, `bracketed := "(" expression ")"`, `var := identifier`

An identifier is a run of letters, and blanks may stand in front of identifiers and marks. `app` comes
first because it starts like the alternatives behind it and has to take runs of atoms before they match
a single one. Each attempt at a rule is an event, repeated attempts included.
-/

set_option autoImplicit false

namespace LambdaCalculus

inductive Rule where
  | blanks
  | letter
  | identifier
  | punctuation (mark : Mark)
  | var
  | abs
  | app
  | bracketed
  | term
  | expression
  | topExpression
deriving DecidableEq, Repr

def Rule.name : Rule → String
  | .blanks => "blanks"
  | .letter => "letter"
  | .identifier => "identifier"
  | .punctuation _ => "punctuation"
  | .var => "variable"
  | .abs => "lambda abstraction"
  | .app => "function application"
  | .bracketed => "bracketed"
  | .term => "term"
  | .expression => "expression"
  | .topExpression => "top expression"

inductive Reading where
  | nothing
  | text (content : String)
  | term (content : Term)
deriving DecidableEq, Repr

def Reading.render : Reading → String
  | .nothing => ""
  | .text content => content
  | .term content => content.render

inductive Event where
  | matched (rule : Rule) (next : Nat) (reading : Reading)
  | failed (rule : Rule) (position : Nat) (failure : Failure)
deriving DecidableEq, Repr

abbrev Report (ε : Type) := Event → List ε

namespace Report

def silent {ε : Type} : Report ε := fun _ => []

def traced : Report Event := fun event => [event]

end Report

namespace Grammar

open LambdaCalculus.Parser

variable {ε α : Type} (report : Report ε)

def named (rule : Rule) (expected : Option Cause) (reading : α → Reading) (parser : Parser ε α) :
    Parser ε α where
  attempt source position :=
    let run := (expected.elim parser fun cause => parser.context cause).attempt source position
    match run.reply with
    | .matched value next =>
        ⟨.matched value next, run.events ++ report (.matched rule next (reading value)), run.reach⟩
    | .failed failure =>
        ⟨.failed failure, run.events ++ report (.failed rule position failure), run.reach⟩
    | .unfinished => run

def blanks : Parser ε Unit := do
  let _ ← many (satisfy isBlank (.other "a blank is expected"))
  pure ()

def punctuation (mark : Mark) : Parser ε String :=
  named report (.punctuation mark) none .text do
    blanks
    literal mark.text (.mark mark)

variable [Alphabet]

def letter : Parser ε Char :=
  satisfy isLetter .letter

def identifier : Parser ε String :=
  named report .identifier (some .identifier) .text do
    blanks
    let first ← letter
    let rest ← many letter
    pure (String.ofList (first :: rest))

def var : Parser ε Term :=
  named report .var (some .var) .term do
    let name ← identifier report
    pure (.var name)

section Nesting

/-! The rules in which expressions occur again, over a parser for these. -/

variable (nested : Parser ε Term)

def abs : Parser ε Term :=
  named report .abs (some .abs) .term do
    let _ ← punctuation report .backslash
    let argument ← identifier report
    let _ ← punctuation report .dot
    let body ← nested
    pure (.abs argument body)

def bracketed : Parser ε Term :=
  named report .bracketed none .term do
    let _ ← punctuation report .leftBracket
    let inner ← nested
    let _ ← punctuation report .rightBracket
    pure inner

def atom : Parser ε Term :=
  choice (var report) [abs report nested, bracketed report nested]

def app : Parser ε Term :=
  named report .app (some .app) .term do
    let function ← atom report nested
    let argument ← atom report nested
    let others ← many (atom report nested)
    pure (others.foldl .app (.app function argument))

def term : Parser ε Term :=
  named report .term (some .term) .term
    (choice (app report nested) [var report, abs report nested])

def expressionOver : Parser ε Term :=
  named report .expression (some .expression) .term
    (choice (term report nested) [bracketed report nested])

end Nesting

def expressionWithin : Nat → Parser ε Term
  | 0 => unfinished
  | depth + 1 =>
      { attempt source position :=
          (expressionOver report (expressionWithin depth)).attempt source position }

-- Each level of nesting takes a mark, so that no text is nested deeper than it is long.
def expression : Parser ε Term where
  attempt source := (expressionWithin report (source.size + 1)).attempt source

def topExpression : Parser ε Term :=
  named report .topExpression none .term do
    let value ← expression report
    blanks
    atEnd .extraCharacters
    pure value

end Grammar

def Rule.parser [Alphabet] {ε : Type} (report : Report ε) : Rule → Parser ε Reading
  | .blanks => (fun _ => .nothing) <$> Grammar.blanks
  | .letter => (fun c => .text c.toString) <$> Grammar.letter
  | .identifier => .text <$> Grammar.identifier report
  | .punctuation mark => .text <$> Grammar.punctuation report mark
  | .var => .term <$> Grammar.var report
  | .abs => .term <$> Grammar.abs report (Grammar.expression report)
  | .app => .term <$> Grammar.app report (Grammar.expression report)
  | .bracketed => .term <$> Grammar.bracketed report (Grammar.expression report)
  | .term => .term <$> Grammar.term report (Grammar.expression report)
  | .expression => .term <$> Grammar.expression report
  | .topExpression => .term <$> Grammar.topExpression report

end LambdaCalculus
