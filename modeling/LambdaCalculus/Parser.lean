import LambdaCalculus.Failure
import LambdaCalculus.Source
/-!
Backtracking parsers. A parser is attempted at a position of a source and matches up to another
position, or fails; a failure leaves no position behind, so that whoever attempted the parser goes on
from where the attempt began. Parsers also report events, in the order in which they arise and
whatever the attempt comes to.
-/

set_option autoImplicit false

namespace LambdaCalculus

inductive Reply (α : Type) where
  | matched (value : α) (next : Nat)
  | failed (failure : Failure)
  | unfinished
deriving DecidableEq, Repr

def Reply.result {α : Type} : (reply : Reply α) → reply ≠ .unfinished → Except Failure α
  | .matched value _, _ => .ok value
  | .failed failure, _ => .error failure
  | .unfinished, cut => absurd rfl cut

structure Run (ε α : Type) where
  reply : Reply α
  events : List ε
  -- The greatest position that was counted up to, or the first one if none was.
  reach : Nat
deriving DecidableEq, Repr

structure Parser (ε α : Type) where
  attempt : Source → Nat → Run ε α

namespace Parser

variable {ε α β : Type}

protected def pure (value : α) : Parser ε α where
  attempt _ position := ⟨.matched value position, [], position⟩

protected def bind (first : Parser ε α) (second : α → Parser ε β) : Parser ε β where
  attempt source position :=
    let run := first.attempt source position
    match run.reply with
    | .matched value next =>
        let rest := (second value).attempt source next
        ⟨rest.reply, run.events ++ rest.events, max run.reach rest.reach⟩
    | .failed failure => ⟨.failed failure, run.events, run.reach⟩
    | .unfinished => ⟨.unfinished, run.events, run.reach⟩

instance : Monad (Parser ε) where
  pure := Parser.pure
  bind := Parser.bind

def unfinished : Parser ε α where
  attempt _ position := ⟨.unfinished, [], position⟩

def fail (cause : Cause) : Parser ε α where
  attempt _ position := ⟨.failed (.ofCause position cause), [], position⟩

def notify (event : Nat → ε) : Parser ε Unit where
  attempt _ position := ⟨.matched () position, [event position], position⟩

def satisfy (accepts : Char → Bool) (cause : Cause) : Parser ε Char where
  attempt source position :=
    match (source.charAt position).filter accepts with
    | some c => ⟨.matched c (position + 1), [], position + 1⟩
    | none => ⟨.failed (.ofCause position cause), [], position⟩

def literal (text : String) (cause : Cause) : Parser ε String where
  attempt source position :=
    if source.startsWith position text then
      ⟨.matched text (position + text.length), [], position + text.length⟩
    else ⟨.failed (.ofCause position cause), [], position + source.agreement position text.toList⟩

def atEnd (cause : Nat → Cause) : Parser ε Unit where
  attempt source position :=
    if position = source.size then ⟨.matched () position, [], position⟩
    else ⟨.failed (.ofCause position (cause position)), [], position⟩

def context (cause : Cause) (parser : Parser ε α) : Parser ε α where
  attempt source position :=
    let run := parser.attempt source position
    match run.reply with
    | .failed failure => ⟨.failed (failure.context position cause), run.events, run.reach⟩
    | _ => run

def orElse (first second : Parser ε α) : Parser ε α where
  attempt source position :=
    let run := first.attempt source position
    match run.reply with
    | .failed failure =>
        let rest := second.attempt source position
        match rest.reply with
        | .failed other =>
            ⟨.failed (failure.further other), run.events ++ rest.events, max run.reach rest.reach⟩
        | reply => ⟨reply, run.events ++ rest.events, max run.reach rest.reach⟩
    | _ => run

def choice (first : Parser ε α) (others : List (Parser ε α)) : Parser ε α :=
  context .noAlternative (others.foldl orElse first)

def sequence : List (Parser ε α) → Parser ε (List α)
  | [] => pure []
  | first :: rest => do
      let value ← first
      let values ← sequence rest
      pure (value :: values)

def manyWithin (parser : Parser ε α) : Nat → Parser ε (List α)
  | 0 => unfinished
  | limit + 1 =>
      { attempt source position :=
          let run := parser.attempt source position
          match run.reply with
          | .matched value next =>
              if next = position then ⟨.matched [value] next, run.events, run.reach⟩
              else
                let rest := (parser.manyWithin limit).attempt source next
                match rest.reply with
                | .matched values last =>
                    ⟨.matched (value :: values) last, run.events ++ rest.events, max run.reach rest.reach⟩
                | reply => ⟨reply, run.events ++ rest.events, max run.reach rest.reach⟩
          | .failed _ => ⟨.matched [] position, run.events, run.reach⟩
          | .unfinished => ⟨.unfinished, run.events, run.reach⟩ }

-- As many matches as there are: up to the first failure, or the first match of no characters.
-- A parser that never moves back needs no more attempts than there are characters, and one.
def many (parser : Parser ε α) : Parser ε (List α) where
  attempt source := (parser.manyWithin (source.size + 1)).attempt source

end Parser

end LambdaCalculus
