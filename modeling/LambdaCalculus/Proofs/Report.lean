import LambdaCalculus.Parse
import LambdaCalculus.Proofs.Grammar.Congruence

set_option autoImplicit false

namespace LambdaCalculus

variable {ε δ α β : Type}

namespace Parser

def Alike (one : Parser ε α) (other : Parser δ α) : Prop :=
  ∀ source position, (one.attempt source position).reply = (other.attempt source position).reply

theorem alike_pure (value : α) : Alike (pure value : Parser ε α) (pure value : Parser δ α) :=
  fun _ _ => rfl

theorem alike_unfinished : Alike (unfinished : Parser ε α) (unfinished : Parser δ α) :=
  fun _ _ => rfl

theorem alike_satisfy (accepts : Char → Bool) (cause : Cause) :
    Alike (satisfy accepts cause : Parser ε Char) (satisfy accepts cause : Parser δ Char) := by
  intro source position
  rw [satisfy_reply, satisfy_reply]

theorem alike_literal (text : String) (cause : Cause) :
    Alike (literal text cause : Parser ε String) (literal text cause : Parser δ String) := by
  intro source position
  rw [literal_reply, literal_reply]

theorem alike_atEnd (cause : Nat → Cause) :
    Alike (atEnd cause : Parser ε Unit) (atEnd cause : Parser δ Unit) := by
  intro source position
  rw [atEnd_reply, atEnd_reply]

theorem alike_bind {one : Parser ε α} {other : Parser δ α} {oneThen : α → Parser ε β} {otherThen : α → Parser δ β}
    (first : Alike one other) (second : ∀ value, Alike (oneThen value) (otherThen value)) :
    Alike (one >>= oneThen) (other >>= otherThen) := by
  intro source position
  rw [bind_reply, bind_reply, first source position]
  cases (other.attempt source position).reply with
  | matched value next => exact second value source next
  | failed failure => rfl
  | unfinished => rfl

theorem alike_context {one : Parser ε α} {other : Parser δ α} (cause : Cause) (alike : Alike one other) :
    Alike (context cause one) (context cause other) := by
  intro source position
  rw [context_reply, context_reply, alike source position]

theorem alike_orElse {one first : Parser ε α} {other second : Parser δ α} (alike : Alike one other)
    (alternatives : Alike first second) : Alike (orElse one first) (orElse other second) := by
  intro source position
  rw [orElse_reply, orElse_reply, alike source position, alternatives source position]

theorem alike_manyWithin {one : Parser ε α} {other : Parser δ α} (alike : Alike one other) (limit : Nat) :
    Alike (one.manyWithin limit) (other.manyWithin limit) := by
  induction limit with
  | zero => exact alike_unfinished
  | succ limit ih =>
      intro source position
      rw [manyWithin_reply, manyWithin_reply, alike source position]
      cases (other.attempt source position).reply with
      | matched value next => simp only [ih source next]
      | failed failure => rfl
      | unfinished => rfl

theorem alike_many {one : Parser ε α} {other : Parser δ α} (alike : Alike one other) :
    Alike (many one) (many other) :=
  fun source position => alike_manyWithin alike (source.size + 1) source position

end Parser

namespace Grammar

open LambdaCalculus.Parser

variable (report : Report ε) (reference : Report δ)

theorem alike_named {rule : Rule} {expected : Option Cause} {reading : α → Reading} {one : Parser ε α}
    {other : Parser δ α} (alike : Alike one other) :
    Alike (named report rule expected reading one) (named reference rule expected reading other) := by
  intro source position
  rw [named_reply, named_reply]
  cases expected with
  | none => exact alike source position
  | some cause => exact alike_context cause alike source position

theorem alikeness : Congruence report reference Alike where
  pure := alike_pure
  satisfy := alike_satisfy
  literal := alike_literal
  bind := alike_bind
  context := alike_context
  orElse := alike_orElse
  many := alike_many
  named _ _ _ := alike_named report reference

variable [Alphabet]

theorem alike_expression : Alike (expression report) (expression reference) :=
  fun source position => (alikeness report reference).expressionWithin 0 alike_unfinished (source.size + 1) source position

theorem alike_topExpression : Alike (topExpression report) (topExpression reference) :=
  (alikeness report reference).topExpression (alike_expression report reference) (alike_atEnd _)

end Grammar

theorem Rule.alike [Alphabet] (report : Report ε) (reference : Report δ) (rule : Rule) :
    Parser.Alike (rule.parser report) (rule.parser reference) :=
  (Grammar.alikeness report reference).rule (Grammar.alike_expression report reference) fun _ =>
    Parser.alike_atEnd _

theorem parseReporting_result [Alphabet] (report : Report ε) (text : String) :
    (parseReporting report text).1 = parse text := by
  unfold parse parseReporting
  simp only [Grammar.alike_topExpression report (Report.silent : Report Empty) (.ofString text) 0]

end LambdaCalculus
