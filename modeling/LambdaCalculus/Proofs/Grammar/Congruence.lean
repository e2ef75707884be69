import LambdaCalculus.Grammar

set_option autoImplicit false

namespace LambdaCalculus.Grammar

open LambdaCalculus.Parser

variable {ε δ : Type}

-- A relation of parsers that each way of putting them together keeps, the making of rules
-- included. The rules are put together in these ways only, so that they are related to
-- themselves as soon as the expressions nested in them are.
structure Congruence (report : Report ε) (reference : Report δ)
    (Related : {α : Type} → Parser ε α → Parser δ α → Prop) : Prop where
  pure : ∀ {α : Type} (value : α), Related (pure value) (pure value)
  satisfy : ∀ accepts cause, Related (Parser.satisfy accepts cause) (Parser.satisfy accepts cause)
  literal : ∀ text cause, Related (Parser.literal text cause) (Parser.literal text cause)
  bind : ∀ {α β : Type} {one : Parser ε α} {other : Parser δ α} {oneThen : α → Parser ε β}
    {otherThen : α → Parser δ β}, Related one other → (∀ value, Related (oneThen value) (otherThen value)) →
      Related (one >>= oneThen) (other >>= otherThen)
  context : ∀ {α : Type} {one : Parser ε α} {other : Parser δ α} (cause : Cause), Related one other →
    Related (Parser.context cause one) (Parser.context cause other)
  orElse : ∀ {α : Type} {one first : Parser ε α} {other second : Parser δ α}, Related one other →
    Related first second → Related (Parser.orElse one first) (Parser.orElse other second)
  many : ∀ {α : Type} {one : Parser ε α} {other : Parser δ α}, Related one other →
    Related (Parser.many one) (Parser.many other)
  named : ∀ {α : Type} {one : Parser ε α} {other : Parser δ α} (rule : Rule) (expected : Option Cause)
    (reading : α → Reading), Related one other →
      Related (Grammar.named report rule expected reading one) (Grammar.named reference rule expected reading other)

namespace Congruence

variable {report : Report ε} {reference : Report δ}
  {Related : {α : Type} → Parser ε α → Parser δ α → Prop}
  (congruence : Congruence report reference Related)

include congruence

theorem map {α β : Type} {one : Parser ε α} {other : Parser δ α} (change : α → β) (related : Related one other) :
    Related (change <$> one) (change <$> other) :=
  congruence.bind related fun _ => congruence.pure _

theorem blanks : Related Grammar.blanks Grammar.blanks :=
  congruence.bind (congruence.many (congruence.satisfy _ _)) fun _ => congruence.pure _

theorem punctuation (mark : Mark) : Related (Grammar.punctuation report mark) (Grammar.punctuation reference mark) :=
  congruence.named _ _ _ <| congruence.bind congruence.blanks fun _ => congruence.literal _ _

variable {one : Parser ε Term} {other : Parser δ Term}

theorem bracketed (nested : Related one other) :
    Related (Grammar.bracketed report one) (Grammar.bracketed reference other) :=
  congruence.named _ _ _ <| congruence.bind (congruence.punctuation _) fun _ => congruence.bind nested fun _ =>
    congruence.bind (congruence.punctuation _) fun _ => congruence.pure _

variable [Alphabet]

theorem letter : Related Grammar.letter Grammar.letter :=
  congruence.satisfy _ _

theorem identifier : Related (Grammar.identifier report) (Grammar.identifier reference) :=
  congruence.named _ _ _ <| congruence.bind congruence.blanks fun _ => congruence.bind congruence.letter fun _ =>
    congruence.bind (congruence.many congruence.letter) fun _ => congruence.pure _

theorem var : Related (Grammar.var report) (Grammar.var reference) :=
  congruence.named _ _ _ <| congruence.bind congruence.identifier fun _ => congruence.pure _

section

variable (nested : Related one other)

include nested

theorem abs : Related (Grammar.abs report one) (Grammar.abs reference other) :=
  congruence.named _ _ _ <| congruence.bind (congruence.punctuation _) fun _ =>
    congruence.bind congruence.identifier fun _ => congruence.bind (congruence.punctuation _) fun _ =>
      congruence.bind nested fun _ => congruence.pure _

theorem atom : Related (Grammar.atom report one) (Grammar.atom reference other) :=
  congruence.context _ <|
    congruence.orElse (congruence.orElse congruence.var (congruence.abs nested)) (congruence.bracketed nested)

theorem app : Related (Grammar.app report one) (Grammar.app reference other) :=
  have atoms := congruence.atom nested
  congruence.named _ _ _ <| congruence.bind atoms fun _ => congruence.bind atoms fun _ =>
    congruence.bind (congruence.many atoms) fun _ => congruence.pure _

theorem term : Related (Grammar.term report one) (Grammar.term reference other) :=
  congruence.named _ _ _ <| congruence.context _ <|
    congruence.orElse (congruence.orElse (congruence.app nested) congruence.var) (congruence.abs nested)

theorem expressionOver : Related (Grammar.expressionOver report one) (Grammar.expressionOver reference other) :=
  congruence.named _ _ _ <| congruence.context _ <|
    congruence.orElse (congruence.term nested) (congruence.bracketed nested)

end

theorem topExpression (nested : Related (Grammar.expression report) (Grammar.expression reference))
    (ended : Related (Parser.atEnd .extraCharacters) (Parser.atEnd .extraCharacters)) :
    Related (Grammar.topExpression report) (Grammar.topExpression reference) :=
  congruence.named _ _ _ <| congruence.bind nested fun _ => congruence.bind congruence.blanks fun _ =>
    congruence.bind ended fun _ => congruence.pure _

theorem expressionWithin (extra : Nat)
    (cut : Related Parser.unfinished (Grammar.expressionWithin reference extra)) (depth : Nat) :
    Related (Grammar.expressionWithin report depth) (Grammar.expressionWithin reference (depth + extra)) := by
  induction depth with
  | zero =>
      rw [Nat.zero_add]
      exact cut
  | succ depth ih =>
      rw [Nat.succ_add_eq_add_succ, Nat.add_succ]
      exact congruence.expressionOver ih

theorem rule {rule : Rule} (nested : Related (Grammar.expression report) (Grammar.expression reference))
    (ended : rule = .topExpression →
      Related (Parser.atEnd .extraCharacters) (Parser.atEnd .extraCharacters)) :
    Related (rule.parser report) (rule.parser reference) := by
  cases rule with
  | blanks => exact congruence.map _ congruence.blanks
  | letter => exact congruence.map _ congruence.letter
  | identifier => exact congruence.map _ congruence.identifier
  | punctuation mark => exact congruence.map _ (congruence.punctuation mark)
  | var => exact congruence.map _ congruence.var
  | abs => exact congruence.map _ (congruence.abs nested)
  | app => exact congruence.map _ (congruence.app nested)
  | bracketed => exact congruence.map _ (congruence.bracketed nested)
  | term => exact congruence.map _ (congruence.term nested)
  | expression => exact congruence.map _ nested
  | topExpression => exact congruence.map _ (congruence.topExpression nested (ended rfl))

end Congruence

end LambdaCalculus.Grammar
