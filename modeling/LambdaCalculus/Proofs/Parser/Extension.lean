import LambdaCalculus.Parser.Progress

set_option autoImplicit false

namespace LambdaCalculus.Parser

variable {ε α β : Type} {source : Source}

-- Limits on depth only ever cut attempts off: `full` does all that `cut` does
-- wherever `cut` comes to an end, events included. Each way of putting parsers
-- together keeps this relation, so that a deeper limit never changes an answer.
def ExtendedBy (cut full : Parser ε α) (source : Source) : Prop :=
  ∀ position, FinishesAt cut source position →
    full.attempt source position = cut.attempt source position

theorem extended_refl (parser : Parser ε α) : ExtendedBy parser parser source :=
  fun _ _ => rfl

theorem extended_unfinished (full : Parser ε α) : ExtendedBy unfinished full source :=
  fun _ finishes => absurd rfl finishes

theorem extended_bind {first fullFirst : Parser ε α} {second fullSecond : α → Parser ε β}
    (firstExtended : ExtendedBy first fullFirst source)
    (secondExtended : ∀ value, ExtendedBy (second value) (fullSecond value) source) :
    ExtendedBy (first >>= second) (fullFirst >>= fullSecond) source := by
  intro position finishes
  change (Parser.bind fullFirst fullSecond).attempt source position =
    (Parser.bind first second).attempt source position
  have firstSame := firstExtended position finishes.bind_first
  cases ending : (first.attempt source position).reply with
  | matched value next =>
      have secondSame := secondExtended value next (finishes.bind_second ending)
      simp only [Parser.bind, firstSame, ending, secondSame]
  | failed failure => simp only [Parser.bind, firstSame, ending]
  | unfinished => exact absurd ending finishes.bind_first

theorem extended_context {cut full : Parser ε α} (cause : Cause) (extended : ExtendedBy cut full source) :
    ExtendedBy (context cause cut) (context cause full) source := by
  intro position finishes
  have same := extended position fun stopped => finishes (context_unfinished.mpr stopped)
  simp only [context, same]

theorem extended_orElse {first fullFirst second fullSecond : Parser ε α}
    (firstExtended : ExtendedBy first fullFirst source)
    (secondExtended : ExtendedBy second fullSecond source) :
    ExtendedBy (orElse first second) (orElse fullFirst fullSecond) source := by
  intro position finishes
  have firstSame := firstExtended position finishes.orElse_first
  cases ending : (first.attempt source position).reply with
  | matched value next => simp only [orElse, firstSame, ending]
  | failed failure =>
      have secondSame := secondExtended position (finishes.orElse_second ending)
      simp only [orElse, firstSame, ending, secondSame]
  | unfinished => exact absurd ending finishes.orElse_first

theorem extended_manyWithin {cut full : Parser ε α} (extended : ExtendedBy cut full source) (limit extra : Nat) :
    ExtendedBy (cut.manyWithin limit) (full.manyWithin (limit + extra)) source := by
  induction limit with
  | zero => exact extended_unfinished _
  | succ limit ih =>
      intro position finishes
      rw [Nat.succ_add_eq_add_succ, Nat.add_succ]
      have oneSame := extended position finishes.manyWithin_first
      cases ending : (cut.attempt source position).reply with
      | matched value next =>
          by_cases still : next = position
          · simp only [manyWithin, oneSame, ending, if_pos still]
          · have restSame := ih next (finishes.manyWithin_rest ending still)
            simp only [manyWithin, oneSame, ending, if_neg still, restSame]
      | failed failure => simp only [manyWithin, oneSame, ending]
      | unfinished => exact absurd ending finishes.manyWithin_first

theorem extended_many {cut full : Parser ε α} (extended : ExtendedBy cut full source) :
    ExtendedBy (many cut) (many full) source :=
  fun position finishes => extended_manyWithin extended (source.size + 1) 0 position finishes

end LambdaCalculus.Parser
