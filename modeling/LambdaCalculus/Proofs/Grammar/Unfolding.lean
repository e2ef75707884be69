import LambdaCalculus.Grammar.Progress
import LambdaCalculus.Proofs.Grammar.Congruence
import LambdaCalculus.Proofs.Parser.Extension

set_option autoImplicit false

namespace LambdaCalculus.Grammar

open LambdaCalculus.Parser

variable {ε α : Type} {report : Report ε} {source : Source}

theorem extended_named {rule : Rule} {expected : Option Cause} {reading : α → Reading}
    {cut full : Parser ε α} (extended : ExtendedBy cut full source) :
    ExtendedBy (named report rule expected reading cut) (named report rule expected reading full) source := by
  intro position finishes
  have inner : ExtendedBy (expected.elim cut fun cause => cut.context cause)
      (expected.elim full fun cause => full.context cause) source := by
    cases expected with
    | none => exact extended
    | some cause => exact extended_context cause extended
  have same := inner position (by rwa [FinishesAt, ← named_reply])
  simp only [named, same]

theorem extension (report : Report ε) (source : Source) :
    Congruence report report fun cut full => ExtendedBy cut full source where
  pure _ := extended_refl _
  satisfy _ _ := extended_refl _
  literal _ _ := extended_refl _
  bind := extended_bind
  context := extended_context
  orElse := extended_orElse
  many := extended_many
  named _ _ _ := extended_named

variable [Alphabet]

theorem extended_expression :
    ExtendedBy (expressionWithin report source.size) (expression report) source := by
  intro position finishes
  rw [expression_attempt]
  exact (extension report source).expressionWithin 1 (extended_unfinished _) source.size position finishes

theorem expression_unfold (source : Source) (position : Nat) :
    (expression report).attempt source position =
      (expressionOver report (expression report)).attempt source position := by
  have finishes : FinishesAt (expressionWithin report (source.size + 1)) source position :=
    finishes_expressionWithin (by omega) (by omega)
  rw [expression_attempt]
  exact ((extension report source).expressionOver extended_expression position finishes).symm

end LambdaCalculus.Grammar
