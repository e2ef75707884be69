import LambdaCalculus.Letter
import LambdaCalculus.Proofs.Grammar.Confinement
import LambdaCalculus.Proofs.Grammar.Congruence
import LambdaCalculus.Proofs.Parser.Displacement

set_option autoImplicit false

namespace LambdaCalculus

open LambdaCalculus.Parser

variable {ε δ α : Type} {source whole : Source} {distance : Nat}

namespace Grammar

theorem displaced_named (report : Report ε) (reference : Report δ) {rule : Rule} {expected : Option Cause}
    {reading : α → Reading} {one : Parser ε α} {other : Parser δ α}
    (displaced : Displaced source whole distance one other) :
    Displaced source whole distance (named report rule expected reading one)
      (named reference rule expected reading other) := by
  intro position finishes
  unfold FinishesAt at finishes
  rw [named_reply] at finishes
  rw [named_reply, named_reply]
  cases expected with
  | none => exact displaced position finishes
  | some cause => exact displaced_context cause displaced position finishes

theorem displacement (report : Report ε) (reference : Report δ) (behind : source.Behind whole distance) :
    Congruence report reference (Displaced source whole distance) where
  pure := displaced_pure
  satisfy := displaced_satisfy behind
  literal := displaced_literal behind
  bind := displaced_bind
  context := displaced_context
  orElse := displaced_orElse
  many := displaced_many behind
  named _ _ _ := displaced_named report reference

variable [Alphabet]

theorem displaced_expression (report : Report ε) (reference : Report δ) (behind : source.Behind whole distance) :
    Displaced source whole distance (expression report) (expression reference) := by
  intro position finishes
  have levels : whole.size + 1 = source.size + 1 + distance := by
    have size := behind.size
    omega
  rw [expression_attempt, expression_attempt, levels]
  have within := (displacement report reference behind).expressionWithin distance (displaced_unfinished _)
    (source.size + 1)
  exact within position (by rwa [FinishesAt, ← expression_attempt])

end Grammar

-- No rule inside of a text looks back or counts from the beginning: behind any other text
-- each comes to what it comes to without, with every position moved by the characters in
-- front. The rule for whole texts does count, in the complaint about what is left over.
theorem rules_ignore_text_in_front [Alphabet] (report : Report ε) {rule : Rule} (inner : rule ≠ .topExpression)
    (front text : String) (position : Nat) :
    let alone := ((rule.parser report).attempt (.ofString text) position).reply
    let behind := ((rule.parser report).attempt (.ofString (front ++ text)) (front.length + position)).reply
    (∃ reading next, alone = .matched reading next ∧ behind = .matched reading (front.length + next)) ∨
      ∃ failure later : Failure, alone = .failed failure ∧ behind = .failed later ∧
        later.position = front.length + failure.position ∧
        later.fragments = failure.fragments.map fun fragment => ⟨front.length + fragment.position, fragment.cause⟩ := by
  intro alone behind
  have suffix := Source.ofString_behind front text
  have displaced := (Grammar.displacement report report suffix).rule
    (Grammar.displaced_expression report report suffix) fun whole => absurd whole inner
  have finishes := rule.finishes report (.ofString text) position
  have same : behind = alone.shift front.length := displaced position finishes
  cases reply : alone with
  | matched reading next =>
      rw [reply] at same
      exact .inl ⟨reading, next, rfl, same⟩
  | failed failure =>
      rw [reply] at same
      exact .inr ⟨failure, failure.shift front.length, rfl, same, Failure.position_shift _ _,
        Failure.fragments_shift _ _⟩
  | unfinished => exact absurd reply finishes

theorem undotted_abstraction_fails_behind_brackets :
    Rule.abs ≠ .topExpression ∧
      ((Rule.abs.parser .traced).attempt (.ofString "\\x") 0).reply =
        .failed ((Failure.ofCause 2 (.mark .dot)).context 0 .abs) ∧
      ∃ later, ((Rule.abs.parser .traced).attempt (.ofString "λ)) \\x") 4).reply = .failed later ∧
        later.position = 6 ∧ later.fragments = [⟨6, .mark .dot⟩, ⟨4, .abs⟩] := by
  have inner : Rule.abs ≠ .topExpression := by decide
  have alone : ((Rule.abs.parser .traced).attempt (.ofString "\\x") 0).reply =
      .failed ((Failure.ofCause 2 (.mark .dot)).context 0 .abs) := by rfl
  refine ⟨inner, alone, ?_⟩
  obtain ⟨reading, next, matched, -⟩ | ⟨failure, later, refused, moved, position, fragments⟩ :=
    rules_ignore_text_in_front .traced inner "λ)) " "\\x" 0
  · rw [alone] at matched
    cases matched
  · rw [alone] at refused
    cases refused
    exact ⟨later, moved, position, fragments⟩

end LambdaCalculus
