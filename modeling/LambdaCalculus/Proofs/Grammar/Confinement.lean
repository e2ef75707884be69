import LambdaCalculus.Grammar.Progress
import LambdaCalculus.Proofs.Grammar.Congruence
import LambdaCalculus.Proofs.Parser.Confinement

set_option autoImplicit false

namespace LambdaCalculus

open LambdaCalculus.Parser

variable {ε α : Type} (report : Report ε)

namespace Grammar

theorem named_reach (rule : Rule) (expected : Option Cause) (reading : α → Reading) (parser : Parser ε α)
    (source : Source) (position : Nat) :
    ((named report rule expected reading parser).attempt source position).reach =
      ((expected.elim parser fun cause => parser.context cause).attempt source position).reach := by
  simp only [named]
  split <;> rfl

theorem confined_named {rule : Rule} {expected : Option Cause} {reading : α → Reading} {parser : Parser ε α}
    (confined : Confined parser) : Confined (named report rule expected reading parser) := by
  intro source position
  rw [Run.Confined, named_reply, named_reach]
  cases expected with
  | none => exact confined source position
  | some cause => exact confined_context cause confined source position

theorem confinement : Congruence report report fun parser _ => Confined parser where
  pure := confined_pure
  satisfy := confined_satisfy
  literal := confined_literal
  bind := confined_bind
  context := confined_context
  orElse := confined_orElse
  many := confined_many
  named _ _ _ := confined_named report

variable [Alphabet]

theorem confined_expression : Confined (expression report) :=
  fun source position =>
    (confinement report).expressionWithin 0 confined_unfinished (source.size + 1) source position

theorem advances_topExpression : Advances (topExpression report) :=
  advances_named <| advances_bind advances_expression fun _ => stays_bind stays_blanks fun _ =>
    stays_bind (confined_atEnd _).stays fun _ => stays_pure _

end Grammar

namespace Rule

variable [Alphabet]

theorem confined (rule : Rule) : Confined (rule.parser report) :=
  (Grammar.confinement report).rule (Grammar.confined_expression report) fun _ => confined_atEnd _

theorem advances {rule : Rule} (other : rule ≠ .blanks) : Advances (rule.parser report) := by
  have nested : Advances (Grammar.expression report) := Grammar.advances_expression
  cases rule with
  | blanks => exact absurd rfl other
  | letter => exact advances_map _ (advances_satisfy _ _)
  | identifier => exact advances_map _ Grammar.advances_identifier
  | punctuation mark => exact advances_map _ (Grammar.advances_punctuation mark)
  | var => exact advances_map _ Grammar.advances_var
  | abs => exact advances_map _ (Grammar.advances_abs nested)
  | app => exact advances_map _ (Grammar.advances_app nested)
  | bracketed => exact advances_map _ (Grammar.advances_bracketed nested)
  | term => exact advances_map _ (Grammar.advances_term nested)
  | expression => exact advances_map _ nested
  | topExpression => exact advances_map _ (Grammar.advances_topExpression report)

theorem finishes (rule : Rule) (source : Source) (position : Nat) :
    FinishesAt (rule.parser report) source position := by
  have nested : Grammar.NestedFinish (Grammar.expression report) source position :=
    fun later _ _ => Grammar.finishes_expression source later
  cases rule with
  | blanks => exact finishes_map _ (Grammar.finishes_blanks source position)
  | letter => exact finishes_map _ (finishes_satisfy _ _ source position)
  | identifier => exact finishes_map _ (Grammar.finishes_identifier source position)
  | punctuation mark => exact finishes_map _ (Grammar.finishes_punctuation mark source position)
  | var => exact finishes_map _ (Grammar.finishes_var source position)
  | abs => exact finishes_map _ (Grammar.finishes_abs nested)
  | app => exact finishes_map _ (Grammar.finishes_app Grammar.advances_expression nested)
  | bracketed => exact finishes_map _ (Grammar.finishes_bracketed nested)
  | term => exact finishes_map _ (Grammar.finishes_term Grammar.advances_expression nested)
  | expression => exact finishes_map _ (Grammar.finishes_expression source position)
  | topExpression => exact finishes_map _ (Grammar.finishes_topExpression source position)

end Rule

theorem rules_end_within_the_text [Alphabet] (rule : Rule) (source : Source) (position : Nat) :
    let run := (rule.parser report).attempt source position
    ((∃ reading next, run.reply = .matched reading next ∧ position ≤ next ∧ next ≤ max position source.size ∧
        (rule ≠ .blanks → position < next ∧ next ≤ source.size)) ∨
      ∃ failure, run.reply = .failed failure ∧ position ≤ failure.position ∧
        failure.position ≤ max position source.size) ∧
    run.reach ≤ max position source.size ∧
    (rule ≠ .blanks → source.size ≤ position → ∃ failure, run.reply = .failed failure) := by
  intro run
  have finishes : run.reply ≠ .unfinished := rule.finishes report source position
  obtain ⟨reach, ending⟩ := rule.confined report source position
  have advances (other : rule ≠ .blanks) (reading : Reading) (next : Nat) (matched : run.reply = .matched reading next) :
      position < next ∧ next ≤ source.size :=
    Rule.advances report other source position reading next matched
  cases reply : run.reply with
  | matched reading next =>
      rw [reply] at ending
      refine ⟨.inl ⟨reading, next, rfl, ending.1, Nat.le_trans ending.2 reach, ?_⟩, reach, ?_⟩
      · exact fun other => advances other reading next reply
      · intro other behind
        have bounds := advances other reading next reply
        omega
  | failed failure =>
      rw [reply] at ending
      exact ⟨.inr ⟨failure, rfl, ending.1, Nat.le_trans ending.2 reach⟩, reach, fun _ _ => ⟨failure, rfl⟩⟩
  | unfinished => exact absurd reply finishes

end LambdaCalculus
