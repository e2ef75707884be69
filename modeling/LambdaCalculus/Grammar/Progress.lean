import LambdaCalculus.Grammar
import LambdaCalculus.Parser.Progress
/-!
Rules other than `blanks` take at least one character, and an expression is never cut off: each level of
nesting lies behind a mark, so that the text in front of it leaves fewer levels to come.
-/

set_option autoImplicit false

namespace LambdaCalculus.Grammar

open LambdaCalculus.Parser

variable {ε α : Type} {report : Report ε}

theorem named_reply (rule : Rule) (expected : Option Cause) (reading : α → Reading)
    (parser : Parser ε α) (source : Source) (position : Nat) :
    ((named report rule expected reading parser).attempt source position).reply =
      ((expected.elim parser fun cause => parser.context cause).attempt source position).reply := by
  unfold named
  dsimp only
  split <;> simp_all

theorem advances_named {rule : Rule} {expected : Option Cause} {reading : α → Reading}
    {parser : Parser ε α} (advances : Advances parser) :
    Advances (named report rule expected reading parser) := by
  intro source position value next matched
  rw [named_reply] at matched
  cases expected with
  | none => exact advances source position value next matched
  | some cause => exact advances_context advances source position value next matched

theorem finishes_named {rule : Rule} {expected : Option Cause} {reading : α → Reading}
    {parser : Parser ε α} {source : Source} {position : Nat}
    (finishes : FinishesAt parser source position) :
    FinishesAt (named report rule expected reading parser) source position := by
  unfold FinishesAt
  rw [named_reply]
  cases expected with
  | none => exact finishes
  | some cause => exact finishes_context finishes

theorem stays_blanks : Stays (blanks : Parser ε Unit) :=
  stays_bind (stays_many (advances_satisfy _ _).stays) fun _ => stays_pure _

theorem finishes_blanks (source : Source) (position : Nat) :
    FinishesAt (blanks : Parser ε Unit) source position :=
  finishes_bind (finishes_many (advances_satisfy _ _) fun later _ => finishes_satisfy _ _ source later)
    fun _ next _ => finishes_pure _ source next

theorem mark_text_length (mark : Mark) : mark.text.length = 1 := by
  cases mark <;> rfl

theorem advances_punctuation (mark : Mark) : Advances (punctuation report mark) :=
  advances_named <| advances_bind_of_second stays_blanks fun _ =>
    advances_literal _ _ (by rw [mark_text_length]; decide)

theorem finishes_punctuation (mark : Mark) (source : Source) (position : Nat) :
    FinishesAt (punctuation report mark) source position :=
  finishes_named <| finishes_bind (finishes_blanks source position) fun _ next _ =>
    finishes_literal _ _ source next

section Nesting

variable {nested : Parser ε Term} {source : Source} {position : Nat}

theorem advances_bracketed (advances : Advances nested) : Advances (bracketed report nested) :=
  advances_named <| advances_bind (advances_punctuation _) fun _ =>
    stays_bind advances.stays fun _ =>
      stays_bind (advances_punctuation _).stays fun _ => stays_pure _

-- Expressions are not cut off where a rule that begins at `position` may attempt them: behind
-- a mark, and so behind `position` but within the text.
def NestedFinish (nested : Parser ε Term) (source : Source) (position : Nat) : Prop :=
  ∀ later, position < later → later ≤ source.size → FinishesAt nested source later

theorem NestedFinish.mono {next : Nat} (finish : NestedFinish nested source position)
    (after : position ≤ next) : NestedFinish nested source next :=
  fun later behind => finish later (by omega)

theorem finishes_bracketed (finish : NestedFinish nested source position) :
    FinishesAt (bracketed report nested) source position := by
  refine finishes_named <| finishes_bind (finishes_punctuation _ source position) fun _ first opened =>
    finishes_bind (finish first ?_ ?_) fun _ second _ =>
      finishes_bind (finishes_punctuation _ source second) fun _ last _ => finishes_pure _ source last
  · exact (advances_punctuation _ source position _ _ opened).1
  · exact (advances_punctuation _ source position _ _ opened).2

end Nesting

variable [Alphabet]

theorem advances_identifier : Advances (identifier report) :=
  advances_named <| advances_bind_of_second stays_blanks fun _ =>
    advances_bind (advances_satisfy _ _) fun _ =>
      stays_bind (stays_many (advances_satisfy _ _).stays) fun _ => stays_pure _

theorem finishes_identifier (source : Source) (position : Nat) :
    FinishesAt (identifier report) source position :=
  finishes_named <| finishes_bind (finishes_blanks source position) fun _ first _ =>
    finishes_bind (finishes_satisfy _ _ source first) fun _ _ _ =>
      finishes_bind (finishes_many (advances_satisfy _ _) fun later _ => finishes_satisfy _ _ source later)
        fun _ next _ => finishes_pure _ source next

theorem advances_var : Advances (var report) :=
  advances_named <| advances_bind advances_identifier fun _ => stays_pure _

theorem finishes_var (source : Source) (position : Nat) : FinishesAt (var report) source position :=
  finishes_named <| finishes_bind (finishes_identifier source position) fun _ next _ =>
    finishes_pure _ source next

section Nesting

variable {nested : Parser ε Term} {source : Source} {position : Nat}

theorem advances_abs (advances : Advances nested) : Advances (abs report nested) :=
  advances_named <| advances_bind (advances_punctuation _) fun _ =>
    stays_bind advances_identifier.stays fun _ =>
      stays_bind (advances_punctuation _).stays fun _ =>
        stays_bind advances.stays fun _ => stays_pure _

theorem advances_atom (advances : Advances nested) : Advances (atom report nested) :=
  advances_choice advances_var (by simp [advances_abs advances, advances_bracketed advances])

theorem advances_app (advances : Advances nested) : Advances (app report nested) :=
  advances_named <| advances_bind (advances_atom advances) fun _ =>
    stays_bind (advances_atom advances).stays fun _ =>
      stays_bind (stays_many (advances_atom advances).stays) fun _ => stays_pure _

theorem advances_term (advances : Advances nested) : Advances (term report nested) :=
  advances_named <| advances_choice (advances_app advances) (by simp [advances_var, advances_abs advances])

theorem advances_expressionOver (advances : Advances nested) : Advances (expressionOver report nested) :=
  advances_named <| advances_choice (advances_term advances) (by simp [advances_bracketed advances])

theorem finishes_abs (finish : NestedFinish nested source position) :
    FinishesAt (abs report nested) source position := by
  refine finishes_named <| finishes_bind (finishes_punctuation _ source position) fun _ first opened =>
    finishes_bind (finishes_identifier source first) fun _ second named =>
      finishes_bind (finishes_punctuation _ source second) fun _ third dotted =>
        finishes_bind (finish third ?_ ?_) fun _ last _ => finishes_pure _ source last
  · have opening := advances_punctuation _ source position _ _ opened
    have naming := advances_identifier source first _ _ named
    have dotting := advances_punctuation _ source second _ _ dotted
    omega
  · exact (advances_punctuation _ source second _ _ dotted).2

theorem finishes_atom (finish : NestedFinish nested source position) :
    FinishesAt (atom report nested) source position :=
  finishes_choice (finishes_var source position)
    (by simp [finishes_abs finish, finishes_bracketed finish])

theorem finishes_app (advances : Advances nested) (finish : NestedFinish nested source position) :
    FinishesAt (app report nested) source position := by
  refine finishes_named <| finishes_bind (finishes_atom finish) fun _ first head =>
    finishes_bind (finishes_atom (finish.mono ?_)) fun _ second argument =>
      finishes_bind (finishes_many (advances_atom advances) fun later after =>
        finishes_atom (finish.mono ?_)) fun _ last _ => finishes_pure _ source last
  · have front := advances_atom advances source position _ _ head
    omega
  · have front := advances_atom advances source position _ _ head
    have back := advances_atom advances source first _ _ argument
    omega

theorem finishes_term (advances : Advances nested) (finish : NestedFinish nested source position) :
    FinishesAt (term report nested) source position :=
  finishes_named <| finishes_choice (finishes_app advances finish)
    (by simp [finishes_var, finishes_abs finish])

theorem finishes_expressionOver (advances : Advances nested)
    (finish : NestedFinish nested source position) :
    FinishesAt (expressionOver report nested) source position :=
  finishes_named <| finishes_choice (finishes_term advances finish) (by simp [finishes_bracketed finish])

end Nesting

theorem advances_expressionWithin (depth : Nat) : Advances (expressionWithin report depth) := by
  induction depth with
  | zero => intro source position value next matched; cases matched
  | succ depth ih => exact advances_expressionOver ih

theorem finishes_expressionWithin {source : Source} {depth position : Nat} (positive : 0 < depth)
    (enough : source.size < depth + position) :
    FinishesAt (expressionWithin report depth) source position := by
  induction depth generalizing position with
  | zero => omega
  | succ depth ih =>
      apply finishes_expressionOver (advances_expressionWithin depth)
      intro later behind within
      exact ih (by omega) (by omega)

theorem expression_attempt (source : Source) (position : Nat) :
    (expression report).attempt source position =
      (expressionWithin report (source.size + 1)).attempt source position := by
  simp only [expression]

theorem advances_expression : Advances (expression report) := by
  intro source position value next matched
  rw [expression_attempt] at matched
  exact advances_expressionWithin (source.size + 1) source position value next matched

theorem finishes_expression (source : Source) (position : Nat) :
    FinishesAt (expression report) source position := by
  unfold FinishesAt
  rw [expression_attempt]
  exact finishes_expressionWithin (by omega) (by omega)

theorem finishes_topExpression (source : Source) (position : Nat) :
    FinishesAt (topExpression report) source position :=
  finishes_named <| finishes_bind (finishes_expression source position) fun _ first _ =>
    finishes_bind (finishes_blanks source first) fun _ second _ =>
      finishes_bind (finishes_atEnd _ source second) fun _ last _ => finishes_pure _ source last

end LambdaCalculus.Grammar
