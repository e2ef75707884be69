import LambdaCalculus.Proofs.Grammar.Unfolding
import LambdaCalculus.Proofs.Parser.Repetition

set_option autoImplicit false

namespace LambdaCalculus

def Failure.within (failure : Failure) (position : Nat) (causes : List Cause) : Failure :=
  causes.foldl (fun inner cause => inner.context position cause) failure

namespace Failure

theorem position_within (failure : Failure) (position : Nat) (causes : List Cause) :
    (failure.within position causes).position = failure.position := by
  induction causes generalizing failure with
  | nil => rfl
  | cons cause rest ih => exact (ih _).trans (position_context failure position cause)

theorem fragments_within (failure : Failure) (position : Nat) (causes : List Cause) :
    (failure.within position causes).fragments =
      failure.fragments ++ causes.map (Fragment.mk position) := by
  induction causes generalizing failure with
  | nil => simp [within]
  | cons cause rest ih =>
      have outer := ih (failure.context position cause)
      rw [fragments_context] at outer
      simpa [within] using outer

end Failure

namespace Grammar

open LambdaCalculus.Parser

variable [Alphabet] {ε : Type} {report : Report ε}

section Nesting

variable {nested : Parser ε Term} {source : Source} {position : Nat}

theorem atom_failed {failure : Failure}
    (refused : ((atom report nested).attempt source position).reply = .failed failure) :
    ∃ noVar noAbs noBrackets : Failure,
      ((var report).attempt source position).reply = .failed noVar ∧
      ((abs report nested).attempt source position).reply = .failed noAbs ∧
      ((bracketed report nested).attempt source position).reply = .failed noBrackets ∧
      failure = ((noVar.further noAbs).further noBrackets).context position .noAlternative := by
  change ((context .noAlternative (orElse (orElse (var report) (abs report nested))
    (bracketed report nested))).attempt source position).reply = _ at refused
  rw [context_reply, orElse_reply, orElse_reply] at refused
  cases varEnd : ((var report).attempt source position).reply with
  | matched value next => simp [varEnd] at refused
  | unfinished => simp [varEnd] at refused
  | failed noVar =>
      cases absEnd : ((abs report nested).attempt source position).reply with
      | matched value next => simp [varEnd, absEnd] at refused
      | unfinished => simp [varEnd, absEnd] at refused
      | failed noAbs =>
          cases bracketsEnd : ((bracketed report nested).attempt source position).reply with
          | matched value next => simp [varEnd, absEnd, bracketsEnd] at refused
          | unfinished => simp [varEnd, absEnd, bracketsEnd] at refused
          | failed noBrackets =>
              simp only [varEnd, absEnd, bracketsEnd] at refused
              cases refused
              exact ⟨noVar, noAbs, noBrackets, rfl, rfl, rfl, rfl⟩

theorem atom_matched_iff {value : Term} {next : Nat} :
    ((atom report nested).attempt source position).reply = .matched value next ↔
      ((var report).attempt source position).reply = .matched value next ∨
      (∃ noVar, ((var report).attempt source position).reply = .failed noVar ∧
        ((abs report nested).attempt source position).reply = .matched value next) ∨
      (∃ noVar noAbs, ((var report).attempt source position).reply = .failed noVar ∧
        ((abs report nested).attempt source position).reply = .failed noAbs ∧
        ((bracketed report nested).attempt source position).reply = .matched value next) := by
  change ((context .noAlternative (orElse (orElse (var report) (abs report nested))
    (bracketed report nested))).attempt source position).reply = _ ↔ _
  rw [context_matched, orElse_reply, orElse_reply]
  cases ((var report).attempt source position).reply with
  | matched read behind => simp
  | unfinished => simp
  | failed noVar =>
      cases ((abs report nested).attempt source position).reply with
      | matched read behind => simp
      | unfinished => simp
      | failed noAbs => cases ((bracketed report nested).attempt source position).reply <;> simp

theorem app_reply_of_failed {failure : Failure}
    (refused : ((atom report nested).attempt source position).reply = .failed failure) :
    ((app report nested).attempt source position).reply = .failed (failure.context position .app) := by
  simp only [app, named_reply, Option.elim_some, context_reply, bind_reply, refused]

theorem app_failed_of_single {head : Term} {next : Nat} {failure : Failure}
    (matched : ((atom report nested).attempt source position).reply = .matched head next)
    (refused : ((atom report nested).attempt source next).reply = .failed failure) :
    ((app report nested).attempt source position).reply = .failed (failure.context position .app) := by
  simp only [app, named_reply, Option.elim_some, context_reply, bind_reply, matched, refused]

theorem app_matched_of_run {head argument : Term} {others : List Term} {next after last : Nat}
    (headMatched : ((atom report nested).attempt source position).reply = .matched head next)
    (argumentMatched : ((atom report nested).attempt source next).reply = .matched argument after)
    (othersMatched : ((many (atom report nested)).attempt source after).reply = .matched others last) :
    ((app report nested).attempt source position).reply =
      .matched ((argument :: others).foldl .app head) last := by
  simp only [app, named_reply, Option.elim_some, context_reply, bind_reply, headMatched,
    argumentMatched, othersMatched]
  rfl

theorem term_reply : ((term report nested).attempt source position).reply =
    ((context .term (context .noAlternative (orElse (orElse (app report nested) (var report))
      (abs report nested)))).attempt source position).reply :=
  named_reply _ _ _ _ _ _

theorem expressionOver_reply : ((expressionOver report nested).attempt source position).reply =
    ((context .expression (context .noAlternative (orElse (term report nested)
      (bracketed report nested)))).attempt source position).reply :=
  named_reply _ _ _ _ _ _

def expressionTrail : List Cause :=
  [.app, .noAlternative, .term, .noAlternative, .expression]

theorem expressionOver_failed {failure : Failure}
    (refused : ((atom report nested).attempt source position).reply = .failed failure) :
    ((expressionOver report nested).attempt source position).reply =
      .failed (failure.within position expressionTrail) := by
  obtain ⟨noVar, noAbs, noBrackets, varEnd, absEnd, bracketsEnd, told⟩ := atom_failed refused
  -- The other alternatives are among the atom's own and fail no further than it did, so that the
  -- trail of the first one is kept.
  have furthest : failure.position = max (max noVar.position noAbs.position) noBrackets.position := by
    rw [told, Failure.position_context, Failure.position_further, Failure.position_further]
  have appEnd := app_reply_of_failed refused
  have termEnd : ((term report nested).attempt source position).reply =
      .failed (failure.within position [.app, .noAlternative, .term]) := by
    rw [term_reply]
    simp only [context_reply, orElse_reply, appEnd, varEnd, absEnd]
    rw [Failure.further_of_le _ noVar (by rw [Failure.position_context]; omega),
      Failure.further_of_le _ noAbs (by rw [Failure.position_context]; omega)]
    rfl
  rw [expressionOver_reply]
  simp only [context_reply, orElse_reply, termEnd, bracketsEnd]
  rw [Failure.further_of_le _ noBrackets (by rw [Failure.position_within]; omega)]
  rfl

theorem expressionOver_single {head : Term} {next : Nat} {failure : Failure}
    (matched : ((atom report nested).attempt source position).reply = .matched head next)
    (refused : ((atom report nested).attempt source next).reply = .failed failure) :
    ((expressionOver report nested).attempt source position).reply = .matched head next := by
  have appEnd := app_failed_of_single matched refused
  rw [expressionOver_reply]
  simp only [context_reply, orElse_reply, term_reply, appEnd]
  obtain varEnd | ⟨noVar, varEnd, absEnd⟩ | ⟨noVar, noAbs, varEnd, absEnd, bracketsEnd⟩ :=
    atom_matched_iff.mp matched
  · simp only [varEnd]
  · simp only [varEnd, absEnd]
  · simp only [varEnd, absEnd, bracketsEnd]

theorem expressionOver_app {term : Term} {next : Nat}
    (matched : ((app report nested).attempt source position).reply = .matched term next) :
    ((expressionOver report nested).attempt source position).reply = .matched term next := by
  rw [expressionOver_reply]
  simp only [context_reply, orElse_reply, term_reply, matched]

end Nesting

def item (report : Report ε) : Parser ε Term :=
  atom report (expression report)

theorem advances_item : Advances (item report) :=
  advances_atom advances_expression

theorem finishes_item (source : Source) (position : Nat) : FinishesAt (item report) source position :=
  finishes_atom fun later _ _ => finishes_expression source later

variable {source : Source} {position : Nat}

theorem expression_failed_of_item {failure : Failure}
    (refused : ((item report).attempt source position).reply = .failed failure) :
    ((expression report).attempt source position).reply =
      .failed (failure.within position expressionTrail) := by
  rw [expression_unfold]
  exact expressionOver_failed refused

theorem expression_matched_of_run {head : Term} {others : List Term} {last : Nat}
    (run : MaximalRun (item report) source position (head :: others) last) :
    ((expression report).attempt source position).reply = .matched (others.foldl .app head) last := by
  rw [expression_unfold]
  obtain ⟨next, headMatched, rest⟩ := maximal_run_cons.mp run
  cases rest with
  | stop refused => exact expressionOver_single headMatched refused
  | step argumentMatched more =>
      have othersMatched := (many_matched_iff advances_item).mpr more
      exact expressionOver_app (app_matched_of_run headMatched argumentMatched othersMatched)

theorem maximal_items_exist (report : Report ε) (source : Source) (position : Nat) :
    ∃ items last, MaximalRun (item report) source position items last :=
  maximal_run_exists advances_item position fun later _ => finishes_item source later

theorem expression_matched_iff {term : Term} {last : Nat} :
    ((expression report).attempt source position).reply = .matched term last ↔
      ∃ head others, MaximalRun (item report) source position (head :: others) last ∧
        term = others.foldl .app head := by
  constructor
  · intro matched
    obtain ⟨items, behind, run⟩ := maximal_items_exist report source position
    cases items with
    | nil =>
        cases run with
        | stop refused =>
            rw [expression_failed_of_item refused] at matched
            cases matched
    | cons head others =>
        rw [expression_matched_of_run run] at matched
        cases matched
        exact ⟨head, others, run, rfl⟩
  · rintro ⟨head, others, run, rfl⟩
    exact expression_matched_of_run run

theorem expression_reads_atoms_in_one_pass (report : Report ε) (source : Source) (position : Nat) :
    ((∃ term last, ((expression report).attempt source position).reply = .matched term last) ↔
      ∃ head next, ((item report).attempt source position).reply = .matched head next) ∧
    (∀ head next, ((item report).attempt source position).reply = .matched head next →
      ∃ others last, ((many (item report)).attempt source next).reply = .matched others last ∧
        MaximalRun (item report) source position (head :: others) last ∧
        ((expression report).attempt source position).reply = .matched (others.foldl .app head) last) ∧
    (∀ failure, ((item report).attempt source position).reply = .failed failure →
      ∃ told : Failure, ((expression report).attempt source position).reply = .failed told ∧
        told.position = failure.position ∧
        told.fragments = failure.fragments ++ expressionTrail.map (Fragment.mk position)) ∧
    expressionTrail.map Cause.message = ["function applications are expected", "no alternative matched",
      "a term is expected", "no alternative matched", "an expression is expected"] := by
  have passes : ∀ head next, ((item report).attempt source position).reply = .matched head next →
      ∃ others last, ((many (item report)).attempt source next).reply = .matched others last ∧
        MaximalRun (item report) source position (head :: others) last ∧
        ((expression report).attempt source position).reply = .matched (others.foldl .app head) last := by
    intro head next matched
    obtain ⟨others, last, rest⟩ := maximal_items_exist report source next
    have run := MaximalRun.step matched rest
    exact ⟨others, last, (many_matched_iff advances_item).mpr rest, run, expression_matched_of_run run⟩
  refine ⟨⟨?_, ?_⟩, passes, ?_, rfl⟩
  · intro ⟨term, last, matched⟩
    obtain ⟨head, others, run, -⟩ := expression_matched_iff.mp matched
    obtain ⟨next, headMatched, -⟩ := maximal_run_cons.mp run
    exact ⟨head, next, headMatched⟩
  · intro ⟨head, next, matched⟩
    obtain ⟨others, last, -, -, read⟩ := passes head next matched
    exact ⟨others.foldl .app head, last, read⟩
  · intro failure refused
    exact ⟨failure.within position expressionTrail, expression_failed_of_item refused,
      Failure.position_within _ _ _, Failure.fragments_within _ _ _⟩

end Grammar

end LambdaCalculus
