import LambdaCalculus.Proofs.Reduction
import Mathlib.Data.Nat.Find

set_option autoImplicit false

namespace LambdaCalculus

def Reduction.numbered (reduction : Reduction) : List (Nat × Term) :=
  reduction.passes.mapIdx fun index term => (index + 1, term)

namespace Term

def RepeatsAfter (term : Term) (count : Nat) : Prop :=
  (pass^[count + 1] term).render = (pass^[count] term).render

instance (term : Term) (count : Nat) : Decidable (term.RepeatsAfter count) :=
  inferInstanceAs (Decidable (_ = _))

structure SettlesAt (term : Term) (count : Nat) : Prop where
  positive : 0 < count
  unchanged : (pass^[count] term).render = (pass^[count - 1] term).render
  first : ∀ earlier, 0 < earlier → earlier < count →
    (pass^[earlier] term).render ≠ (pass^[earlier - 1] term).render

def stoppedAfter (term : Term) (count : Nat) (halt : Halt) : Reduction :=
  ⟨pass^[count] term, (List.range count).map fun index => pass^[index + 1] term, halt⟩

theorem stoppedAfter_succ (term : Term) (count : Nat) (halt : Halt) :
    term.stoppedAfter (count + 1) halt =
      { term.pass.stoppedAfter count halt with passes := term.pass :: (term.pass.stoppedAfter count halt).passes } := by
  simp only [stoppedAfter, List.range_succ_eq_map, List.map_cons, List.map_map]
  rfl

theorem steps_stoppedAfter (term : Term) (count : Nat) (halt : Halt) : (term.stoppedAfter count halt).steps = count := by
  rw [Reduction.steps, stoppedAfter, List.length_map, List.length_range]

theorem numbered_stoppedAfter (term : Term) (count : Nat) (halt : Halt) :
    (term.stoppedAfter count halt).numbered = (List.range' 1 count).map fun step => (step, pass^[step] term) := by
  rw [Reduction.numbered, stoppedAfter, List.range'_eq_map_range, List.map_map]
  refine List.ext_getElem (by simp) fun index _ _ => ?_
  simp [Nat.add_comm 1]

theorem settlesAt_succ_iff {term : Term} {before : Nat} :
    term.SettlesAt (before + 1) ↔ term.RepeatsAfter before ∧ ∀ earlier < before, ¬ term.RepeatsAfter earlier := by
  constructor
  · intro settles
    exact ⟨settles.unchanged, fun earlier closer => settles.first _ (Nat.succ_pos _) (Nat.succ_lt_succ closer)⟩
  · intro ⟨repeats, first⟩
    refine ⟨Nat.succ_pos _, repeats, fun earlier positive closer => ?_⟩
    obtain ⟨index, rfl⟩ := Nat.exists_eq_add_one.mpr positive
    exact first index (Nat.lt_of_succ_lt_succ closer)

theorem settles_of_repeats {term : Term} {index : Nat} (repeats : term.RepeatsAfter index) :
    ∃ before ≤ index, term.SettlesAt (before + 1) := by
  have some : ∃ index, term.RepeatsAfter index := ⟨index, repeats⟩
  exact ⟨Nat.find some, Nat.find_min' some repeats,
    settlesAt_succ_iff.mpr ⟨Nat.find_spec some, fun earlier closer => Nat.find_min some closer⟩⟩

theorem reduce_of_repeats {term : Term} {before limit : Nat} (repeats : term.RepeatsAfter before)
    (first : ∀ earlier < before, ¬ term.RepeatsAfter earlier) (within : before < limit) :
    term.reduce limit = term.stoppedAfter (before + 1) .normalForm := by
  induction limit generalizing term before with
  | zero => exact absurd within (Nat.not_lt_zero before)
  | succ limit ih =>
      cases before with
      | zero => exact reduce_of_unchanged limit repeats
      | succ before =>
          have changed : ¬ term.pass.render = term.render := first 0 (Nat.succ_pos before)
          have later : term.pass.RepeatsAfter before := repeats
          have rest := ih later (fun _ closer => first _ (Nat.succ_lt_succ closer)) (Nat.lt_of_succ_lt_succ within)
          rw [reduce_of_changed limit changed, rest]
          exact (stoppedAfter_succ term _ _).symm

theorem reduce_of_changing {term : Term} {limit : Nat} (changing : ∀ index < limit, ¬ term.RepeatsAfter index) :
    term.reduce limit = term.stoppedAfter limit .stepLimit := by
  induction limit generalizing term with
  | zero => rfl
  | succ limit ih =>
      have changed : ¬ term.pass.render = term.render := changing 0 (Nat.succ_pos limit)
      have later : ∀ index < limit, ¬ term.pass.RepeatsAfter index :=
        fun _ closer => changing _ (Nat.succ_lt_succ closer)
      rw [reduce_of_changed limit changed, ih later, stoppedAfter_succ]

theorem SettlesAt.reduce {term : Term} {count limit : Nat} (settles : term.SettlesAt count) (within : count ≤ limit) :
    term.reduce limit = term.stoppedAfter count .normalForm := by
  obtain ⟨before, rfl⟩ := Nat.exists_eq_add_one.mpr settles.positive
  obtain ⟨repeats, first⟩ := settlesAt_succ_iff.mp settles
  exact reduce_of_repeats repeats first within

theorem reduce_of_unsettled {term : Term} {limit : Nat} (unsettled : ∀ count, term.SettlesAt count → limit < count) :
    term.reduce limit = term.stoppedAfter limit .stepLimit := by
  refine reduce_of_changing fun index within repeats => ?_
  obtain ⟨before, closer, settles⟩ := settles_of_repeats repeats
  have beyond := unsettled _ settles
  omega

theorem reduce_eq_stoppedAfter (term : Term) (limit : Nat) :
    term.reduce limit = term.stoppedAfter (term.reduce limit).steps (term.reduce limit).halt := by
  by_cases settled : ∃ count ≤ limit, term.SettlesAt count
  · obtain ⟨count, within, settles⟩ := settled
    rw [settles.reduce within, steps_stoppedAfter]
    rfl
  · have unsettled : ∀ count, term.SettlesAt count → limit < count :=
      fun count settles => Nat.lt_of_not_le fun within => settled ⟨count, within, settles⟩
    rw [reduce_of_unsettled unsettled, steps_stoppedAfter]
    rfl

theorem SettlesAt.eq {term : Term} {count other : Nat} (settles : term.SettlesAt count) (again : term.SettlesAt other) :
    count = other := by
  rcases Nat.lt_trichotomy count other with before | same | behind
  · exact absurd settles.unchanged (again.first count settles.positive before)
  · exact same
  · exact absurd again.unchanged (settles.first other again.positive behind)

theorem SettlesAt.normalize {term : Term} {count : Nat} (settles : term.SettlesAt count) (patience : Nat) :
    term.normalize patience none = if count ≤ patience then some (term.stoppedAfter count .normalForm) else none := by
  unfold Term.normalize
  by_cases patient : count ≤ patience
  · simp only [settles.reduce patient, if_pos patient, stoppedAfter, if_true]
  · have cut : term.reduce patience = term.stoppedAfter patience .stepLimit :=
      reduce_of_unsettled fun other again => settles.eq again ▸ Nat.lt_of_not_le patient
    simp [cut, patient, stoppedAfter]

theorem normalize_of_never_settling {term : Term} (never : ∀ count, ¬ term.SettlesAt count) (patience : Nat) :
    term.normalize patience none = none := by
  have cut : term.reduce patience = term.stoppedAfter patience .stepLimit :=
    reduce_of_unsettled fun count settles => absurd settles (never count)
  simp [Term.normalize, cut, stoppedAfter]

end Term

-- A reduction makes the passes up to the first one that leaves the text as it is, or as many
-- as it may, and reports just these. The limit itself changes nothing about them, so that a
-- reduction it has cut off can be taken up again.
theorem reduction_stops_at_first_repeated_text (term : Term) :
    (∀ limit patience, (∀ count, term.SettlesAt count → count ≤ limit →
        term.normalize patience (some limit) = some (term.stoppedAfter count .normalForm)) ∧
      ((∀ count, term.SettlesAt count → limit < count) →
        term.normalize patience (some limit) = some (term.stoppedAfter limit .stepLimit))) ∧
    (∀ count, term.SettlesAt count → ∀ patience, term.normalize patience none =
      if count ≤ patience then some (term.stoppedAfter count .normalForm) else none) ∧
    ((∀ count, ¬ term.SettlesAt count) → ∀ patience, term.normalize patience none = none) ∧
    (∀ count halt, (term.stoppedAfter count halt).steps = count ∧ (term.stoppedAfter count halt).numbered =
      (List.range' 1 count).map fun step => (step, Term.pass^[step] term)) ∧
    (∀ first second patience start, term.normalize patience (some first) = some start → start.halt = .stepLimit →
      ∃ rest whole, start.term.normalize patience (some second) = some rest ∧
        term.normalize patience (some (first + second)) = some whole ∧
        whole.term = rest.term ∧ whole.halt = rest.halt ∧ whole.steps = start.steps + rest.steps) := by
  refine ⟨fun limit patience => ⟨?_, ?_⟩, ?_, Term.normalize_of_never_settling, ?_, ?_⟩
  · exact fun count settles within => congrArg some (settles.reduce within)
  · exact fun unsettled => congrArg some (Term.reduce_of_unsettled unsettled)
  · exact fun count settles => settles.normalize
  · exact fun count halt => ⟨term.steps_stoppedAfter count halt, term.numbered_stoppedAfter count halt⟩
  · intro first second patience start ended cut
    cases ended
    refine ⟨_, _, rfl, rfl, ?_⟩
    have whole := Term.reduce_add first second term
    rw [cut] at whole
    rw [whole]
    exact ⟨rfl, rfl, List.length_append⟩

theorem twice_stops_where_it_settles :
    twice.SettlesAt 4 ∧ twice.normalize 9 none = some (twice.stoppedAfter 4 .normalForm) ∧
      twice.normalize 0 (some 4) = some (twice.stoppedAfter 4 .normalForm) ∧
      twice.normalize 0 (some 3) = some (twice.stoppedAfter 3 .stepLimit) := by
  have settles : twice.SettlesAt 4 := Term.settlesAt_succ_iff.mpr (by decide)
  have alone : ∀ count, twice.SettlesAt count → 3 < count := fun count again => again.eq settles ▸ Nat.lt_succ_self 3
  obtain ⟨limited, unlimited, -⟩ := reduction_stops_at_first_repeated_text twice
  exact ⟨settles, unlimited 4 settles 9, (limited 4 0).1 4 settles (Nat.le_refl 4), (limited 3 0).2 alone⟩

end LambdaCalculus
