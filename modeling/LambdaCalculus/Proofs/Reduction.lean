import LambdaCalculus.Letter
import LambdaCalculus.Proofs.Evaluation
import LambdaCalculus.Proofs.RoundTrip
import LambdaCalculus.Reduction
import Mathlib.Logic.Function.Iterate

set_option autoImplicit false

namespace LambdaCalculus

namespace Term

theorem reduce_of_changed {term : Term} (limit : Nat) (changed : term.pass.render ≠ term.render) :
    term.reduce (limit + 1) =
      { term.pass.reduce limit with passes := term.pass :: (term.pass.reduce limit).passes } := by
  rw [reduce_succ, if_neg changed]

theorem reduce_of_unchanged {term : Term} (limit : Nat) (unchanged : term.pass.render = term.render) :
    term.reduce (limit + 1) = ⟨term.pass, [term.pass], .normalForm⟩ := by
  rw [reduce_succ, if_pos unchanged]

theorem reduce_term (limit : Nat) (term : Term) :
    (term.reduce limit).term = pass^[(term.reduce limit).steps] term := by
  induction limit generalizing term with
  | zero => rfl
  | succ limit ih =>
      by_cases unchanged : term.pass.render = term.render
      · rw [reduce_of_unchanged limit unchanged]
        rfl
      · rw [reduce_of_changed limit unchanged]
        exact ih term.pass

theorem reduce_steps_of_normalForm {limit : Nat} {term : Term} (halt : (term.reduce limit).halt = .normalForm) :
    ∃ before, (term.reduce limit).steps = before + 1 ∧
      (pass^[before + 1] term).render = (pass^[before] term).render := by
  induction limit generalizing term with
  | zero => cases halt
  | succ limit ih =>
      by_cases unchanged : term.pass.render = term.render
      · rw [reduce_of_unchanged limit unchanged]
        exact ⟨0, rfl, unchanged⟩
      · rw [reduce_of_changed limit unchanged] at halt ⊢
        obtain ⟨before, steps, same⟩ := ih halt
        exact ⟨before + 1, congrArg (· + 1) steps, same⟩

theorem reduce_add (first second : Nat) (term : Term) :
    term.reduce (first + second) =
      match (term.reduce first).halt with
      | .normalForm => term.reduce first
      | .stepLimit =>
          { (term.reduce first).term.reduce second with
            passes := (term.reduce first).passes ++ ((term.reduce first).term.reduce second).passes } := by
  induction first generalizing term with
  | zero => rw [Nat.zero_add, reduce_zero]; rfl
  | succ first ih =>
      rw [Nat.add_right_comm]
      by_cases unchanged : term.pass.render = term.render
      · rw [reduce_of_unchanged _ unchanged, reduce_of_unchanged _ unchanged]
      · rw [reduce_of_changed _ unchanged, reduce_of_changed _ unchanged, ih term.pass]
        cases (term.pass.reduce first).halt <;> rfl

theorem reduce_of_fixpoint {term : Term} (fixed : term.pass = term) (limit : Nat) :
    (term.reduce limit).term = term := by
  cases limit with
  | zero => rfl
  | succ limit =>
      rw [reduce_of_unchanged limit (by rw [fixed])]
      exact fixed

theorem reduce_of_normalize {patience : Nat} {limit : Option Nat} {term : Term} {reduction : Reduction}
    (ended : term.normalize patience limit = some reduction) :
    reduction = term.reduce (limit.getD patience) := by
  cases limit with
  | some limit =>
      cases ended
      rfl
  | none =>
      simp only [normalize, Option.ite_none_right_eq_some, Option.some.injEq] at ended
      exact ended.2.symm

theorem normalForm_of_normalize {patience : Nat} {term : Term} {reduction : Reduction}
    (ended : term.normalize patience none = some reduction) : reduction.halt = .normalForm := by
  simp only [normalize, Option.ite_none_right_eq_some, Option.some.injEq] at ended
  rw [← ended.2]
  exact ended.1

theorem normalize_of_fixpoint {term : Term} (fixed : term.pass = term) {patience : Nat} (positive : 0 < patience) :
    term.normalize patience none = some ⟨term, [term], .normalForm⟩ := by
  obtain ⟨more, rfl⟩ := Nat.exists_eq_add_of_lt positive
  simp only [normalize, Nat.zero_add]
  rw [reduce_of_unchanged more (by rw [fixed]), fixed]
  rfl

theorem names_iterate (term : Term) (count : Nat) :
    ∀ name ∈ (pass^[count] term).names, name ∈ term.names := by
  induction count with
  | zero => exact fun name member => member
  | succ count ih =>
      intro name member
      rw [Function.iterate_succ_apply'] at member
      exact ih name (names_pass _ name member)

theorem names_evaluate_or_bound (term : Term) (env : Environment) :
    ∀ name ∈ (term.evaluate env).names,
      name ∈ term.names ∨ ∃ bound value, env.lookup bound = some value ∧ name ∈ value.names := by
  apply names_evaluate
  · exact fun name member => .inl member
  · exact fun bound value found name member => .inr ⟨bound, value, found, member⟩

variable [Alphabet]

theorem iterate_well_named {term : Term} (named : term.WellNamed) (count : Nat) :
    (pass^[count] term).WellNamed :=
  fun name member => named name (names_iterate term count name member)

theorem reduce_well_named {term : Term} (named : term.WellNamed) (limit : Nat) :
    (term.reduce limit).term.WellNamed := by
  rw [reduce_term]
  exact iterate_well_named named _

theorem normalForm_fixed {limit : Nat} {term : Term} (named : term.WellNamed)
    (halt : (term.reduce limit).halt = .normalForm) :
    (term.reduce limit).term.pass = (term.reduce limit).term ∧
      (term.reduce limit).term = pass^[(term.reduce limit).steps - 1] term := by
  obtain ⟨before, steps, same⟩ := reduce_steps_of_normalForm halt
  -- Equal texts are equal terms as long as all names can be read.
  have equal : pass^[before + 1] term = pass^[before] term :=
    render_injective (iterate_well_named named _) (iterate_well_named named _) same
  have fixed : (pass^[before] term).pass = pass^[before] term := by
    rw [← Function.iterate_succ_apply' pass before term, equal]
  rw [reduce_term, steps, Nat.add_sub_cancel, equal]
  exact ⟨fixed, rfl⟩

theorem reduce_reduce {term : Term} (named : term.WellNamed) (first second : Nat) :
    ((term.reduce first).term.reduce second).term = (term.reduce (first + second)).term := by
  rw [reduce_add]
  cases halt : (term.reduce first).halt with
  | normalForm => exact reduce_of_fixpoint (normalForm_fixed named halt).1 second
  | stepLimit => rfl

end Term

theorem passes_make_up_no_names [Alphabet] :
    (∀ (term : Term) (env : Environment), ∀ name ∈ (term.evaluate env).names,
      name ∈ term.names ∨ ∃ bound value, env.lookup bound = some value ∧ name ∈ value.names) ∧
    (∀ (text : String) (term : Term), parse text = .ok term → ∀ count,
      (∀ name ∈ (Term.pass^[count] term).names, name ∈ term.names) ∧
      (Term.pass^[count] term).WellNamed ∧
      parse (Term.pass^[count] term).render = .ok (Term.pass^[count] term)) := by
  refine ⟨Term.names_evaluate_or_bound, ?_⟩
  intro text term read count
  have named : (Term.pass^[count] term).WellNamed := Term.iterate_well_named (parse_well_named read) count
  exact ⟨Term.names_iterate term count, named, parse_render _ named⟩

theorem normal_form_is_fixpoint [Alphabet] {text : String} {term : Term} (read : parse text = .ok term)
    {patience : Nat} {limit : Option Nat} {reduction : Reduction}
    (ended : term.normalize patience limit = some reduction) (halt : reduction.halt = .normalForm) :
    0 < reduction.steps ∧ reduction.term = Term.pass^[reduction.steps] term ∧
      reduction.term = Term.pass^[reduction.steps - 1] term ∧
      reduction.term.evaluate .empty = reduction.term ∧
      ∀ more, Term.pass^[more] reduction.term = reduction.term := by
  obtain rfl := Term.reduce_of_normalize ended
  obtain ⟨before, steps, -⟩ := Term.reduce_steps_of_normalForm halt
  obtain ⟨fixed, previous⟩ := Term.normalForm_fixed (parse_well_named read) halt
  have moved : 0 < (term.reduce (limit.getD patience)).steps := by omega
  exact ⟨moved, Term.reduce_term _ term, previous, fixed, Function.iterate_fixed fixed⟩

def twice : Term :=
  .app (.app (.abs "f" (.abs "x" (.app (.var "f") (.app (.var "f") (.var "x")))))
    (.abs "y" (.app (.var "z") (.var "y")))) (.var "a")

theorem twice_stops_at_fixpoint :
    parse "(\\f.\\x.f (f x)) (\\y.z y) a" = .ok twice ∧ twice.normalize 9 none = some (twice.reduce 9) ∧
      (twice.reduce 9).halt = .normalForm ∧
      (0 < (twice.reduce 9).steps ∧ (twice.reduce 9).term = Term.pass^[(twice.reduce 9).steps] twice ∧
        (twice.reduce 9).term = Term.pass^[(twice.reduce 9).steps - 1] twice ∧
        (twice.reduce 9).term.evaluate .empty = (twice.reduce 9).term ∧
        ∀ more, Term.pass^[more] (twice.reduce 9).term = (twice.reduce 9).term) := by
  have text : twice.render = "(\\f.\\x.f (f x)) (\\y.z y) a" := by decide
  have read := parse_render twice (by decide)
  have ended : twice.normalize 9 none = some (twice.reduce 9) := by decide
  rw [text] at read
  exact ⟨read, ended, by decide, normal_form_is_fixpoint read ended (by decide)⟩

-- Names that cannot be read may look like anything: here the text of an abstraction in
-- brackets, which a pass puts in the place of that abstraction itself.
example : let term := Term.app (.abs "x" (.app (.var "x") (.var "x"))) (.var "(\\x.x x)")
    (term.reduce 1).halt = .normalForm ∧ (term.reduce 1).term ≠ term := by decide

end LambdaCalculus
