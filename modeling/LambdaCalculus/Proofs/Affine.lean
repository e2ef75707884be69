import LambdaCalculus.Proofs.Reduction
import LambdaCalculus.Proofs.Weight
import Mathlib.Data.List.Nodup

set_option autoImplicit false

namespace LambdaCalculus

namespace Term

structure Affine (term : Term) : Prop where
  distinct : term.boundNames.Nodup
  apart : ∀ name ∈ term.boundNames, name ∉ term.freeNames
  once : term.AtMostOnce

instance (term : Term) : Decidable term.Affine :=
  decidable_of_iff (term.boundNames.Nodup ∧ (∀ name ∈ term.boundNames, name ∉ term.freeNames) ∧ term.AtMostOnce)
    ⟨fun ⟨distinct, apart, once⟩ => ⟨distinct, apart, once⟩, fun affine => ⟨affine.distinct, affine.apart, affine.once⟩⟩

theorem free_or_bound_of_occurrence {term : Term} {name : String} (member : name ∈ term.occurrences) :
    name ∈ term.freeNames ∨ name ∈ term.boundNames := by
  induction term with
  | var other => exact .inl member
  | abs argument body ih =>
      by_cases same : name = argument
      · exact .inr (same ▸ List.mem_cons_self)
      · exact (ih member).imp (fun free => mem_freeNames_abs.mpr ⟨free, same⟩) (List.mem_cons_of_mem argument)
  | app function argument functionIh argumentIh =>
      rcases List.mem_append.mp member with member | member
      · exact (functionIh member).imp (List.mem_append_left _) (List.mem_append_left _)
      · exact (argumentIh member).imp (List.mem_append_right _) (List.mem_append_right _)

theorem Affine.body {parameter : String} {body : Term} (affine : (Term.abs parameter body).Affine) : body.Affine where
  distinct := (List.nodup_cons.mp affine.distinct).2
  apart name bound free := by
    have different : name ≠ parameter := ne_of_mem_of_not_mem bound (List.nodup_cons.mp affine.distinct).1
    exact affine.apart name (List.mem_cons_of_mem _ bound) (mem_freeNames_abs.mpr ⟨free, different⟩)
  once := affine.once.2

theorem Affine.function {function argument : Term} (affine : (Term.app function argument).Affine) : function.Affine where
  distinct := (List.nodup_append.mp affine.distinct).1
  apart name bound free := affine.apart name (List.mem_append_left _ bound) (List.mem_append_left _ free)
  once := affine.once.1

theorem Affine.argument {function argument : Term} (affine : (Term.app function argument).Affine) : argument.Affine where
  distinct := (List.nodup_append.mp affine.distinct).2.1
  apart name bound free := affine.apart name (List.mem_append_right _ bound) (List.mem_append_right _ free)
  once := affine.once.2

theorem Affine.absent_in_argument {function argument : Term} {name : String}
    (affine : (Term.app function argument).Affine) (bound : name ∈ function.boundNames) : name ∉ argument.occurrences := by
  intro member
  rcases free_or_bound_of_occurrence member with free | boundToo
  · exact affine.apart name (List.mem_append_left _ bound) (List.mem_append_right _ free)
  · exact (List.nodup_append.mp affine.distinct).2.2 name bound name boundToo rfl

theorem Affine.absent_in_function {function argument : Term} {name : String}
    (affine : (Term.app function argument).Affine) (bound : name ∈ argument.boundNames) : name ∉ function.occurrences := by
  intro member
  rcases free_or_bound_of_occurrence member with free | boundToo
  · exact affine.apart name (List.mem_append_right _ bound) (List.mem_append_left _ free)
  · exact (List.nodup_append.mp affine.distinct).2.2 name boundToo name bound rfl

theorem Affine.occurs_once {term : Term} {name : String} (affine : term.Affine) (bound : name ∈ term.boundNames) :
    term.occurrences.count name ≤ 1 := by
  induction term with
  | var other => cases bound
  | abs argument body ih =>
      rcases List.mem_cons.mp bound with rfl | inner
      · exact affine.once.1
      · exact ih affine.body inner
  | app function argument functionIh argumentIh =>
      rw [occurrences, List.count_append]
      rcases List.mem_append.mp bound with bound | bound
      · rw [List.count_eq_zero.mpr (affine.absent_in_argument bound)]
        exact functionIh affine.function bound
      · rw [List.count_eq_zero.mpr (affine.absent_in_function bound), Nat.zero_add]
        exact argumentIh affine.argument bound

theorem atMostOnce_of_occurs_once {term : Term}
    (once : ∀ name ∈ term.boundNames, term.occurrences.count name ≤ 1) : term.AtMostOnce := by
  induction term with
  | var name => trivial
  | abs argument body ih =>
      exact ⟨once argument List.mem_cons_self, ih fun name bound => once name (List.mem_cons_of_mem _ bound)⟩
  | app function argument functionIh argumentIh =>
      constructor
      · refine functionIh fun name bound => ?_
        exact (List.Sublist.count_le name (List.sublist_append_left _ _)).trans (once name (List.mem_append_left _ bound))
      · refine argumentIh fun name bound => ?_
        exact (List.Sublist.count_le name (List.sublist_append_right _ _)).trans
          (once name (List.mem_append_right _ bound))

theorem count_boundNames_pass {term : Term} (once : term.AtMostOnce) (name : String) :
    term.pass.boundNames.count name ≤ term.boundNames.count name := by
  have bound := weigh_pass_le (.arguments name) once
  rwa [weigh_arguments, weigh_arguments] at bound

theorem boundNames_pass {term : Term} {name : String} (once : term.AtMostOnce) (bound : name ∈ term.pass.boundNames) :
    name ∈ term.boundNames :=
  List.count_pos_iff.mp (Nat.lt_of_lt_of_le (List.count_pos_iff.mpr bound) (count_boundNames_pass once name))

theorem Affine.parameter_gone {term : Term} (affine : term.Affine) {redex : Redex} (member : redex ∈ term.contracted) :
    redex.parameter ∉ term.pass.boundNames := by
  intro bound
  have remains := List.count_pos_iff.mpr bound
  have spent := weigh_pass_of_contracted (.arguments redex.parameter) affine.once member
  have own : (Weight.arguments redex.parameter).spent redex = 1 := by simp [Weight.spent, Weight.arguments]
  have single := List.nodup_iff_count_le_one.mp affine.distinct redex.parameter
  rw [weigh_arguments, weigh_arguments, own] at spent
  omega

theorem Affine.pass {term : Term} (affine : term.Affine) : term.pass.Affine where
  distinct := List.nodup_iff_count_le_one.mpr fun name =>
    (count_boundNames_pass affine.once name).trans (List.nodup_iff_count_le_one.mp affine.distinct name)
  apart name bound free := by
    rcases freeNames_pass term name free with free | ⟨redex, member, rfl, -⟩
    · exact affine.apart name (boundNames_pass affine.once bound) free
    · exact affine.parameter_gone member bound
  once := by
    refine atMostOnce_of_occurs_once fun name bound => ?_
    have kept := weigh_pass_le (.occurrences name) affine.once
    rw [weigh_occurrences, weigh_occurrences] at kept
    exact kept.trans (affine.occurs_once (boundNames_pass affine.once bound))

theorem contracted_of_hasRedex {term : Term} (redex : term.hasRedex = true) : ∃ redex, redex ∈ term.contracted := by
  induction term using pass_induction with
  | var name => cases redex
  | abs argument body ih => exact ih redex
  | redex parameter body argument ih => exact ⟨_, List.mem_cons_self⟩
  | app function argument stuck functionIh argumentIh =>
      rw [hasRedex, stuck, Bool.false_or, Bool.or_eq_true] at redex
      rw [contracted_app argument stuck]
      rcases redex with redex | redex
      · exact (functionIh redex).imp fun _ => List.mem_append_left _
      · exact (argumentIh redex).imp fun _ => List.mem_append_right _

theorem pass_of_no_redex {term : Term} (none : term.hasRedex = false) : term.pass = term := by
  induction term using pass_induction with
  | var name => rfl
  | abs argument body ih => exact congrArg (Term.abs argument) (ih none)
  | redex parameter body argument ih => cases none
  | app function argument stuck functionIh argumentIh =>
      simp only [hasRedex, Bool.or_eq_false_iff] at none
      exact (evaluate_app argument .empty stuck).trans (congrArg₂ Term.app (functionIh none.1.2) (argumentIh none.2))

theorem size_pass_lt {term : Term} (once : term.AtMostOnce) (redex : term.hasRedex = true) :
    term.pass.size < term.size := by
  obtain ⟨first, member⟩ := contracted_of_hasRedex redex
  have spent := weigh_pass_of_contracted .nodes once member
  rw [weigh_nodes, weigh_nodes] at spent
  exact Nat.lt_of_lt_of_le (Nat.lt_add_of_pos_right (Nat.succ_pos 1)) spent

theorem Affine.reduce [Alphabet] {term : Term} (affine : term.Affine) (named : term.WellNamed) {limit : Nat}
    (enough : term.size ≤ limit) :
    (term.reduce limit).halt = .normalForm ∧ (term.reduce limit).steps ≤ term.size ∧
      (term.reduce limit).term.hasRedex = false := by
  induction limit generalizing term with
  | zero => exact absurd enough (Nat.not_le_of_lt term.size_pos)
  | succ limit ih =>
      by_cases unchanged : term.pass.render = term.render
      · have fixed : term.pass = term := render_injective (iterate_well_named named 1) named unchanged
        have none : term.hasRedex = false := by
          refine Bool.eq_false_iff.mpr fun redex => ?_
          have smaller := size_pass_lt affine.once redex
          rw [fixed] at smaller
          exact Nat.lt_irrefl _ smaller
        rw [reduce_of_unchanged limit unchanged]
        exact ⟨rfl, term.size_pos, fixed.symm ▸ none⟩
      · have redex : term.hasRedex = true := by
          refine Bool.of_not_eq_false fun none => unchanged ?_
          rw [pass_of_no_redex none]
        have smaller := size_pass_lt affine.once redex
        obtain ⟨halt, steps, normal⟩ := ih affine.pass (iterate_well_named named 1) (by omega)
        rw [reduce_of_changed limit unchanged]
        refine ⟨halt, ?_, normal⟩
        exact (Nat.succ_le_succ steps).trans smaller

end Term

theorem affine_terms_reach_normal_form [Alphabet] {term : Term} (named : term.WellNamed) (affine : term.Affine)
    {limit : Option Nat} (enough : ∀ most ∈ limit, term.size ≤ most) {patience : Nat}
    (patient : term.size ≤ patience) :
    ∃ reduction, term.normalize patience limit = some reduction ∧ reduction.halt = .normalForm ∧
      reduction.steps ≤ term.size ∧ reduction.term.hasRedex = false := by
  cases limit with
  | some most => exact ⟨_, rfl, affine.reduce named (enough most rfl)⟩
  | none =>
      obtain ⟨halt, reached⟩ := affine.reduce named patient
      refine ⟨term.reduce patience, ?_, halt, reached⟩
      simp only [Term.normalize, if_pos halt]

def sparing : Term :=
  .app (.app (.abs "x" (.app (.abs "y" (.abs "z" (.app (.var "z") (.var "y")))) (.var "x")))
    (.app (.abs "v" (.var "a")) (.var "a"))) (.abs "w" (.var "w"))

theorem sparing_reaches_normal_form :
    sparing.WellNamed ∧ sparing.Affine ∧ (∀ most ∈ (none : Option Nat), sparing.size ≤ most) ∧
      sparing.size ≤ 16 ∧ sparing.pass = .app (.abs "z" (.app (.var "z") (.var "x"))) (.abs "w" (.var "w")) ∧
      ∃ reduction, sparing.normalize 16 none = some reduction ∧ reduction.halt = .normalForm ∧
        reduction.steps ≤ sparing.size ∧ reduction.term.hasRedex = false := by
  have named : sparing.WellNamed := by decide
  have affine : sparing.Affine := by decide
  have enough : ∀ most ∈ (none : Option Nat), sparing.size ≤ most := fun _ absent => by cases absent
  have patient : sparing.size ≤ 16 := by decide
  exact ⟨named, affine, enough, patient, by decide, affine_terms_reach_normal_form named affine enough patient⟩

end LambdaCalculus
