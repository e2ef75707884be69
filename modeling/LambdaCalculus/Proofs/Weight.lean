import LambdaCalculus.Proofs.Escape
import Mathlib.Algebra.Order.BigOperators.Group.List
import Mathlib.Algebra.Order.Group.Nat
import Mathlib.Algebra.Ring.Nat

set_option autoImplicit false

namespace LambdaCalculus

namespace Term

def size : Term → Nat
  | .var _ => 1
  | .abs _ body => body.size + 1
  | .app function argument => function.size + argument.size + 1

theorem size_pos (term : Term) : 0 < term.size := by
  cases term <;> exact Nat.succ_pos _

def occurrences : Term → List String
  | .var name => [name]
  | .abs _ body => body.occurrences
  | .app function argument => function.occurrences ++ argument.occurrences

def AtMostOnce : Term → Prop
  | .var _ => True
  | .abs argument body => body.occurrences.count argument ≤ 1 ∧ body.AtMostOnce
  | .app function argument => function.AtMostOnce ∧ argument.AtMostOnce

instance decidableAtMostOnce : (term : Term) → Decidable term.AtMostOnce
  | .var _ => isTrue trivial
  | .abs _ body =>
      have := decidableAtMostOnce body
      inferInstanceAs (Decidable (_ ∧ _))
  | .app function argument =>
      have := decidableAtMostOnce function
      have := decidableAtMostOnce argument
      inferInstanceAs (Decidable (_ ∧ _))

theorem freeNames_sublist (term : Term) : term.freeNames.Sublist term.occurrences := by
  induction term with
  | var name => exact List.Sublist.refl _
  | abs argument body ih => exact List.filter_sublist.trans ih
  | app function argument functionIh argumentIh => exact functionIh.append argumentIh

end Term

structure Weight where
  var : String → Nat
  abs : String → Nat
  app : Nat

namespace Weight

def nodes : Weight :=
  ⟨fun _ => 1, fun _ => 1, 1⟩

def occurrences (name : String) : Weight :=
  ⟨fun other => if other = name then 1 else 0, fun _ => 0, 0⟩

def arguments (name : String) : Weight :=
  ⟨fun _ => 0, fun other => if other = name then 1 else 0, 0⟩

def spent (weight : Weight) (redex : Redex) : Nat :=
  weight.app + weight.abs redex.parameter

end Weight

variable (weight : Weight)

namespace Term

def weigh : Term → Nat
  | .var name => weight.var name
  | .abs argument body => weight.abs argument + body.weigh
  | .app function argument => weight.app + function.weigh + argument.weigh

def weighUnder : Term → (String → Nat) → Nat
  | .var name, load => load name
  | .abs argument body, load =>
      weight.abs argument + body.weighUnder (Function.update load argument (weight.var argument))
  | .app function argument, load => weight.app + function.weighUnder load + argument.weighUnder load

theorem weigh_nodes (term : Term) : term.weigh .nodes = term.size := by
  induction term with
  | var name => rfl
  | abs argument body ih =>
      rw [weigh, size, ih]
      exact Nat.add_comm 1 body.size
  | app function argument functionIh argumentIh =>
      rw [weigh, size, functionIh, argumentIh, Nat.add_assoc]
      exact Nat.add_comm 1 _

theorem weigh_occurrences (name : String) (term : Term) :
    term.weigh (.occurrences name) = term.occurrences.count name := by
  induction term with
  | var other => by_cases same : other = name <;> simp [weigh, Weight.occurrences, Term.occurrences, same]
  | abs argument body ih => exact (Nat.zero_add _).trans ih
  | app function argument functionIh argumentIh =>
      rw [weigh, occurrences, List.count_append, functionIh, argumentIh]
      exact congrArg (· + _) (Nat.zero_add _)

theorem weigh_arguments (name : String) (term : Term) :
    term.weigh (.arguments name) = term.boundNames.count name := by
  induction term with
  | var other => rfl
  | abs argument body ih =>
      rw [weigh, boundNames, List.count_cons, ih, Nat.add_comm]
      by_cases same : argument = name <;> simp [Weight.arguments, same]
  | app function argument functionIh argumentIh =>
      rw [weigh, boundNames, List.count_append, functionIh, argumentIh]
      exact congrArg (· + _) (Nat.zero_add _)

theorem weighUnder_own (term : Term) : term.weighUnder weight weight.var = term.weigh weight := by
  induction term with
  | var name => rfl
  | abs argument body ih => rw [weighUnder, weigh, Function.update_eq_self, ih]
  | app function argument functionIh argumentIh => rw [weighUnder, weigh, functionIh, argumentIh]

theorem weigh_le_weighUnder (term : Term) {load : String → Nat} (above : ∀ name, weight.var name ≤ load name) :
    term.weigh weight ≤ term.weighUnder weight load := by
  induction term generalizing load with
  | var name => exact above name
  | abs argument body ih =>
      refine Nat.add_le_add_left (ih fun name => ?_) _
      by_cases same : name = argument
      · subst same
        rw [Function.update_self]
      · rw [Function.update_of_ne same]
        exact above name
  | app function argument functionIh argumentIh =>
      exact Nat.add_le_add (Nat.add_le_add_left (functionIh above) _) (argumentIh above)

theorem weighUnder_update_le (term : Term) (load : String → Nat) (name : String) {own more value : Nat}
    (bounded : value ≤ own + more) :
    term.weighUnder weight (Function.update load name value) ≤
      term.weighUnder weight (Function.update load name own) + term.freeNames.count name * more := by
  induction term generalizing load with
  | var other =>
      by_cases same : other = name
      · subst same
        simpa [weighUnder, freeNames] using bounded
      · simp [weighUnder, Function.update_of_ne same]
  | abs argument body ih =>
      by_cases same : name = argument
      · subst same
        simp [weighUnder]
      · have count : (Term.abs argument body).freeNames.count name = body.freeNames.count name :=
          List.count_filter (bne_iff_ne.mpr same)
        rw [weighUnder, weighUnder, Function.update_comm same, Function.update_comm same, count, Nat.add_assoc]
        exact Nat.add_le_add_left (ih _) _
  | app function argument functionIh argumentIh =>
      have functionBound := functionIh load
      have argumentBound := argumentIh load
      rw [weighUnder, weighUnder, freeNames, List.count_append, Nat.add_mul]
      omega

end Term

def Environment.load (env : Environment) : String → Nat :=
  fun name => max (weight.var name) ((env.lookup name).elim 0 (Term.weigh weight))

theorem load_empty : Environment.empty.load weight = weight.var :=
  funext fun _ => Nat.max_zero _

theorem var_le_load (env : Environment) (name : String) : weight.var name ≤ env.load weight name :=
  Nat.le_max_left _ _

theorem load_inside {env inner : Environment} {bound : String} {binding : Option Term}
    (inside : ∀ name, inner.lookup name = if name = bound then binding else env.lookup name) :
    inner.load weight =
      Function.update (env.load weight) bound (max (weight.var bound) (binding.elim 0 (Term.weigh weight))) := by
  funext name
  rw [Environment.load, inside]
  by_cases same : name = bound
  · subst same
    rw [if_pos rfl, Function.update_self]
  · rw [if_neg same, Function.update_of_ne same, Environment.load]

theorem load_bind (env : Environment) (parameter : String) (argument : Term) :
    (env.bind parameter argument).load weight =
      Function.update (env.load weight) parameter (max (weight.var parameter) (argument.weigh weight)) :=
  load_inside weight (env.lookup_bind parameter argument)

theorem load_without (env : Environment) (hidden : String) :
    (env.without hidden).load weight = Function.update (env.load weight) hidden (weight.var hidden) := by
  have inside := load_inside weight (env.lookup_without hidden)
  rwa [Option.elim_none, Nat.max_zero] at inside

theorem weigh_evaluate (term : Term) (env : Environment) (once : term.AtMostOnce) :
    (term.evaluate env).weigh weight + (term.contracted.map weight.spent).sum ≤
      term.weighUnder weight (env.load weight) := by
  induction term using Term.pass_induction generalizing env with
  | var name =>
      rw [Term.evaluate, Term.weighUnder, Environment.load]
      cases env.lookup name with
      | none => exact Nat.le_max_left _ _
      | some value => exact Nat.le_max_right _ _
  | abs argument body ih =>
      have bodyBound := ih (env.without argument) once.2
      rw [load_without] at bodyBound
      rw [Term.evaluate, Term.weigh, Term.weighUnder, Term.contracted, Nat.add_assoc]
      exact Nat.add_le_add_left bodyBound _
  | redex parameter body argument ih =>
      obtain ⟨⟨single, bodyOnce⟩, -⟩ := once
      have bodyBound := ih (env.bind parameter argument) bodyOnce
      rw [load_bind] at bodyBound
      -- The argument leaves its place and is put in at most once, so that its weight pays for that.
      have used : body.freeNames.count parameter ≤ 1 := (body.freeNames_sublist.count_le parameter).trans single
      have either : max (weight.var parameter) (argument.weigh weight) ≤
        weight.var parameter + argument.weigh weight := by omega
      have put := body.weighUnder_update_le weight (env.load weight) parameter either
      have taken := Nat.mul_le_mul_right (argument.weigh weight) used
      have kept := argument.weigh_le_weighUnder weight (var_le_load weight env)
      simp only [Term.evaluate, Term.contracted, List.map_cons, List.sum_cons, Weight.spent, Term.weighUnder]
      omega
  | app function argument stuck functionIh argumentIh =>
      have functionBound := functionIh env once.1
      have argumentBound := argumentIh env once.2
      rw [evaluate_app argument env stuck, contracted_app argument stuck, Term.weigh, Term.weighUnder,
        List.map_append, List.sum_append]
      omega

theorem weigh_pass {term : Term} (once : term.AtMostOnce) :
    term.pass.weigh weight + (term.contracted.map weight.spent).sum ≤ term.weigh weight := by
  have bound := weigh_evaluate weight term .empty once
  rwa [load_empty, Term.weighUnder_own] at bound

theorem weigh_pass_le {term : Term} (once : term.AtMostOnce) : term.pass.weigh weight ≤ term.weigh weight :=
  (Nat.le_add_right _ _).trans (weigh_pass weight once)

theorem weigh_pass_of_contracted {term : Term} (once : term.AtMostOnce) {redex : Redex}
    (member : redex ∈ term.contracted) : term.pass.weigh weight + weight.spent redex ≤ term.weigh weight := by
  have spent : weight.spent redex ≤ (term.contracted.map weight.spent).sum :=
    List.le_sum_of_mem (List.mem_map_of_mem member)
  exact (Nat.add_le_add_left spent _).trans (weigh_pass weight once)

end LambdaCalculus
