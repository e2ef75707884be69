import LambdaCalculus.Proofs.Reduction
import Mathlib.Data.Set.Function
import Mathlib.Logic.Equiv.Basic

set_option autoImplicit false

namespace LambdaCalculus

def Term.rename (change : String → String) : Term → Term
  | .var name => .var (change name)
  | .abs argument body => .abs (change argument) (body.rename change)
  | .app function argument => .app (function.rename change) (argument.rename change)

def Reduction.rename (change : String → String) (reduction : Reduction) : Reduction :=
  ⟨reduction.term.rename change, reduction.passes.map (Term.rename change), reduction.halt⟩

variable {change : String → String}

namespace Environment

def Mentions (env : Environment) (name : String) : Prop :=
  env.lookup name ≠ none ∨ ∃ bound value, env.lookup bound = some value ∧ name ∈ value.names

-- The same bindings under changed names. A scope that only hides its name is left behind: the
-- name may be changed to that of a binding further out, which it must not hide.
def rename (change : String → String) (env : Environment) : Environment :=
  ⟨(env.scopes.filter fun scope => (env.lookup scope.1).isSome).map fun scope =>
    (change scope.1, scope.2.map (Term.rename change))⟩

def RenamedOn (env renamed : Environment) (change : String → String) (names : List String) : Prop :=
  ∀ name ∈ names, renamed.lookup (change name) = (env.lookup name).map (Term.rename change)

theorem lookup_map {scopes : List (String × Option Term)} {name : String}
    (distinct : ∀ scope ∈ scopes, change name = change scope.1 → name = scope.1) :
    lookup ⟨scopes.map fun scope => (change scope.1, scope.2.map (Term.rename change))⟩ (change name) =
      (lookup ⟨scopes⟩ name).map (Term.rename change) := by
  induction scopes with
  | nil => rfl
  | cons scope rest ih =>
      obtain ⟨bound, binding⟩ := scope
      have behind := ih fun scope member => distinct scope (List.mem_cons_of_mem _ member)
      rw [List.map_cons, lookup_cons, lookup_cons, behind]
      by_cases same : name = bound
      · rw [if_pos same, if_pos (congrArg change same)]
      · rw [if_neg same, if_neg fun equal => same (distinct (bound, binding) List.mem_cons_self equal)]

theorem lookup_filter (keeps : String → Bool) (scopes : List (String × Option Term)) (name : String) :
    lookup ⟨scopes.filter fun scope => keeps scope.1⟩ name = if keeps name then lookup ⟨scopes⟩ name else none := by
  induction scopes with
  | nil => exact (ite_self none).symm
  | cons scope rest ih =>
      obtain ⟨bound, binding⟩ := scope
      rw [List.filter_cons]
      by_cases same : name = bound
      · subst same
        cases kept : keeps name with
        | true => simp [lookup_cons]
        | false => simpa [kept] using ih
      · cases kept : keeps bound with
        | true => simpa [kept, lookup_cons, same] using ih
        | false => simpa [kept, lookup_cons, same] using ih

theorem lookup_rename {env : Environment} {name : String}
    (distinct : ∀ bound, env.lookup bound ≠ none → change name = change bound → name = bound) :
    (env.rename change).lookup (change name) = (env.lookup name).map (Term.rename change) := by
  rw [rename, lookup_map, lookup_filter fun bound => (env.lookup bound).isSome]
  · cases env.lookup name <;> rfl
  · intro scope member
    have visible := (List.mem_filter.mp member).2
    exact distinct scope.1 (Option.isSome_iff_ne_none.mp visible)

theorem renamedOn_inside {env renamed inner innerToo : Environment} {bound : String} {binding : Option Term}
    {names : List String} (alike : env.RenamedOn renamed change names)
    (distinct : ∀ name ∈ names, change name = change bound → name = bound)
    (first : ∀ name, inner.lookup name = if name = bound then binding else env.lookup name)
    (second : ∀ name, innerToo.lookup name =
      if name = change bound then binding.map (Term.rename change) else renamed.lookup name) :
    inner.RenamedOn innerToo change names := by
  intro name member
  rw [first, second]
  by_cases same : name = bound
  · rw [if_pos same, if_pos (congrArg change same)]
  · rw [if_neg same, if_neg fun equal => same (distinct name member equal)]
    exact alike name member

end Environment

namespace Term

theorem isAbs_rename (change : String → String) (term : Term) : (term.rename change).isAbs = term.isAbs := by
  cases term <;> rfl

theorem names_rename (change : String → String) (term : Term) : (term.rename change).names = term.names.map change := by
  induction term with
  | var name => rfl
  | abs argument body ih => exact congrArg (change argument :: ·) ih
  | app function argument functionIh argumentIh =>
      rw [rename, names, functionIh, argumentIh, names, List.map_append]

theorem rename_injective {first second : Term}
    (distinct : Set.InjOn change {name | name ∈ first.names ∨ name ∈ second.names})
    (same : first.rename change = second.rename change) : first = second := by
  induction first generalizing second with
  | var name =>
      cases second with
      | var other =>
          have equal := Term.var.inj same
          rw [distinct (.inl List.mem_cons_self) (.inr List.mem_cons_self) equal]
      | abs argument body => cases same
      | app function argument => cases same
  | abs argument body ih =>
      cases second with
      | var name => cases same
      | abs other inner =>
          obtain ⟨argumentSame, bodySame⟩ := Term.abs.inj same
          have inside : {name | name ∈ body.names ∨ name ∈ inner.names} ⊆ _ :=
            fun name => Or.imp (List.mem_cons_of_mem argument) (List.mem_cons_of_mem other)
          rw [distinct (.inl List.mem_cons_self) (.inr List.mem_cons_self) argumentSame,
            ih (distinct.mono inside) bodySame]
      | app function argument => cases same
  | app function argument functionIh argumentIh =>
      cases second with
      | var name => cases same
      | abs other inner => cases same
      | app other last =>
          obtain ⟨functionSame, argumentSame⟩ := Term.app.inj same
          have inFunction : {name | name ∈ function.names ∨ name ∈ other.names} ⊆ _ :=
            fun name => Or.imp (List.mem_append_left argument.names) (List.mem_append_left last.names)
          have inArgument : {name | name ∈ argument.names ∨ name ∈ last.names} ⊆ _ :=
            fun name => Or.imp (List.mem_append_right function.names) (List.mem_append_right other.names)
          rw [functionIh (distinct.mono inFunction) functionSame, argumentIh (distinct.mono inArgument) argumentSame]

theorem evaluate_rename (term : Term) {env renamed : Environment}
    (distinct : Set.InjOn change {name | name ∈ term.names}) (alike : env.RenamedOn renamed change term.names) :
    (term.rename change).evaluate renamed = (term.evaluate env).rename change := by
  induction term using pass_induction generalizing env renamed with
  | var name =>
      -- What is looked up is not evaluated again: its names need not stay apart.
      rw [rename, evaluate, evaluate, alike name List.mem_cons_self]
      cases env.lookup name <;> rfl
  | abs argument body ih =>
      have inside : {name | name ∈ body.names} ⊆ _ := fun name => List.mem_cons_of_mem argument
      have outside : env.RenamedOn renamed change body.names :=
        fun name member => alike name (List.mem_cons_of_mem argument member)
      refine congrArg (Term.abs (change argument)) (ih (distinct.mono inside) ?_)
      exact Environment.renamedOn_inside outside
        (fun name member => distinct (inside member) List.mem_cons_self)
        (env.lookup_without argument) (renamed.lookup_without (change argument))
  | redex parameter body argument ih =>
      have inside : {name | name ∈ body.names} ⊆ _ :=
        fun name member => List.mem_append_left argument.names (List.mem_cons_of_mem parameter member)
      refine ih (distinct.mono inside) ?_
      exact Environment.renamedOn_inside (fun name member => alike name (inside member))
        (fun name member => distinct (inside member) List.mem_cons_self)
        (env.lookup_bind parameter argument) (renamed.lookup_bind (change parameter) (argument.rename change))
  | app function argument stuck functionIh argumentIh =>
      have inFunction : {name | name ∈ function.names} ⊆ _ := fun name => List.mem_append_left argument.names
      have inArgument : {name | name ∈ argument.names} ⊆ _ := fun name => List.mem_append_right function.names
      rw [rename, evaluate_app _ renamed ((isAbs_rename change function).trans stuck), evaluate_app argument env stuck,
        functionIh (distinct.mono inFunction) fun name member => alike name (inFunction member),
        argumentIh (distinct.mono inArgument) fun name member => alike name (inArgument member)]
      rfl

theorem pass_rename {term : Term} (distinct : Set.InjOn change {name | name ∈ term.names}) :
    (term.rename change).pass = term.pass.rename change :=
  evaluate_rename term distinct fun _ _ => rfl

variable [Alphabet]

theorem wellNamed_rename {term : Term} (named : ∀ name ∈ term.names, IsName (change name)) :
    (term.rename change).WellNamed := by
  intro name member
  rw [names_rename] at member
  obtain ⟨old, among, rfl⟩ := List.mem_map.mp member
  exact named old among

theorem unchanged_rename {term : Term} (named : term.WellNamed) (distinct : Set.InjOn change {name | name ∈ term.names})
    (renamed : ∀ name ∈ term.names, IsName (change name)) :
    (term.rename change).pass.render = (term.rename change).render ↔ term.pass.render = term.render := by
  have inside : {name | name ∈ term.pass.names ∨ name ∈ term.names} ⊆ {name | name ∈ term.names} :=
    fun name => Or.rec (names_pass term name) id
  have passRenamed : (term.pass.rename change).WellNamed :=
    wellNamed_rename fun name member => renamed name (names_pass term name member)
  rw [pass_rename distinct]
  constructor
  · intro same
    have equal := render_injective passRenamed (wellNamed_rename renamed) same
    rw [rename_injective (distinct.mono inside) equal]
  · intro same
    have equal : term.pass = term := render_injective (iterate_well_named named 1) named same
    rw [equal]

theorem reduce_rename {term : Term} (named : term.WellNamed) (distinct : Set.InjOn change {name | name ∈ term.names})
    (renamed : ∀ name ∈ term.names, IsName (change name)) (limit : Nat) :
    (term.rename change).reduce limit = (term.reduce limit).rename change := by
  induction limit generalizing term with
  | zero => rfl
  | succ limit ih =>
      have alike := unchanged_rename named distinct renamed
      have inside : {name | name ∈ term.pass.names} ⊆ {name | name ∈ term.names} := names_pass term
      have passNamed : term.pass.WellNamed := iterate_well_named named 1
      by_cases unchanged : term.pass.render = term.render
      · rw [reduce_of_unchanged limit unchanged, reduce_of_unchanged limit (alike.mpr unchanged), pass_rename distinct]
        rfl
      · rw [reduce_of_changed limit unchanged, reduce_of_changed limit (mt alike.mp unchanged), pass_rename distinct,
          ih passNamed (distinct.mono inside) fun name member => renamed name (inside member)]
        rfl

end Term

theorem renaming_goes_through [Alphabet] (term : Term) (change : String → String) :
    (∀ env : Environment, Set.InjOn change {name | name ∈ term.names ∨ env.Mentions name} →
      (term.rename change).evaluate (env.rename change) = (term.evaluate env).rename change ∧
      ∀ renamed : Environment,
        (∀ name ∈ term.names, renamed.lookup (change name) = (env.lookup name).map (Term.rename change)) →
        (term.rename change).evaluate renamed = (term.evaluate env).rename change) ∧
    (term.WellNamed → Set.InjOn change {name | name ∈ term.names} → (∀ name ∈ term.names, IsName (change name)) →
      ∀ (patience : Nat) (limit : Option Nat),
        (term.rename change).normalize patience limit = (term.normalize patience limit).map (Reduction.rename change)) := by
  constructor
  · intro env distinct
    have own : Set.InjOn change {name | name ∈ term.names} := distinct.mono fun name => Or.inl
    have alike : env.RenamedOn (env.rename change) change term.names := fun name member =>
      Environment.lookup_rename fun bound found => distinct (.inl member) (.inr (.inl found))
    exact ⟨Term.evaluate_rename term own alike, fun renamed same => Term.evaluate_rename term own same⟩
  · intro named distinct renamed patience limit
    have alike := Term.reduce_rename named distinct renamed
    cases limit with
    | some limit => exact congrArg some (alike limit)
    | none =>
        simp only [Term.normalize, alike patience, Reduction.rename]
        split <;> rfl

def exchange : String → String :=
  Equiv.swap "x" "y"

def crossed : Environment :=
  ((Environment.empty.bind "x" (.var "a")).bind "y" (.abs "y" (.var "x"))).without "x"

theorem exchanged_numeral_reduces_alike :
    (Term.rename exchange (.app (.var "x") (.var "y"))).evaluate (crossed.rename exchange) =
        .app (.var "y") (.abs "x" (.var "y")) ∧
      (twice.rename exchange).normalize 9 none = (twice.normalize 9 none).map (Reduction.rename exchange) := by
  have injective : Function.Injective exchange := (Equiv.swap "x" "y").injective
  have evaluated := ((renaming_goes_through (.app (.var "x") (.var "y")) exchange).1 crossed injective.injOn).1
  have reduced := (renaming_goes_through twice exchange).2 (by decide) injective.injOn (by decide) 9 none
  refine ⟨evaluated.trans ?_, reduced⟩
  decide

end LambdaCalculus
