import LambdaCalculus.Proofs.Dependence
import Mathlib.Data.Finmap

set_option autoImplicit false

namespace LambdaCalculus

abbrev Table := Finmap fun _ : String => Term

inductive Change where
  | bind (name : String) (term : Term)
  | without (name : String)
deriving DecidableEq, Repr

namespace Change

def name : Change → String
  | .bind name _ => name
  | .without name => name

def binding : Change → Option Term
  | .bind _ term => some term
  | .without _ => none

def apply (env : Environment) : Change → Environment
  | .bind name term => env.bind name term
  | .without name => env.without name

def enter (table : Table) : Change → Table
  | .bind name term => table.insert name term
  | .without name => table.erase name

theorem lookup_apply (env : Environment) (change : Change) (name : String) :
    (change.apply env).lookup name = if name = change.name then change.binding else env.lookup name := by
  cases change with
  | bind bound term => exact env.lookup_bind bound term name
  | without hidden => exact env.lookup_without hidden name

theorem lookup_enter (table : Table) (change : Change) (name : String) :
    (change.enter table).lookup name = if name = change.name then change.binding else table.lookup name := by
  by_cases same : name = change.name
  · subst same
    rw [if_pos rfl]
    cases change with
    | bind bound term => exact Finmap.lookup_insert table
    | without hidden => exact Finmap.lookup_erase hidden table
  · rw [if_neg same]
    cases change with
    | bind bound term => exact Finmap.lookup_insert_of_ne table same
    | without hidden => exact Finmap.lookup_erase_ne same

def last (changes : List Change) (name : String) : Option Term :=
  (changes.filter fun change => change.name = name).getLast?.bind binding

theorem last_concat (changes : List Change) (change : Change) (name : String) :
    last (changes ++ [change]) name = if name = change.name then change.binding else last changes name := by
  rw [last, List.filter_append, List.getLast?_append]
  by_cases same : name = change.name
  · simp [same]
  · simp [same, Ne.symm same, last]

theorem view_foldl {σ : Type} {advance : σ → Change → σ} {start : σ} (view : σ → String → Option Term)
    (nothing : ∀ name, view start name = none)
    (one : ∀ state change name,
      view (advance state change) name = if name = change.name then change.binding else view state name)
    (changes : List Change) (name : String) : view (changes.foldl advance start) name = last changes name := by
  induction changes using List.reverseRecOn with
  | nil => exact nothing name
  | append_singleton earlier change ih =>
      rw [List.foldl_append, List.foldl_cons, List.foldl_nil, one, ih, last_concat]

end Change

def Environment.derived (changes : List Change) : Environment :=
  changes.foldl Change.apply .empty

def Table.derived (changes : List Change) : Table :=
  changes.foldl Change.enter ∅

theorem Environment.lookup_derived (changes : List Change) (name : String) :
    (Environment.derived changes).lookup name = Change.last changes name :=
  Change.view_foldl Environment.lookup Environment.lookup_empty Change.lookup_apply changes name

theorem Table.lookup_derived (changes : List Change) (name : String) :
    (Table.derived changes).lookup name = Change.last changes name :=
  Change.view_foldl (fun (table : Table) other => table.lookup other) Finmap.lookup_empty Change.lookup_enter changes name

theorem Table.derived_eq_iff (one other : List Change) :
    Table.derived one = Table.derived other ↔
      ∀ name, (Environment.derived one).lookup name = (Environment.derived other).lookup name := by
  simp only [Environment.lookup_derived, ← Table.lookup_derived]
  constructor
  · intro same name
    rw [same]
  · exact Finmap.ext_lookup

theorem evaluate_derived {one other : List Change} (same : Table.derived one = Table.derived other) (term : Term) :
    term.evaluate (.derived one) = term.evaluate (.derived other) :=
  evaluate_of_agreeOn term _ _ fun name _ => (Table.derived_eq_iff one other).mp same name

section Branching

variable {σ τ : Type}

-- A change to something that was made before, to be told by the place it has among all that
-- was made. What was there stays, and may be changed again in another way.
structure Step where
  origin : Nat
  change : Change
deriving DecidableEq, Repr

def branch (advance : σ → Change → σ) (made : List σ) (step : Step) : List σ :=
  match made[step.origin]? with
  | some state => made ++ [advance state step.change]
  | none => made

def branches (advance : σ → Change → σ) (start : σ) (steps : List Step) : List σ :=
  steps.foldl (branch advance) [start]

theorem map_branch {advance : σ → Change → σ} {advanceToo : τ → Change → τ} {view : σ → τ}
    (same : ∀ state change, view (advance state change) = advanceToo (view state) change)
    (made : List σ) (step : Step) : (branch advance made step).map view = branch advanceToo (made.map view) step := by
  rw [branch, branch, List.getElem?_map]
  cases made[step.origin]? with
  | none => rfl
  | some state =>
      rw [Option.map_some, List.map_append, List.map_cons, List.map_nil, same]

theorem map_branches {advance : σ → Change → σ} {advanceToo : τ → Change → τ} {view : σ → τ}
    (same : ∀ state change, view (advance state change) = advanceToo (view state) change)
    (start : σ) (steps : List Step) :
    (branches advance start steps).map view = branches advanceToo (view start) steps :=
  (List.foldl_hom (List.map view) fun made step => (map_branch same made step).symm).symm

end Branching

-- However environments are made out of one another, each of them answers for a name as the last
-- change of that name on the way to it says, and so as a finite map would into which terms are
-- put and out of which they are taken. How its scopes came about does not show.
theorem environments_are_finite_maps :
    (∀ steps : List Step,
      let environments := branches Change.apply .empty steps
      let derivations := branches (fun changes change => changes ++ [change]) [] steps
      let tables := branches Change.enter ∅ steps
      environments = derivations.map Environment.derived ∧
      environments.map Environment.lookup = derivations.map Change.last ∧
      environments.map Environment.lookup = tables.map fun table name => table.lookup name) ∧
    ∀ one other : List Change, Table.derived one = Table.derived other ↔
      ∀ name, (Environment.derived one).lookup name = (Environment.derived other).lookup name := by
  refine ⟨?_, Table.derived_eq_iff⟩
  intro steps environments derivations tables
  have derived : derivations.map Environment.derived = environments :=
    map_branches (fun changes change => List.foldl_append) [] steps
  have tabulated : derivations.map Table.derived = tables :=
    map_branches (fun changes change => List.foldl_append) [] steps
  refine ⟨derived.symm, ?_, ?_⟩
  · rw [← derived, List.map_map]
    exact List.map_congr_left fun changes _ => funext (Environment.lookup_derived changes)
  · rw [← derived, ← tabulated, List.map_map, List.map_map]
    refine List.map_congr_left fun changes _ => funext fun name => ?_
    exact (Environment.lookup_derived changes name).trans (Table.lookup_derived changes name).symm

example : let hidden := Environment.derived [.bind "x" (.var "a"), .without "x", .without "x"]
    hidden ≠ .empty ∧ hidden.lookup "x" = none := by decide

end LambdaCalculus
