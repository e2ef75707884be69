import LambdaCalculus.Term
/-!
The terms that names stand for at some point of an evaluation.
-/

set_option autoImplicit false

namespace LambdaCalculus

-- Scopes, the innermost one first. A scope gives its name a term, or hides what the scopes
-- around it give that name.
structure Environment where
  scopes : List (String × Option Term)
deriving DecidableEq, Repr

namespace Environment

def empty : Environment :=
  ⟨[]⟩

def lookup (env : Environment) (name : String) : Option Term :=
  (env.scopes.lookup name).join

def bind (env : Environment) (name : String) (term : Term) : Environment :=
  ⟨(name, some term) :: env.scopes⟩

def without (env : Environment) (name : String) : Environment :=
  if (env.lookup name).isNone then env else ⟨(name, none) :: env.scopes⟩

theorem lookup_empty (name : String) : empty.lookup name = none := rfl

theorem lookup_cons (bound : String) (binding : Option Term) (scopes : List (String × Option Term))
    (name : String) :
    lookup ⟨(bound, binding) :: scopes⟩ name = if name = bound then binding else lookup ⟨scopes⟩ name := by
  by_cases same : name = bound
  · simp [lookup, same]
  · simp [lookup, List.lookup_cons, beq_eq_false_iff_ne.mpr same, same]

theorem lookup_bind (env : Environment) (bound : String) (term : Term) (name : String) :
    (env.bind bound term).lookup name = if name = bound then some term else env.lookup name :=
  lookup_cons bound (some term) env.scopes name

theorem lookup_without (env : Environment) (hidden : String) (name : String) :
    (env.without hidden).lookup name = if name = hidden then none else env.lookup name := by
  unfold without
  split
  next unbound =>
    split
    next same =>
      rw [same]
      exact Option.isNone_iff_eq_none.mp unbound
    next => rfl
  next => exact lookup_cons hidden none env.scopes name

end Environment

end LambdaCalculus
