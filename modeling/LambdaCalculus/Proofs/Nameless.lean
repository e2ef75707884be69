import LambdaCalculus.Proofs.Names

set_option autoImplicit false

namespace LambdaCalculus

inductive Nameless where
  | bound (index : Nat)
  | free (name : String)
  | abs (body : Nameless)
  | app (function argument : Nameless)
deriving DecidableEq, Repr

namespace Nameless

def lift (amount cutoff : Nat) : Nameless → Nameless
  | .bound index => .bound (if index < cutoff then index else index + amount)
  | .free name => .free name
  | .abs body => .abs (body.lift amount (cutoff + 1))
  | .app function argument => .app (function.lift amount cutoff) (argument.lift amount cutoff)

-- What becomes of a body that lies `depth` abstractions inside the one that is taken away.
-- Free variables of the argument go past the abstractions on the way, so that none of
-- these can capture them.
def substitute : Nameless → Nat → Nameless → Nameless
  | .bound index, depth, argument =>
      if index < depth then .bound index
      else if index = depth then argument.lift depth 0
      else .bound (index - 1)
  | .free name, _, _ => .free name
  | .abs body, depth, argument => .abs (body.substitute (depth + 1) argument)
  | .app function last, depth, argument =>
      .app (function.substitute depth argument) (last.substitute depth argument)

def contract : Nameless → Nameless
  | .bound index => .bound index
  | .free name => .free name
  | .abs body => .abs body.contract
  | .app (.abs body) argument => body.substitute 0 argument
  | .app function argument => .app function.contract argument.contract

end Nameless

def Term.nameless (scope : List String) : Term → Nameless
  | .var name => if name ∈ scope then .bound (scope.idxOf name) else .free name
  | .abs argument body => .abs (body.nameless (argument :: scope))
  | .app function argument => .app (function.nameless scope) (argument.nameless scope)

theorem nameless_var_inner {name : String} {inner : List String} (outer : List String) (member : name ∈ inner) :
    (Term.var name).nameless (inner ++ outer) = .bound (inner.idxOf name) := by
  rw [Term.nameless, if_pos (List.mem_append_left outer member), List.idxOf_append, if_pos member]

theorem nameless_var_outer {name : String} {inner : List String} (outer : List String) (absent : name ∉ inner) :
    (Term.var name).nameless (inner ++ outer) =
      if name ∈ outer then .bound (outer.idxOf name + inner.length) else .free name := by
  rw [Term.nameless, List.idxOf_append, if_neg absent]
  simp only [List.mem_append, absent, false_or]

theorem nameless_lift (term : Term) (inner new outer : List String)
    (fresh : ∀ name ∈ term.freeNames, name ∉ inner → name ∉ new) :
    (term.nameless (inner ++ outer)).lift new.length inner.length = term.nameless (inner ++ (new ++ outer)) := by
  induction term generalizing inner with
  | var name =>
      by_cases member : name ∈ inner
      · rw [nameless_var_inner outer member, nameless_var_inner _ member, Nameless.lift,
          if_pos (List.idxOf_lt_length_of_mem member)]
      · have absent := fresh name List.mem_cons_self member
        rw [nameless_var_outer outer member, nameless_var_outer _ member]
        by_cases known : name ∈ outer
        · rw [if_pos known, if_pos (List.mem_append_right new known), Nameless.lift, if_neg (by omega),
            List.idxOf_append, if_neg absent]
          congr 1
          omega
        · rw [if_neg known, if_neg (by simp [absent, known]), Nameless.lift]
  | abs argument body ih =>
      have freshBody : ∀ name ∈ body.freeNames, name ∉ argument :: inner → name ∉ new := by
        intro name member outside
        rw [List.mem_cons, not_or] at outside
        exact fresh name (List.mem_filter.mpr ⟨member, by simp [outside.1]⟩) outside.2
      exact congrArg Nameless.abs (ih (argument :: inner) freshBody)
  | app function argument functionIh argumentIh =>
      have functionLift := functionIh inner fun name member => fresh name (List.mem_append_left _ member)
      have argumentLift := argumentIh inner fun name member => fresh name (List.mem_append_right _ member)
      simp only [Term.nameless, Nameless.lift, functionLift, argumentLift]

end LambdaCalculus
