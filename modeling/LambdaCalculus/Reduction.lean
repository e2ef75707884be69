import LambdaCalculus.Evaluation
/-!
Passes of evaluation one after the other, until one of them changes nothing or a limit is met.
-/

set_option autoImplicit false

namespace LambdaCalculus

inductive Halt where
  | normalForm
  | stepLimit
deriving DecidableEq, Repr

structure Reduction where
  term : Term
  passes : List Term
  halt : Halt
deriving DecidableEq, Repr

def Reduction.steps (reduction : Reduction) : Nat :=
  reduction.passes.length

namespace Term

def reduceAfter (earlier : List Term) : Nat → Term → Reduction
  | 0, term => ⟨term, earlier.reverse, .stepLimit⟩
  | limit + 1, term =>
      let next := term.pass
      if next.render = term.render then ⟨next, (next :: earlier).reverse, .normalForm⟩
      else next.reduceAfter (next :: earlier) limit

def reduce (limit : Nat) (term : Term) : Reduction :=
  term.reduceAfter [] limit

-- Reduction with a limit, or without one. A reduction without a limit may go on forever: it is
-- given up after `patience` passes, and has ended if it stopped before.
def normalize (patience : Nat) (limit : Option Nat) (term : Term) : Option Reduction :=
  match limit with
  | some limit => some (term.reduce limit)
  | none =>
      let reduction := term.reduce patience
      if reduction.halt = .normalForm then some reduction else none

theorem reduceAfter_eq (earlier : List Term) (limit : Nat) (term : Term) :
    term.reduceAfter earlier limit =
      { term.reduce limit with passes := earlier.reverse ++ (term.reduce limit).passes } := by
  induction limit generalizing earlier term with
  | zero => simp [reduce, reduceAfter]
  | succ limit ih =>
      unfold reduce reduceAfter
      by_cases same : term.pass.render = term.render
      · simp only [if_pos same, List.reverse_cons, List.reverse_nil, List.nil_append]
      · simp only [if_neg same]
        rw [ih (term.pass :: earlier) term.pass, ih [term.pass] term.pass]
        simp only [List.reverse_cons, List.reverse_nil, List.nil_append, List.append_assoc]

theorem reduce_zero (term : Term) : term.reduce 0 = ⟨term, [], .stepLimit⟩ := rfl

theorem reduce_succ (limit : Nat) (term : Term) :
    term.reduce (limit + 1) =
      if term.pass.render = term.render then ⟨term.pass, [term.pass], .normalForm⟩
      else
        { term.pass.reduce limit with passes := term.pass :: (term.pass.reduce limit).passes } := by
  have first : term.reduce (limit + 1) =
      if term.pass.render = term.render then ⟨term.pass, [term.pass], .normalForm⟩
      else term.pass.reduceAfter [term.pass] limit := rfl
  rw [first, reduceAfter_eq]
  rfl

end Term

end LambdaCalculus
