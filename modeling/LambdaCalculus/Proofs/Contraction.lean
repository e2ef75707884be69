import LambdaCalculus.Proofs.Evaluation
import LambdaCalculus.Proofs.Nameless

set_option autoImplicit false

namespace LambdaCalculus

structure Redex where
  parameter : String
  body : Term
  argument : Term
deriving DecidableEq, Repr

namespace Term

def hasRedex : Term → Bool
  | .var _ => false
  | .abs _ body => body.hasRedex
  | .app function argument => function.isAbs || function.hasRedex || argument.hasRedex

def outermostRedexes : Term → List Redex
  | .var _ => []
  | .abs _ body => body.outermostRedexes
  | .app (.abs parameter body) argument => [⟨parameter, body, argument⟩]
  | .app function argument => function.outermostRedexes ++ argument.outermostRedexes

end Term

-- A redex that a pass contracts as it should without renaming anything: contraction stops
-- at the body, and no abstraction there takes hold of a free name of the argument.
def Redex.Plain (redex : Redex) : Prop :=
  redex.body.hasRedex = false ∧ ∀ name ∈ redex.argument.freeNames, name ∉ redex.body.boundNames

instance (redex : Redex) : Decidable redex.Plain :=
  inferInstanceAs (Decidable (_ ∧ _))

theorem outermostRedexes_app {function : Term} (argument : Term) (other : function.isAbs = false) :
    (Term.app function argument).outermostRedexes = function.outermostRedexes ++ argument.outermostRedexes := by
  cases function with
  | var name => rfl
  | abs parameter body => cases other
  | app inner last => rfl

theorem contract_app {function : Term} (argument : Nameless) (scope : List String) (other : function.isAbs = false) :
    (Nameless.app (function.nameless scope) argument).contract =
      .app (function.nameless scope).contract argument.contract := by
  cases function with
  | var name =>
      by_cases member : name ∈ scope <;> simp only [Term.nameless, member, if_true, if_false, Nameless.contract]
  | abs parameter body => cases other
  | app inner last => rfl

-- Inside the body of a contracted redex, under abstractions over the names of `inner`, the
-- parameter stands for the argument unless one of these abstractions has hidden it.
def Binds (env : Environment) (parameter : String) (argument : Term) (inner : List String) : Prop :=
  ∀ name, env.lookup name = if name = parameter ∧ name ∉ inner then some argument else none

theorem binds_empty (parameter : String) (argument : Term) :
    Binds (Environment.empty.bind parameter argument) parameter argument [] := by
  intro name
  by_cases same : name = parameter <;> simp [Environment.lookup_bind, Environment.lookup_empty, same]

theorem binds_without {env : Environment} {parameter : String} {argument : Term} {inner : List String}
    (binds : Binds env parameter argument inner) (hidden : String) :
    Binds (env.without hidden) parameter argument (hidden :: inner) := by
  intro name
  rw [Environment.lookup_without, binds name]
  by_cases same : name = hidden <;> simp [same]

theorem nameless_body (body : Term) (env : Environment) (parameter : String) (argument : Term)
    (inner outer : List String) (binds : Binds env parameter argument inner)
    (single : body.hasRedex = false)
    (apart : ∀ name ∈ argument.freeNames, name ∉ inner ∧ name ∉ body.boundNames) :
    (body.evaluate env).nameless (inner ++ outer) =
      (body.nameless (inner ++ parameter :: outer)).substitute inner.length (argument.nameless outer) := by
  induction body generalizing env inner with
  | var name =>
      rw [Term.evaluate, binds name]
      by_cases member : name ∈ inner
      · have below := List.idxOf_lt_length_of_mem member
        rw [if_neg (by simp [member]), nameless_var_inner _ member, Nameless.substitute, if_pos below]
        exact nameless_var_inner outer member
      · rw [nameless_var_outer _ member]
        by_cases same : name = parameter
        · have lifted := nameless_lift argument [] inner outer fun free among _ => (apart free among).1
          subst same
          rw [if_pos ⟨rfl, member⟩, if_pos List.mem_cons_self, List.idxOf_cons_self, Nameless.substitute,
            if_neg (by omega), if_pos (by omega)]
          exact lifted.symm
        · have behind : (parameter :: outer).idxOf name = outer.idxOf name + 1 := by
            rw [List.idxOf_cons, beq_eq_false_iff_ne.mpr (Ne.symm same), cond_false]
          rw [if_neg (by simp [same]), Option.getD_none, nameless_var_outer outer member, behind]
          by_cases known : name ∈ outer
          · rw [if_pos known, if_pos (List.mem_cons_of_mem parameter known), Nameless.substitute,
              if_neg (by omega), if_neg (by omega)]
            congr 1
            omega
          · rw [if_neg known, if_neg (by simp [same, known]), Nameless.substitute]
  | abs hidden body ih =>
      have bodyApart : ∀ name ∈ argument.freeNames, name ∉ hidden :: inner ∧ name ∉ body.boundNames := by
        intro name member
        obtain ⟨outside, free⟩ := apart name member
        rw [Term.boundNames, List.mem_cons, not_or] at free
        exact ⟨List.not_mem_cons_of_ne_of_not_mem free.1 outside, free.2⟩
      exact congrArg Nameless.abs (ih _ _ (binds_without binds hidden) single bodyApart)
  | app function last functionIh lastIh =>
      simp only [Term.hasRedex, Bool.or_eq_false_iff] at single
      have functionApart : ∀ name ∈ argument.freeNames, name ∉ inner ∧ name ∉ function.boundNames :=
        fun name member => ⟨(apart name member).1, fun bound => (apart name member).2 (List.mem_append_left _ bound)⟩
      have lastApart : ∀ name ∈ argument.freeNames, name ∉ inner ∧ name ∉ last.boundNames :=
        fun name member => ⟨(apart name member).1, fun bound => (apart name member).2 (List.mem_append_right _ bound)⟩
      rw [evaluate_app last env single.1.1]
      simp only [Term.nameless, Nameless.substitute, functionIh env inner binds single.1.2 functionApart,
        lastIh env inner binds single.2 lastApart]

theorem without_empty (name : String) : Environment.empty.without name = Environment.empty := rfl

theorem nameless_evaluate (term : Term) (scope : List String)
    (plain : ∀ redex ∈ term.outermostRedexes, redex.Plain) :
    (term.evaluate .empty).nameless scope = (term.nameless scope).contract := by
  induction term using Term.pass_induction generalizing scope with
  | var name =>
      rw [Term.evaluate, Environment.lookup_empty, Option.getD_none]
      by_cases member : name ∈ scope <;> simp only [Term.nameless, member, if_true, if_false, Nameless.contract]
  | abs argument body ih =>
      rw [Term.evaluate, without_empty]
      exact congrArg Nameless.abs (ih (argument :: scope) plain)
  | redex parameter body argument ih =>
      obtain ⟨single, apart⟩ := plain ⟨parameter, body, argument⟩ List.mem_cons_self
      exact nameless_body body _ parameter argument [] scope (binds_empty parameter argument) single
        fun name member => ⟨List.not_mem_nil, apart name member⟩
  | app function argument stuck functionIh argumentIh =>
      rw [outermostRedexes_app argument stuck] at plain
      have functionSame := functionIh scope fun redex member => plain redex (List.mem_append_left _ member)
      have argumentSame := argumentIh scope fun redex member => plain redex (List.mem_append_right _ member)
      rw [evaluate_app argument _ stuck, Term.nameless, functionSame, argumentSame]
      exact (contract_app _ scope stuck).symm

theorem pass_contracts_outermost_redexes (term : Term)
    (plain : ∀ redex ∈ term.outermostRedexes, redex.Plain) :
    (term.evaluate .empty).nameless [] = (term.nameless []).contract :=
  nameless_evaluate term [] plain

-- Two redexes under `\z`, the first of which takes a redex as its argument, puts it under an
-- abstraction and meets its parameter's name again on the way.
def crossing : Term :=
  .abs "z" (.app
    (.app (.var "z") (.app
      (.abs "x" (.abs "y" (.app (.app (.var "x") (.abs "x" (.var "x"))) (.var "y"))))
      (.app (.abs "y" (.var "y")) (.var "z"))))
    (.app (.abs "z" (.var "z")) (.var "y")))

theorem crossing_contracts_outermost_redexes :
    (∀ redex ∈ crossing.outermostRedexes, redex.Plain) ∧
      (crossing.evaluate .empty).nameless [] = (crossing.nameless []).contract :=
  ⟨by decide, pass_contracts_outermost_redexes crossing (by decide)⟩

-- A free name of the argument that is captured on its way into the body.
example : let term := Term.app (.abs "x" (.abs "y" (.var "x"))) (.var "y")
    (term.evaluate .empty).nameless [] ≠ (term.nameless []).contract := by decide

end LambdaCalculus
