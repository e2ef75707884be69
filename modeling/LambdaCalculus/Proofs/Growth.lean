import LambdaCalculus.Proofs.Reduction
import LambdaCalculus.Proofs.Weight

set_option autoImplicit false

namespace LambdaCalculus

namespace Term

def operands : Term → List Term
  | .var _ => []
  | .abs _ body => body.operands
  | .app function argument => argument :: (function.operands ++ argument.operands)

theorem size_operand_lt {term operand : Term} (member : operand ∈ term.operands) : operand.size < term.size := by
  induction term with
  | var name => cases member
  | abs argument body ih => exact Nat.lt_succ_of_lt (ih member)
  | app function argument functionIh argumentIh =>
      rw [size]
      rcases List.mem_cons.mp member with rfl | inner
      · omega
      · rcases List.mem_append.mp inner with inner | inner
        · have smaller := functionIh inner
          omega
        · have smaller := argumentIh inner
          omega

theorem size_evaluate_le (term : Term) (env : Environment) {most : Nat} (positive : 1 ≤ most)
    (bound : env.Each fun value => value.size ≤ most) (passed : ∀ operand ∈ term.operands, operand.size ≤ most) :
    (term.evaluate env).size ≤ most * term.size := by
  induction term using pass_induction generalizing env with
  | var name =>
      rw [evaluate, size, Nat.mul_one]
      cases found : env.lookup name with
      | none => exact positive
      | some value => exact bound name value found
  | abs argument body ih =>
      have inside := ih (env.without argument) (each_without bound argument) passed
      rw [evaluate, size, size, Nat.mul_succ]
      omega
  | redex parameter body argument ih =>
      -- What is put in is not gone into again in the same pass, so that it never adds up.
      have own : argument.size ≤ most := passed argument List.mem_cons_self
      have inBody : ∀ operand ∈ body.operands, operand.size ≤ most :=
        fun operand member => passed operand (List.mem_cons_of_mem argument (List.mem_append_left _ member))
      have inside := ih (env.bind parameter argument) (each_bind bound parameter own) inBody
      have smaller : body.size ≤ (Term.app (.abs parameter body) argument).size := by
        rw [size, size]
        omega
      exact inside.trans (Nat.mul_le_mul_left most smaller)
  | app function argument stuck functionIh argumentIh =>
      have inFunction : ∀ operand ∈ function.operands, operand.size ≤ most :=
        fun operand member => passed operand (List.mem_cons_of_mem argument (List.mem_append_left _ member))
      have inArgument : ∀ operand ∈ argument.operands, operand.size ≤ most :=
        fun operand member => passed operand (List.mem_cons_of_mem argument (List.mem_append_right _ member))
      have left := functionIh env bound inFunction
      have right := argumentIh env bound inArgument
      rw [evaluate_app argument env stuck, size, size, Nat.mul_succ, Nat.mul_add]
      omega

theorem size_pass_le (term : Term) : term.pass.size ≤ term.size * term.size :=
  size_evaluate_le term .empty term.size_pos (each_empty _) fun _ member => Nat.le_of_lt (size_operand_lt member)

theorem size_iterate_le (term : Term) (count : Nat) : (pass^[count] term).size ≤ term.size ^ 2 ^ count := by
  induction count with
  | zero => exact Nat.le_of_eq (Nat.pow_one term.size).symm
  | succ count ih =>
      rw [Function.iterate_succ_apply']
      calc (pass^[count] term).pass.size
          ≤ (pass^[count] term).size * (pass^[count] term).size := size_pass_le _
        _ ≤ term.size ^ 2 ^ count * term.size ^ 2 ^ count := Nat.mul_le_mul ih ih
        _ = term.size ^ 2 ^ (count + 1) := by rw [← Nat.pow_add, ← Nat.two_mul, Nat.pow_succ']

theorem size_reduce_le (limit : Nat) (term : Term) :
    (term.reduce limit).term.size ≤ term.size ^ 2 ^ (term.reduce limit).steps := by
  rw [reduce_term]
  exact size_iterate_le term _

end Term

theorem pass_at_most_squares (term : Term) :
    (term.evaluate .empty).size ≤ term.size * term.size ∧
    ∀ (env : Environment) (most : Nat), 1 ≤ most →
      (∀ bound value, env.lookup bound = some value → value.size ≤ most) →
      (∀ operand ∈ term.operands, operand.size ≤ most) → (term.evaluate env).size ≤ most * term.size :=
  ⟨term.size_pass_le, fun env _ positive bound passed => term.size_evaluate_le env positive bound passed⟩

def doubled : Term :=
  .app (.app (.abs "x" (.app (.var "x") (.var "x"))) (.app (.var "y") (.var "y"))) (.var "z")

def withIdentity : Environment :=
  Environment.empty.bind "z" (.abs "v" (.var "v"))

theorem doubled_within_bounds :
    (doubled.evaluate .empty).size ≤ doubled.size * doubled.size ∧
      (doubled.evaluate withIdentity).size = 10 ∧ (doubled.evaluate withIdentity).size ≤ 3 * doubled.size := by
  have bound : ∀ bound value, withIdentity.lookup bound = some value → value.size ≤ 3 :=
    each_bind (each_empty _) "z" (by decide)
  have passed : ∀ operand ∈ doubled.operands, operand.size ≤ 3 := by decide
  exact ⟨(pass_at_most_squares doubled).1, by decide,
    (pass_at_most_squares doubled).2 withIdentity 3 (by decide) bound passed⟩

end LambdaCalculus
