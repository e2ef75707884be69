import LambdaCalculus.Evaluation
import LambdaCalculus.Proofs.Names

set_option autoImplicit false

namespace LambdaCalculus

theorem evaluate_app {function : Term} (argument : Term) (env : Environment) (other : function.isAbs = false) :
    (Term.app function argument).evaluate env = .app (function.evaluate env) (argument.evaluate env) := by
  cases function with
  | var name => rfl
  | abs parameter body => cases other
  | app inner last => rfl

-- Induction in the way a pass goes through a term: of an application of an abstraction it
-- meets the body only, and neither the abstraction itself nor the argument.
@[elab_as_elim]
theorem Term.pass_induction {motive : Term → Prop} (var : ∀ name, motive (.var name))
    (abs : ∀ argument body, motive body → motive (.abs argument body))
    (redex : ∀ parameter body argument, motive body → motive (.app (.abs parameter body) argument))
    (app : ∀ function argument, function.isAbs = false → motive function → motive argument →
      motive (.app function argument))
    (term : Term) : motive term := by
  match term with
  | .var name => exact var name
  | .abs argument body => exact abs argument body (pass_induction var abs redex app body)
  | .app (.abs parameter body) argument =>
      exact redex parameter body argument (pass_induction var abs redex app body)
  | .app (.var name) argument => exact app _ argument rfl (var name) (pass_induction var abs redex app argument)
  | .app (.app inner last) argument =>
      exact app _ argument rfl (pass_induction var abs redex app (.app inner last))
        (pass_induction var abs redex app argument)

def Environment.Each (env : Environment) (kind : Term → Prop) : Prop :=
  ∀ bound value, env.lookup bound = some value → kind value

theorem each_empty (kind : Term → Prop) : Environment.empty.Each kind := by
  intro bound value found
  cases found

theorem each_bind {env : Environment} {kind : Term → Prop} (each : env.Each kind) (parameter : String)
    {argument : Term} (new : kind argument) : (env.bind parameter argument).Each kind := by
  intro bound value found
  rw [Environment.lookup_bind] at found
  by_cases same : bound = parameter
  · rw [if_pos same] at found
    cases found
    exact new
  · rw [if_neg same] at found
    exact each bound value found

theorem each_without {env : Environment} {kind : Term → Prop} (each : env.Each kind) (hidden : String) :
    (env.without hidden).Each kind := by
  intro bound value found
  rw [Environment.lookup_without] at found
  by_cases same : bound = hidden
  · rw [if_pos same] at found
    cases found
  · rw [if_neg same] at found
    exact each bound value found

def Environment.Within (env : Environment) (allowed : String → Prop) : Prop :=
  ∀ bound value, env.lookup bound = some value → ∀ name ∈ value.names, allowed name

theorem names_evaluate (allowed : String → Prop) (term : Term) (env : Environment)
    (own : ∀ name ∈ term.names, allowed name) (within : env.Within allowed) :
    ∀ name ∈ (term.evaluate env).names, allowed name := by
  induction term using Term.pass_induction generalizing env with
  | var letters =>
      rw [Term.evaluate]
      cases found : env.lookup letters with
      | none => exact own
      | some value => exact within letters value found
  | abs argument body ih =>
      rw [Term.evaluate]
      intro name member
      cases member with
      | head _ => exact own argument List.mem_cons_self
      | tail _ member =>
          exact ih _ (fun inner among => own inner (List.mem_cons_of_mem argument among))
            (each_without within argument) name member
  | redex parameter body argument ih =>
      rw [Term.evaluate]
      refine ih _ ?_ (each_bind within parameter ?_)
      · exact fun name member => own name (List.mem_append_left _ (List.mem_cons_of_mem parameter member))
      · exact fun name member => own name (List.mem_append_right _ member)
  | app function argument stuck functionIh argumentIh =>
      rw [evaluate_app argument env stuck]
      intro name member
      rcases List.mem_append.mp member with member | member
      · exact functionIh env (fun inner among => own inner (List.mem_append_left _ among)) within name member
      · exact argumentIh env (fun inner among => own inner (List.mem_append_right _ among)) within name member

theorem names_pass (term : Term) (name : String) (member : name ∈ term.pass.names) : name ∈ term.names :=
  names_evaluate (· ∈ term.names) term .empty (fun _ among => among) (each_empty _) name member

end LambdaCalculus
