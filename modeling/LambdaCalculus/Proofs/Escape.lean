import LambdaCalculus.Proofs.Contraction

set_option autoImplicit false

namespace LambdaCalculus

def Term.contracted : Term → List Redex
  | .var _ => []
  | .abs _ body => body.contracted
  | .app (.abs parameter body) argument => ⟨parameter, body, argument⟩ :: body.contracted
  | .app function argument => function.contracted ++ argument.contracted

def Redex.Leaks (redex : Redex) : Prop :=
  ∃ inner ∈ redex.body.contracted, redex.parameter ∈ inner.argument.freeNames

instance (redex : Redex) : Decidable redex.Leaks :=
  inferInstanceAs (Decidable (∃ inner ∈ redex.body.contracted, _))

theorem contracted_app {function : Term} (argument : Term) (stuck : function.isAbs = false) :
    (Term.app function argument).contracted = function.contracted ++ argument.contracted := by
  cases function with
  | var name => rfl
  | abs parameter body => cases stuck
  | app inner last => rfl

inductive Origin (term : Term) (env : Environment) (name : String) : Prop where
  | unbound (free : name ∈ term.freeNames) (absent : env.lookup name = none)
  | written (free : name ∈ term.freeNames) (redex : Redex) (member : redex ∈ term.contracted)
      (passed : name ∈ redex.argument.freeNames)
  | leaked (redex : Redex) (member : redex ∈ term.contracted) (own : redex.parameter = name) (leaks : redex.Leaks)
  | fetched (bound : String) (value : Term) (found : env.lookup bound = some value) (free : name ∈ value.freeNames)

theorem Origin.mono {term whole : Term} {env : Environment} {name : String} (origin : Origin term env name)
    (names : ∀ name ∈ term.freeNames, name ∈ whole.freeNames)
    (redexes : ∀ redex ∈ term.contracted, redex ∈ whole.contracted) : Origin whole env name := by
  cases origin with
  | unbound free absent => exact .unbound (names _ free) absent
  | written free redex member passed => exact .written (names _ free) redex (redexes _ member) passed
  | leaked redex member own leaks => exact .leaked redex (redexes _ member) own leaks
  | fetched bound value found free => exact .fetched bound value found free

theorem Origin.abs {argument name : String} {body : Term} {env : Environment} (different : name ≠ argument)
    (origin : Origin body (env.without argument) name) : Origin (.abs argument body) env name := by
  cases origin with
  | unbound free absent =>
      rw [Environment.lookup_without, if_neg different] at absent
      exact .unbound (Term.mem_freeNames_abs.mpr ⟨free, different⟩) absent
  | written free redex member passed =>
      exact .written (Term.mem_freeNames_abs.mpr ⟨free, different⟩) redex member passed
  | leaked redex member own leaks => exact .leaked redex member own leaks
  | fetched bound value found free =>
      rw [Environment.lookup_without, Option.ite_none_left_eq_some] at found
      exact .fetched bound value found.2 free

theorem Origin.redex {parameter name : String} {body argument : Term} {env : Environment}
    (origin : Origin body (env.bind parameter argument) name) :
    Origin (.app (.abs parameter body) argument) env name := by
  have inBody (free : name ∈ body.freeNames) (different : name ≠ parameter) :
      name ∈ (Term.app (.abs parameter body) argument).freeNames :=
    Term.mem_freeNames_app.mpr (.inl (Term.mem_freeNames_abs.mpr ⟨free, different⟩))
  cases origin with
  | unbound free absent =>
      rw [Environment.lookup_bind] at absent
      by_cases same : name = parameter
      · rw [if_pos same] at absent
        cases absent
      · rw [if_neg same] at absent
        exact .unbound (inBody free same) absent
  | written free inner member passed =>
      by_cases same : name = parameter
      · -- Nothing is looked up in what is passed on: if it mentions the parameter, it takes that out.
        subst same
        exact .leaked ⟨name, body, argument⟩ List.mem_cons_self rfl ⟨inner, member, passed⟩
      · exact .written (inBody free same) inner (List.mem_cons_of_mem _ member) passed
  | leaked inner member own leaks => exact .leaked inner (List.mem_cons_of_mem _ member) own leaks
  | fetched bound value found free =>
      rw [Environment.lookup_bind] at found
      by_cases same : bound = parameter
      · rw [if_pos same] at found
        cases found
        exact .written (Term.mem_freeNames_app.mpr (.inr free)) _ List.mem_cons_self free
      · rw [if_neg same] at found
        exact .fetched bound value found free

theorem origin_evaluate (term : Term) (env : Environment) (name : String)
    (free : name ∈ (term.evaluate env).freeNames) : Origin term env name := by
  induction term using Term.pass_induction generalizing env with
  | var letters =>
      rw [Term.evaluate] at free
      cases found : env.lookup letters with
      | none =>
          rw [found] at free
          obtain rfl := List.mem_singleton.mp free
          exact .unbound free found
      | some value =>
          rw [found] at free
          exact .fetched letters value found free
  | abs argument body ih =>
      rw [Term.evaluate] at free
      obtain ⟨free, different⟩ := Term.mem_freeNames_abs.mp free
      exact (ih _ free).abs different
  | redex parameter body argument ih => exact (ih _ free).redex
  | app function argument stuck functionIh argumentIh =>
      rw [evaluate_app argument env stuck] at free
      rcases Term.mem_freeNames_app.mp free with free | free
      · refine (functionIh env free).mono (fun _ => List.mem_append_left _) fun redex member => ?_
        rw [contracted_app argument stuck]
        exact List.mem_append_left _ member
      · refine (argumentIh env free).mono (fun _ => List.mem_append_right _) fun redex member => ?_
        rw [contracted_app argument stuck]
        exact List.mem_append_right _ member

theorem freeNames_pass (term : Term) (name : String) (free : name ∈ term.pass.freeNames) :
    name ∈ term.freeNames ∨ ∃ redex ∈ term.contracted, redex.parameter = name ∧ redex.Leaks := by
  cases origin_evaluate term .empty name free with
  | unbound free absent => exact .inl free
  | written free redex member passed => exact .inl free
  | leaked redex member own leaks => exact .inr ⟨redex, member, own, leaks⟩
  | fetched bound value found free => cases found

theorem pass_frees_leaked_parameters (term : Term) :
    (∀ name ∈ (term.evaluate .empty).freeNames, name ∈ term.freeNames ∨
      ∃ outer ∈ term.contracted, outer.parameter = name ∧
        ∃ inner ∈ outer.body.contracted, outer.parameter ∈ inner.argument.freeNames) ∧
    ((∀ outer ∈ term.contracted, outer.body.contracted = []) →
      (∀ name ∈ (term.evaluate .empty).freeNames, name ∈ term.freeNames) ∧
        (term.freeNames = [] → (term.evaluate .empty).freeNames = [])) := by
  refine ⟨freeNames_pass term, fun single => ?_⟩
  have kept : ∀ name ∈ (term.evaluate .empty).freeNames, name ∈ term.freeNames := by
    intro name free
    obtain known | ⟨outer, member, -, inner, among, -⟩ := freeNames_pass term name free
    · exact known
    · rw [single outer member] at among
      cases among
  refine ⟨kept, fun closed => List.eq_nil_iff_forall_not_mem.mpr fun name free => ?_⟩
  have member := kept name free
  rw [closed] at member
  cases member

-- `(\x.(\y.y) x) a` binds `x` to `a`, but `y` to the bare `x`.
def leaky : Term :=
  .app (.abs "x" (.app (.abs "y" (.var "y")) (.var "x"))) (.var "a")

theorem leaky_frees_its_parameter :
    "x" ∈ (leaky.evaluate .empty).freeNames ∧ "x" ∉ leaky.freeNames ∧
      ∃ outer ∈ leaky.contracted, outer.parameter = "x" ∧
        ∃ inner ∈ outer.body.contracted, outer.parameter ∈ inner.argument.freeNames := by
  have free : "x" ∈ (leaky.evaluate .empty).freeNames := by decide
  have absent : "x" ∉ leaky.freeNames := by decide
  exact ⟨free, absent, ((pass_frees_leaked_parameters leaky).1 "x" free).resolve_left absent⟩

end LambdaCalculus
