import LambdaCalculus.Proofs.Evaluation

set_option autoImplicit false

namespace LambdaCalculus

def Environment.AgreeOn (one other : Environment) (names : List String) : Prop :=
  ∀ name ∈ names, one.lookup name = other.lookup name

theorem agreeOn_inside {one other inner innerToo : Environment} {bound : String} {binding : Option Term} {body : Term}
    (agree : one.AgreeOn other (Term.abs bound body).freeNames)
    (first : ∀ name, inner.lookup name = if name = bound then binding else one.lookup name)
    (second : ∀ name, innerToo.lookup name = if name = bound then binding else other.lookup name) :
    inner.AgreeOn innerToo body.freeNames := by
  intro name member
  rw [first, second]
  by_cases same : name = bound
  · rw [if_pos same, if_pos same]
  · rw [if_neg same, if_neg same]
    exact agree name (Term.mem_freeNames_abs.mpr ⟨member, same⟩)

theorem evaluate_of_agreeOn (term : Term) (one other : Environment) (agree : one.AgreeOn other term.freeNames) :
    term.evaluate one = term.evaluate other := by
  induction term using Term.pass_induction generalizing one other with
  | var name => rw [Term.evaluate, Term.evaluate, agree name List.mem_cons_self]
  | abs argument body ih =>
      refine congrArg (Term.abs argument) (ih _ _ ?_)
      exact agreeOn_inside agree (one.lookup_without argument) (other.lookup_without argument)
  | redex parameter body argument ih =>
      have bodyAgree : one.AgreeOn other (Term.abs parameter body).freeNames :=
        fun name member => agree name (List.mem_append_left _ member)
      exact ih _ _ (agreeOn_inside bodyAgree (one.lookup_bind parameter argument) (other.lookup_bind parameter argument))
  | app function argument stuck functionIh argumentIh =>
      have functionSame := functionIh one other fun name member => agree name (List.mem_append_left _ member)
      have argumentSame := argumentIh one other fun name member => agree name (List.mem_append_right _ member)
      rw [evaluate_app argument one stuck, evaluate_app argument other stuck, functionSame, argumentSame]

theorem agreeOn_of_absent {env inner : Environment} {bound : String} {binding : Option Term} {names : List String}
    (absent : bound ∉ names) (inside : ∀ name, inner.lookup name = if name = bound then binding else env.lookup name) :
    inner.AgreeOn env names := by
  intro name member
  rw [inside, if_neg (ne_of_mem_of_not_mem member absent)]

theorem evaluation_reads_free_names (term : Term) :
    (∀ one other : Environment, (∀ name ∈ term.freeNames, one.lookup name = other.lookup name) →
      term.evaluate one = term.evaluate other) ∧
    (∀ (env : Environment) (name : String), name ∉ term.freeNames →
      (∀ value, term.evaluate (env.bind name value) = term.evaluate env) ∧
        term.evaluate (env.without name) = term.evaluate env) ∧
    (∀ (env : Environment) (argument : String) (value : Term),
      (Term.abs argument term).evaluate (env.bind argument value) = (Term.abs argument term).evaluate env) ∧
    (term.freeNames = [] → ∀ one other : Environment, term.evaluate one = term.evaluate other) := by
  refine ⟨evaluate_of_agreeOn term, ?_, ?_, ?_⟩
  · intro env name absent
    constructor
    · intro value
      exact evaluate_of_agreeOn term _ _ (agreeOn_of_absent absent (env.lookup_bind name value))
    · exact evaluate_of_agreeOn term _ _ (agreeOn_of_absent absent (env.lookup_without name))
  · intro env argument value
    have own : argument ∉ (Term.abs argument term).freeNames :=
      fun member => (Term.mem_freeNames_abs.mp member).2 rfl
    exact evaluate_of_agreeOn _ _ _ (agreeOn_of_absent own (env.lookup_bind argument value))
  · intro closed one other
    refine evaluate_of_agreeOn term one other ?_
    rw [closed]
    exact fun name member => absurd member List.not_mem_nil

-- `\z.(\x.x y) (z w)` where one environment has hidden `x` and the other binds `z`, so that the
-- outer abstraction adds a scope to the second one only.
def screened : Term :=
  .abs "z" (.app (.abs "x" (.app (.var "x") (.var "y"))) (.app (.var "z") (.var "w")))

def withHidden : Environment :=
  ((Environment.empty.bind "x" (.var "a")).bind "y" (.abs "v" (.var "x"))).without "x"

def withOuter : Environment :=
  (Environment.empty.bind "z" (.var "b")).bind "y" (.abs "v" (.var "x"))

theorem screened_evaluates_alike :
    (∀ name ∈ screened.freeNames, withHidden.lookup name = withOuter.lookup name) ∧
      withHidden.lookup "z" ≠ withOuter.lookup "z" ∧
      screened.evaluate withHidden = screened.evaluate withOuter :=
  have agree : ∀ name ∈ screened.freeNames, withHidden.lookup name = withOuter.lookup name := by decide
  ⟨agree, by decide, (evaluation_reads_free_names screened).1 withHidden withOuter agree⟩

end LambdaCalculus
