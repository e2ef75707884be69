import LambdaCalculus.Alphabet
import LambdaCalculus.Term

set_option autoImplicit false

namespace LambdaCalculus

variable [Alphabet]

def IsName (text : String) : Prop :=
  text.toList ≠ [] ∧ ∀ c ∈ text.toList, isLetter c = true

-- Over the characters of the text: those of the whole alphabet are too many to go through.
instance (text : String) : Decidable (IsName text) :=
  have : Decidable (∀ c ∈ text.toList, isLetter c = true) := List.decidableBAll _ _
  inferInstanceAs (Decidable (_ ∧ _))

namespace Term

def names : Term → List String
  | .var name => [name]
  | .abs argument body => argument :: body.names
  | .app function argument => function.names ++ argument.names

def freeNames : Term → List String
  | .var name => [name]
  | .abs argument body => body.freeNames.filter (· != argument)
  | .app function argument => function.freeNames ++ argument.freeNames

def boundNames : Term → List String
  | .var _ => []
  | .abs argument body => argument :: body.boundNames
  | .app function argument => function.boundNames ++ argument.boundNames

def WellNamed (term : Term) : Prop :=
  ∀ name ∈ term.names, IsName name

instance (term : Term) : Decidable term.WellNamed :=
  inferInstanceAs (Decidable (∀ name ∈ term.names, IsName name))

omit [Alphabet] in
theorem mem_freeNames_abs {name argument : String} {body : Term} :
    name ∈ (Term.abs argument body).freeNames ↔ name ∈ body.freeNames ∧ name ≠ argument := by
  rw [freeNames, List.mem_filter, bne_iff_ne]

omit [Alphabet] in
theorem mem_freeNames_app {name : String} {function argument : Term} :
    name ∈ (Term.app function argument).freeNames ↔ name ∈ function.freeNames ∨ name ∈ argument.freeNames :=
  List.mem_append

theorem wellNamed_abs {argument : String} {body : Term} :
    (Term.abs argument body).WellNamed ↔ IsName argument ∧ body.WellNamed :=
  List.forall_mem_cons

theorem wellNamed_app {function argument : Term} :
    (Term.app function argument).WellNamed ↔ function.WellNamed ∧ argument.WellNamed :=
  List.forall_mem_append

end Term

end LambdaCalculus
