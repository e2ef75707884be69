/-!
Why a text cannot be read: what was expected where, and which rules were being attempted around it.
-/

set_option autoImplicit false

namespace LambdaCalculus

inductive Mark where
  | backslash
  | dot
  | leftBracket
  | rightBracket
deriving DecidableEq, Repr

def Mark.char : Mark → Char
  | .backslash => '\\'
  | .dot => '.'
  | .leftBracket => '('
  | .rightBracket => ')'

def Mark.text (mark : Mark) : String :=
  mark.char.toString

inductive Cause where
  | letter
  | identifier
  | mark (expected : Mark)
  | var
  | abs
  | app
  | term
  | expression
  | noAlternative
  | extraCharacters (position : Nat)
  | other (text : String)
deriving DecidableEq, Repr

def Cause.message : Cause → String
  | .letter => "a letter is expected"
  | .identifier => "an identifier is expected"
  | .mark expected => "a punctuation `" ++ expected.text ++ "` is expected"
  | .var => "a variable is expected"
  | .abs => "a lambda abstraction is expected"
  | .app => "function applications are expected"
  | .term => "a term is expected"
  | .expression => "an expression is expected"
  | .noAlternative => "no alternative matched"
  | .extraCharacters position => "extra characters are detected at position " ++ toString position
  | .other text => text

structure Fragment where
  position : Nat
  cause : Cause
deriving DecidableEq, Repr

def Fragment.text (fragment : Fragment) : String :=
  "lambda:" ++ toString fragment.position ++ ": " ++ fragment.cause.message

structure Failure where
  innermost : Fragment
  -- The rules around the first complaint, from the outermost one inwards.
  enclosing : List Fragment
deriving DecidableEq, Repr

namespace Failure

def ofCause (position : Nat) (cause : Cause) : Failure :=
  ⟨⟨position, cause⟩, []⟩

def position (failure : Failure) : Nat :=
  failure.innermost.position

def fragments (failure : Failure) : List Fragment :=
  failure.innermost :: failure.enclosing.reverse

def message (failure : Failure) : String :=
  "\n".intercalate (failure.fragments.map Fragment.text)

def context (failure : Failure) (position : Nat) (cause : Cause) : Failure :=
  { failure with enclosing := ⟨position, cause⟩ :: failure.enclosing }

def further (failure other : Failure) : Failure :=
  if failure.position < other.position then other else failure

def alike (failure other : Failure) : Bool :=
  failure.position == other.position && failure.message == other.message

theorem fragments_ofCause (position : Nat) (cause : Cause) :
    (ofCause position cause).fragments = [⟨position, cause⟩] := rfl

theorem fragments_context (failure : Failure) (position : Nat) (cause : Cause) :
    (failure.context position cause).fragments = failure.fragments ++ [⟨position, cause⟩] := by
  simp [fragments, context]

theorem position_context (failure : Failure) (position : Nat) (cause : Cause) :
    (failure.context position cause).position = failure.position := rfl

theorem further_of_le (failure other : Failure) (near : other.position ≤ failure.position) :
    failure.further other = failure := by
  simp only [further, if_neg (Nat.not_lt.mpr near)]

theorem further_of_lt (failure other : Failure) (far : failure.position < other.position) :
    failure.further other = other := by
  simp only [further, if_pos far]

theorem position_further (failure other : Failure) :
    (failure.further other).position = max failure.position other.position := by
  unfold further
  split <;> omega

theorem further_assoc (first second third : Failure) :
    (first.further second).further third = first.further (second.further third) := by
  by_cases ahead : first.position < second.position
  · have behind : first.position < (second.further third).position := by
      rw [position_further]
      omega
    rw [further_of_lt first second ahead, further_of_lt first _ behind]
  · have near : second.position ≤ first.position := Nat.le_of_not_lt ahead
    rw [further_of_le first second near]
    by_cases beyond : second.position < third.position
    · rw [further_of_lt second third beyond]
    · have last : third.position ≤ second.position := Nat.le_of_not_lt beyond
      rw [further_of_le second third last, further_of_le first second near,
        further_of_le first third (Nat.le_trans last near)]

end Failure

end LambdaCalculus
