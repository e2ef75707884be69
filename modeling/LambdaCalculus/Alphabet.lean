import LambdaCalculus.Failure
/-!
The characters of a text that are no marks: the blanks between tokens, and the letters of names.
-/

set_option autoImplicit false

namespace LambdaCalculus

def isBlank (c : Char) : Bool :=
  c == ' ' || c == '\t' || c == '\n'

-- Which characters names are made of is left open: all that the notation asks of them is
-- that neither a blank nor a mark goes on with a name.
class Alphabet where
  isLetter : Char → Bool
  isLetter_mark : ∀ mark : Mark, isLetter mark.char = false
  isLetter_of_isBlank : ∀ c : Char, isBlank c = true → isLetter c = false

export Alphabet (isLetter isLetter_mark isLetter_of_isBlank)

end LambdaCalculus
