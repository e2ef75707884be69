/-!
Terms of the untyped lambda calculus and their canonical text.
-/

set_option autoImplicit false

namespace LambdaCalculus

inductive Term where
  | var (name : String)
  | abs (argument : String) (body : Term)
  | app (function argument : Term)
deriving DecidableEq, Repr

namespace Term

def isVar : Term → Bool
  | .var _ => true
  | _ => false

def isAbs : Term → Bool
  | .abs _ _ => true
  | _ => false

def bracket (text : String) : String :=
  "(" ++ text ++ ")"

-- The canonical text. A function is bracketed when it is an abstraction, since its body would
-- run on over the argument; an argument is bracketed unless it is a variable, since it would
-- join the function's own arguments. The body of an abstraction is never bracketed.
def render : Term → String
  | .var name => name
  | .abs argument body => "\\" ++ argument ++ "." ++ body.render
  | .app function argument =>
      (if function.isAbs then bracket function.render else function.render) ++ " " ++
        (if argument.isVar then argument.render else bracket argument.render)

end Term

end LambdaCalculus
