import LambdaCalculus.Environment
/-!
One pass of evaluation, call by name.
-/

set_option autoImplicit false

namespace LambdaCalculus.Term

-- Where an abstraction meets its argument, the body is evaluated with the argument as it is
-- written for the parameter. Everything else is rebuilt from its evaluated parts; an
-- abstraction hides its own argument's name. Bound names are never renamed, so that an
-- abstraction may capture the free names of a term that is put into its body.
def evaluate : Term → Environment → Term
  | .var name, env => (env.lookup name).getD (.var name)
  | .abs argument body, env => .abs argument (body.evaluate (env.without argument))
  | .app (.abs parameter body) argument, env => body.evaluate (env.bind parameter argument)
  | .app function argument, env => .app (function.evaluate env) (argument.evaluate env)

def pass (term : Term) : Term :=
  term.evaluate .empty

end LambdaCalculus.Term
