import LambdaCalculus.Grammar.Progress
/-!
Reading a whole text as a term.
-/

set_option autoImplicit false

namespace LambdaCalculus

variable [Alphabet]

def parseReporting {ε : Type} (report : Report ε) (text : String) : Except Failure Term × List ε :=
  let run := (Grammar.topExpression report).attempt (.ofString text) 0
  (run.reply.result (Grammar.finishes_topExpression (.ofString text) 0), run.events)

def parse (text : String) : Except Failure Term :=
  (parseReporting (Report.silent : Report Empty) text).1

def parseTraced (text : String) : Except Failure Term × List Event :=
  parseReporting .traced text

end LambdaCalculus
