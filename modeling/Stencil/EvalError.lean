/-!
# Failures of an evaluation

What stops an evaluation. All else that goes wrong, such as a member that is not there, gives null.
-/

namespace Stencil

inductive EvalError where
  /-- A lambda was to run deeper than the limit allows. -/
  | tooDeep (depth limit : Nat)
  | cancelled
deriving DecidableEq, Repr

def EvalError.message : EvalError → String
  | tooDeep depth limit => s!"Recursion depth {depth} exceeds the limit of {limit}"
  | cancelled => "Evaluation was cancelled"

end Stencil
