import Stencil.Evaluation.Call

/-!
# Evaluation by walking the tree

Literals, operators and formatters give computed values, which stand in the place of the context
they were computed from; paths lead to members of it. The arguments of a call see the context that
the call started from, not the value it works on.

Before a node is evaluated the evaluation looks whether it was given up, except at the later links
of a chain.
-/

namespace Stencil

/-- Paths, with or without a call. -/
def Expr.isPath : Expr → Bool
  | .path _ _ | .call _ _ _ _ _ => true
  | _ => false

open EvalM

mutual

/-- Evaluates an expression without a look at whether the evaluation was given up. -/
def Expr.walkFrom (invoke : Invoke) (scope : Scope) (start : PathStart) :
    Expr → Context → EvalM Context
  | .path _ parts, c => resolve scope start parts c
  | .call _ site parts name args, c =>
    if isBracketCall name args then Argument.walkFirst invoke scope args c.nearestNatural
    else do
      let target ← resolve scope start parts c
      let supplied ← Argument.walkEach invoke scope args c.nearestNatural
      callFormatter invoke scope site name target supplied
  | .string _ _ fragments, c => return c.synthetic (.string (Fragment.value fragments))
  | .number _ _ value, c => return c.synthetic (Literal.number value).toValue
  | .list _ .chain items, c => Expr.walkLinks invoke scope .scope items c
  | .list _ .bracket items, c => Expr.walkLast invoke scope items c (c.synthetic .null)
  | .list _ .arguments items, c => do
    return c.synthetic (.array (← Expr.walkEach invoke scope items c))
  | .unary _ site op operand, c => do
    let target ← guarded (operand.walkFrom invoke scope .scope c)
    callFormatter invoke scope site op.formatterName target []
  | .binary _ site op left right, c => do
    let target ← guarded (left.walkFrom invoke scope .scope c)
    let other ← guarded (right.walkFrom invoke scope .scope c)
    callFormatter invoke scope site op.formatterName target [⟨none, other.value⟩]
  | .lambda _ parameters body, c => makeLambda parameters.parameterNames (.tree body) c

/-- Evaluates the links of a chain, each on the result of the one before. -/
def Expr.walkLinks (invoke : Invoke) (scope : Scope) (start : PathStart) :
    List Expr → Context → EvalM Context
  | [], c => return c
  | e :: rest, c => do
    unless start == .member && e.isPath do checkpoint
    let next ← e.walkFrom invoke scope start c
    Expr.walkLinks invoke scope .member rest next

/-- Evaluates expressions on one context and gives the last result. -/
def Expr.walkLast (invoke : Invoke) (scope : Scope) :
    List Expr → Context → Context → EvalM Context
  | [], _, last => return last
  | e :: rest, c, _ => do
    let last ← guarded (e.walkFrom invoke scope .scope c)
    Expr.walkLast invoke scope rest c last

/-- The values of expressions on one context. -/
def Expr.walkEach (invoke : Invoke) (scope : Scope) :
    List Expr → Context → EvalM (List Value)
  | [], _ => return []
  | e :: rest, c => do
    let result ← guarded (e.walkFrom invoke scope .scope c)
    return result.value :: (← Expr.walkEach invoke scope rest c)

/-- Evaluates the argument of a group. -/
def Argument.walkFirst (invoke : Invoke) (scope : Scope) :
    List Argument → Context → EvalM Context
  | [], c => return c
  | ⟨_, _, e⟩ :: _, c => guarded (e.walkFrom invoke scope .scope c)

/-- Evaluates the arguments of a call. -/
def Argument.walkEach (invoke : Invoke) (scope : Scope) :
    List Argument → Context → EvalM (List Supplied)
  | [], _ => return []
  | ⟨name, _, e⟩ :: rest, c => do
    let result ← guarded (e.walkFrom invoke scope .scope c)
    return ⟨name, result.value⟩ :: (← Argument.walkEach invoke scope rest c)

end

/-- Evaluates an expression. -/
def Expr.walk (invoke : Invoke) (scope : Scope) (e : Expr) (c : Context) : EvalM Context :=
  guarded (e.walkFrom invoke scope .scope c)

end Stencil
