import Stencil.Evaluation.Call

/-!
# Evaluation of code

Code is evaluated as the tree it was made from, but for what was decided beforehand. Before any
code is run the evaluation looks whether it was given up; constant arguments are not run.

When code is made, the choice of an overload is made in advance for operators between two literals.
-/

namespace Stencil

open EvalM

mutual

/-- Runs code without a look at whether the evaluation was given up. -/
def Code.enter (invoke : Invoke) (scope : Scope) : Code → Context → EvalM Context
  | .constant value, c => return c.synthetic value.toValue
  | .stay, c => return c
  | .resolve start parts, c => resolve scope start parts c
  | .group inner, c => guarded (inner.enter invoke scope c.nearestNatural)
  | .call site start parts name args, c => do
    let target ← resolve scope start parts c
    let supplied ← CodeArgument.runEach invoke scope args c.nearestNatural
    callFormatter invoke scope site name target supplied
  | .chain links, c => Code.runLinks invoke scope links c
  | .sequence items, c => Code.runLast invoke scope items c (c.synthetic .null)
  | .collect items, c => do
    return c.synthetic (.array (← Code.runEach invoke scope items c))
  | .unary site op operand, c => do
    let target ← guarded (operand.enter invoke scope c)
    callFormatter invoke scope site op.formatterName target []
  | .binary site op left right, c => do
    let target ← guarded (left.enter invoke scope c)
    let other ← guarded (right.enter invoke scope c)
    callFormatter invoke scope site op.formatterName target [⟨none, other.value⟩]
  | .lambda parameters body, c => makeLambda parameters (.code body) c

/-- Runs the links of a chain, each on the result of the one before. -/
def Code.runLinks (invoke : Invoke) (scope : Scope) : List Code → Context → EvalM Context
  | [], c => return c
  | link :: rest, c => do
    let next ← guarded (link.enter invoke scope c)
    Code.runLinks invoke scope rest next

/-- Runs codes on one context and gives the last result. -/
def Code.runLast (invoke : Invoke) (scope : Scope) :
    List Code → Context → Context → EvalM Context
  | [], _, last => return last
  | item :: rest, c, _ => do
    let last ← guarded (item.enter invoke scope c)
    Code.runLast invoke scope rest c last

/-- The values of codes on one context. -/
def Code.runEach (invoke : Invoke) (scope : Scope) : List Code → Context → EvalM (List Value)
  | [], _ => return []
  | item :: rest, c => do
    let result ← guarded (item.enter invoke scope c)
    return result.value :: (← Code.runEach invoke scope rest c)

/-- The arguments of a call. -/
def CodeArgument.runEach (invoke : Invoke) (scope : Scope) :
    List CodeArgument → Context → EvalM (List Supplied)
  | [], _ => return []
  | .constant name value :: rest, c => do
    return ⟨name, value.toValue⟩ :: (← CodeArgument.runEach invoke scope rest c)
  | .computed name code :: rest, c => do
    let result ← guarded (code.enter invoke scope c)
    return ⟨name, result.value⟩ :: (← CodeArgument.runEach invoke scope rest c)

end

/-- Runs code. -/
def Code.run (invoke : Invoke) (scope : Scope) (code : Code) (c : Context) : EvalM Context :=
  guarded (code.enter invoke scope c)

/-! ## Choices in advance -/

/-- The choices after the one for an operator between two literals was made. -/
def Memories.prepare (options : Options) (site : Nat) (op : Operator) (left right : Code)
    (ms : Memories) : Memories :=
  match left, right with
  | .constant a, .constant b =>
    let answer := options.registry.consult (ms.at site) options.matching op.formatterName a.toValue
      [⟨none, b.toValue⟩]
    ms.set site answer.memory
  | _, _ => ms

mutual

/-- The choices after those that can be made in advance for code were made. -/
def Code.prepare (options : Options) : Code → Memories → Memories
  | .constant _, ms | .stay, ms | .resolve _ _, ms => ms
  | .group inner, ms => inner.prepare options ms
  | .call _ _ _ _ args, ms => CodeArgument.prepareAll options args ms
  | .chain items, ms | .sequence items, ms | .collect items, ms => Code.prepareAll options items ms
  | .unary _ _ operand, ms => operand.prepare options ms
  | .binary site op left right, ms =>
    right.prepare options (left.prepare options (ms.prepare options site op left right))
  | .lambda _ body, ms => body.prepare options ms

def Code.prepareAll (options : Options) : List Code → Memories → Memories
  | [], ms => ms
  | code :: rest, ms => Code.prepareAll options rest (code.prepare options ms)

def CodeArgument.prepareAll (options : Options) : List CodeArgument → Memories → Memories
  | [], ms => ms
  | .constant _ _ :: rest, ms => CodeArgument.prepareAll options rest ms
  | .computed _ code :: rest, ms =>
    CodeArgument.prepareAll options rest (code.prepare options ms)

end

/-- Makes in advance the choices that can be, when code is made of an expression. -/
def EvalM.prepare (options : Options) (code : Code) : EvalM Unit :=
  modify fun s => { s with memories := code.prepare options s.memories }

end Stencil
