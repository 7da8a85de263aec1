import Stencil.Evaluation.State
import Stencil.Reach

/-!
# Calls in an evaluation

How a path is followed and a formatter called while an expression is evaluated. Whoever evaluates
says how a lambda is invoked.
-/

namespace Stencil

/-- How a lambda is invoked from a scope. -/
abbrev Invoke := Scope → Lambda → List Value → EvalM Value

/-- Runs a routine to its end, after invocations that failed with the errors `seen`. Where it pauses
it is left once the evaluation was given up. -/
def Routine.run {α : Type} (invoke : Lambda → List Value → EvalM Value) :
    List EvalError → Routine α → EvalM α
  | _, .done result => pure result
  | seen, .fail e => throw (if e ∈ seen then e else .cancelled)
  | seen, .ask l arguments next rescue =>
    EvalM.handle (invoke l arguments) (fun v => (next v).run invoke seen)
      fun e => (rescue e).run invoke (e :: seen)
  | seen, .cancel next => do
    EvalM.cancel
    next.run invoke seen
  | seen, .pause next => EvalM.guarded (next.run invoke seen)

namespace EvalM

/-- Follows a path, and records a member that is not there. -/
def reach (scope : Scope) (start : PathStart) (parts : Path) (c : Context) : EvalM Context := do
  let reached := Path.reach scope start parts c
  if let some u := reached.missing then record (.unresolved u)
  return reached.context

/-- Follows a path of an expression. Over a member that is not there the evaluation may be given
up. -/
def resolve (scope : Scope) (start : PathStart) (parts : Path) (c : Context) : EvalM Context := do
  recordAll ((Path.roots scope start parts c).map .rooted)
  let target ← reach scope start parts c
  cancelIf ((Path.reach scope start parts c).missing.any scope.options.stopsOn)
  return target

/-- Runs an overload that was chosen for a call. A result that has to be waited for is not waited
for once the evaluation was given up, but the routine that gives it up may still end with it. -/
def execute (invoke : Invoke) (scope : Scope) (r : Resolution) (v : Value)
    (arguments : List Supplied) : EvalM Value := do
  let (value, bound) := r.bind v arguments
  let call : Call :=
    ⟨value, bound, r.types, scope.options.culture, scope.depth, scope.options.isFalsey⟩
  record (.invoked r.signature value bound)
  cancelIf (r.signature.cancels call)
  match r.signature.action with
  | .compute f => return f call
  | .wait f => guarded ((f call).run (invoke scope) [])

/-- Calls a formatter on the value of a context. Where none fits the result is null, and the
evaluation may be given up. -/
def callFormatter (invoke : Invoke) (scope : Scope) (site : Nat) (name : String)
    (target : Context) (arguments : List Supplied) : EvalM Context := do
  let options := scope.options
  match ← resolveAt site options.registry options.matching name target.value arguments with
  | some r => return target.synthetic (← execute invoke scope r target.value arguments)
  | none =>
    let u := Unresolved.formatter name target.value.type arguments.length
    record (.unresolved u)
    cancelIf (options.stopsOn u)
    return target.synthetic .null

/-- Makes a lambda that remembers the place where it was made. -/
def makeLambda (parameters : List String) (body : LambdaBody) (c : Context) : EvalM Context := do
  let id ← freshLambda
  return c.synthetic (.lambda ⟨id, parameters, body, c.nearestNatural⟩)

end EvalM

end Stencil
