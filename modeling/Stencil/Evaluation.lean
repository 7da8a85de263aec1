import Stencil.Evaluation.Run
import Stencil.Evaluation.Walk

/-!
# Evaluation

An invoked lambda runs in a scope one level deeper than that of the call, and no scope is deeper
than the limit of the options. So an evaluation ends: every lambda that is invoked uses up a level,
and between two invocations each step goes to a smaller part of an expression.
-/

namespace Stencil

/-- Invokes a lambda from a scope that has so many levels below it. Parameters without an argument
are null, and arguments without a parameter are ignored. -/
def invokeWithin : Nat → Invoke
  | 0, scope, _, _ => throw (.tooDeep (scope.depth + 1) scope.options.limit)
  | levels + 1, scope, l, arguments => do
    let inner := (← liftExcept scope.descend).bindAll l.parameters arguments
    let result ← match l.body with
      | .tree e => e.walk (invokeWithin levels) inner l.captured
      | .code code => code.run (invokeWithin levels) inner l.captured
    return result.value
where
  liftExcept {α : Type} : Except EvalError α → EvalM α
    | .ok a => pure a
    | .error e => throw e

/-- Number of levels that are left below a scope. -/
def Scope.levels (s : Scope) : Nat :=
  s.options.limit - s.depth

/-- Invokes a lambda. -/
def invoke (scope : Scope) : Lambda → List Value → EvalM Value :=
  invokeWithin scope.levels scope

/-- Evaluates an expression on a context by walking the tree. -/
def Expr.evaluate (scope : Scope) (e : Expr) (c : Context) : EvalM Context :=
  e.walk (invokeWithin scope.levels) scope c

/-- Evaluates code on a context. -/
def Code.evaluate (scope : Scope) (code : Code) (c : Context) : EvalM Context :=
  code.run (invokeWithin scope.levels) scope c

end Stencil
