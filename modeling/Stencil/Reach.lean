import Stencil.Scope

/-!
# Following paths

A path is followed part by part. Each step leads to a new context with the one before as its
parent, up to the first member that is not there: there the walk ends, with null.
-/

namespace Stencil

/-- Where a path led. -/
structure Reached where
  context : Context
  /-- What was not there, if the walk ended early. -/
  missing : Option Unresolved

/-- A member of an object as an object of its own. -/
def entry (key : String) (v : Value) : Value :=
  .object [("Key", .string key), ("Value", v)]

/-- The context that a part leads to; none if it asks for a member that is not there. -/
def Part.step? (scope : Scope) (start : PathStart) (c : Context) (p : Part) : Option Context :=
  match p.kind with
  | .root => some c.root
  | .parent => some c.enclosing
  | .self => some c
  | .entries => some (c.child "?" (.array (c.value.members.map fun (k, v) => entry k v)))
  | .boolean => some (c.synthetic (.bool (p.keyText == "true")))
  | .null => some (c.synthetic .null)
  | .number =>
    some (c.synthetic (match Numeral.ofLiteral? p.keyText with
      | some n => (Literal.number n).toValue
      | none => .null))
  | .member =>
    let declared : Option Value := match start with
      | .scope => scope.get? p.keyText
      | .member => none
    (declared.or (scope.options.member? c.value p.keyText)).map (c.child p.keyText)

namespace Path

/-- Follows what is left of `whole`. Only its first part can mean a variable. -/
def follow (whole : Path) (scope : Scope) : PathStart → Path → Context → Reached
  | _, [], c => ⟨c, none⟩
  | start, p :: rest, c =>
    match p.step? scope start c with
    | some next => follow whole scope .member rest next
    | none =>
      ⟨c.child p.keyText .null, some (.path (Path.text whole) p.keyText c.value.type)⟩

/-- Follows a path from a context. -/
def reach (scope : Scope) (start : PathStart) (path : Path) (c : Context) : Reached :=
  follow path scope start path c

/-- The contexts that root selectors lead to while a path is followed. -/
def roots (scope : Scope) : PathStart → Path → Context → List Context
  | _, [], _ => []
  | start, p :: rest, c =>
    match p.step? scope start c with
    | some next =>
      let others := roots scope .member rest next
      if p.kind == .root then next :: others else others
    | none => []

end Path

end Stencil
