import Stencil.Formatter.Builtin.Collections
import Stencil.Formatter.Builtin.Numbers
import Stencil.Formatter.Builtin.Operators
import Stencil.Formatter.Builtin.Texts
import Stencil.Formatter.Registry

/-!
# The formatters that are always there
-/

namespace Stencil

namespace Builtin

/-- Groups: a value without an argument is itself, one with an argument gives way to it. -/
def groups : List Signature :=
  [ (Signature.computing "Self" .any [] Call.value).describe "The value itself",
    (Signature.computing "Self" .any [.needed "value" .any] fun c => c.argument 0).describe
      "Its argument; used to group a sub-expression" ]

/-- All of them, in the order in which they are registered. -/
def all : List Signature :=
  operators ++ groups ++ texts ++ collections ++ numbers

end Builtin

/-- A registry of the formatters that are always there. -/
def Registry.withBuiltins (generation : Nat) : Registry :=
  (Registry.empty generation).registerAll generation Builtin.all

/-- The registry of all engines that do not bring their own. Its generation is given to no other. -/
def Registry.standard : Registry :=
  .withBuiltins 0

end Stencil
