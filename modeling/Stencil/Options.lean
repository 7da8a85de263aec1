import Stencil.Config
import Stencil.Formatter.Builtin

/-!
# Options

What an evaluation is told from outside: the settings of a configuration, the formatters, how
members are looked up and truth is decided, and when to give up over something not found.
-/

namespace Stencil

/-- Something that was looked for and not found. -/
inductive Unresolved where
  /-- A member that a path asks for. -/
  | path (whole key : String) (type : ValueType)
  /-- A formatter that fits a value and arguments. -/
  | formatter (name : String) (type : ValueType) (arguments : Nat)
deriving DecidableEq, Repr

def Unresolved.message : Unresolved → String
  | .path whole key type => s!"'{key}' not found on {type.name} while resolving '{whole}'"
  | .formatter name type arguments =>
    s!"no formatter '{name}' for {type.name} with {arguments} argument(s)"

structure Options extends Config where
  registry : Registry
  /-- Is asked first when a member of a value is looked up. -/
  lookup : Value → String → Option Value
  /-- Which values count as false. -/
  isFalsey : Value → Bool
  /-- Whether who is told of something not found gives the evaluation up. -/
  stopsOn : Unresolved → Bool

namespace Options

/-- The options of a configuration, with the formatters that are always there. -/
def ofConfig (config : Config) : Options :=
  ⟨config, .standard, fun _ _ => none, Value.isFalsey, fun _ => false⟩

/-- The options of an engine that nothing is configured for. -/
def standard : Options :=
  ofConfig {}

/-- How deep lambdas may be nested; at least one can run. -/
def limit (o : Options) : Nat :=
  max 1 o.maxDepth

/-- A member of a value. -/
def member? (o : Options) (v : Value) (key : String) : Option Value :=
  (o.lookup v key).or (v.get? key)

end Options

end Stencil
