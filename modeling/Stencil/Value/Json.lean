import Stencil.Json
import Stencil.Value

/-!
# Values and JSON

Data is read from JSON and results are written as JSON. Of a repeated key the last value counts, at
the place of the first.
-/

namespace Stencil

mutual

/-- The value of a JSON text. Whole numbers beyond 64 bits with a sign are doubles. -/
def Value.ofJson : Json → Value
  | .null => .null
  | .bool b => .bool b
  | .whole n =>
    match int64? n with
    | some n => .int n
    | none => .float (floatOfInt n)
  | .float x => .float x
  | .string s => .string s
  | .array items => .array (Value.ofJsonItems items)
  | .object members => .object (Keyed.ofPairs (Value.ofJsonMembers members))

def Value.ofJsonItems : List Json → List Value
  | [] => []
  | j :: rest => Value.ofJson j :: Value.ofJsonItems rest

def Value.ofJsonMembers : List (String × Json) → List (String × Value)
  | [] => []
  | (k, j) :: rest => (k, Value.ofJson j) :: Value.ofJsonMembers rest

end

mutual

/-- A value as JSON. A host value is written as the object of its members, a lambda by a name. -/
def Value.toJson : Value → Json
  | .null => .null
  | .bool b => .bool b
  | .int n => .whole n.toInt
  | .float x => if x.isFinite then .float x else .null
  | .string s => .string s
  | .array items => .array (Value.toJsonItems items)
  | .object members => .object (Keyed.ofPairs (Value.toJsonMembers members))
  | .lambda _ => .string "[lambda]"
  | .host h => .object (Keyed.ofPairs (Host.toJsonMembers h))

def Value.toJsonItems : List Value → List Json
  | [] => []
  | v :: rest => v.toJson :: Value.toJsonItems rest

def Value.toJsonMembers : List (String × Value) → List (String × Json)
  | [] => []
  | (k, v) :: rest => (k, v.toJson) :: Value.toJsonMembers rest

def Host.toJsonMembers : Host → List (String × Json)
  | ⟨_, _, members, _⟩ => Value.toJsonMembers members

end

end Stencil
