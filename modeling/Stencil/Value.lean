import Stencil.Code
import Stencil.Keyed

/-!
# Values and contexts

The values that flow through expressions, and the contexts in which they are found. The two belong
together: a lambda remembers the context it was made in, and a context is a value with its place
among others.

Lambdas and host values are told apart by a number each of them gets when it is made.
-/

namespace Stencil

/-- What a lambda does when it is called: a tree to walk, or code to run. -/
inductive LambdaBody where
  | tree (e : Expr)
  | code (c : Code)

mutual

/-- A value. Objects keep the order in which their members were added, and hold no key twice. -/
inductive Value where
  | null
  | bool (b : Bool)
  | int (n : Int64)
  | float (x : Float)
  | string (s : String)
  | array (items : List Value)
  | object (members : List (String × Value))
  | lambda (l : Lambda)
  | host (h : Host)

/-- A function made by a lambda expression. -/
structure Lambda where
  id : Nat
  parameters : List String
  body : LambdaBody
  captured : Context

/-- A value of the embedding program. Some of its members can be looked up but are not listed. -/
structure Host where
  id : Nat
  typeName : String
  members : List (String × Value)
  hidden : List (String × Value)

/-- A value and how it was reached. A context is natural if it was reached by walking a path, and
synthetic if its value was computed. -/
structure Context where
  value : Value
  key : String
  isNatural : Bool
  parent : Option Context

end

instance : Inhabited Value := ⟨.null⟩

/-- The kind of a value, with the type name of a host value. -/
inductive ValueType where
  | null | boolean | integer | float | string | array | object | lambda
  | host (name : String)
deriving DecidableEq, Repr

def ValueType.name : ValueType → String
  | null => "null"
  | boolean => "boolean"
  | integer => "integer"
  | float => "float"
  | string => "string"
  | array => "array"
  | object => "object"
  | lambda => "lambda"
  | host name => name

/-- The type of a value and the type its elements have in common, if they have one. -/
structure Shape where
  type : ValueType
  element : Option ValueType
deriving DecidableEq, Repr

/-- The value of a literal. -/
def Literal.toValue : Literal → Value
  | .null => .null
  | .bool b => .bool b
  | .number (.int n) => .int n
  | .number (.float x) => .float x
  | .string s => .string s

/-- A member of a host value, listed or not. -/
def Host.get? (h : Host) (key : String) : Option Value :=
  (h.members.lookup key).or (h.hidden.lookup key)

namespace Value

def type : Value → ValueType
  | null => .null
  | bool _ => .boolean
  | int _ => .integer
  | float _ => .float
  | string _ => .string
  | array _ => .array
  | object _ => .object
  | lambda _ => .lambda
  | host h => .host h.typeName

/-- The type that all the values have, if there are any and they have one. -/
def commonType : List Value → Option ValueType
  | [] => none
  | v :: rest => if rest.all fun w => w.type == v.type then some v.type else none

def shape (v : Value) : Shape :=
  { type := v.type
    element := match v with
      | array items => commonType items
      | object members => commonType (members.map Prod.snd)
      | _ => none }

def isNull : Value → Bool
  | null => true
  | _ => false

/-- The value of a number as a double. -/
def asFloat? : Value → Option Float
  | int n => some n.toFloat
  | float x => some x
  | _ => none

/-- The value of a number as a whole number: doubles are rounded, a half away from zero, and clipped
to the range. -/
def asInt? : Value → Option Int64
  | int n => some n
  | float x => some x.round.toInt64
  | _ => none

def asString? : Value → Option String
  | string s => some s
  | _ => none

/-- The element with the given index; negative ones count from the end. -/
def element? (items : List Value) (index : Int) : Option Value :=
  if 0 ≤ index then items[index.toNat]?
  else if index.natAbs ≤ items.length then items[items.length - index.natAbs]?
  else none

/-- Members that values have without listing them: the elements and the length of an array, the
length of a string. -/
def intrinsic? (v : Value) (key : String) : Option Value :=
  match v with
  | array items =>
    if key == "Count" || key == "Length" then some (int (Int64.ofNat items.length))
    else do
      let index ← readInt64? key.toList
      element? items index.toInt
  | string s => if key == "Length" then some (int (Int64.ofNat s.length)) else none
  | _ => none

/-- The member with the given key. -/
def get? (v : Value) (key : String) : Option Value :=
  match v with
  | object members => members.lookup key
  | host h => h.get? key
  | _ => v.intrinsic? key

/-- The members in order, with the indices of an array as keys. -/
def members : Value → List (String × Value)
  | object members => members
  | array items => items.zipIdx.map fun (v, i) => (toString i, v)
  | host h => h.members
  | _ => []

/-- Whether the value counts as false by default: null, false, zero, and all that is empty. -/
def isFalsey : Value → Bool
  | null => true
  | bool b => !b
  | int n => n == 0
  | float x => x == 0.0
  | string s => s.isEmpty
  | array items => items.isEmpty
  | object members => members.isEmpty
  | lambda _ | host _ => false

end Value

/-! ## Equality -/

mutual

/-- Whether two values are equal. The order of members does not matter; lambdas and host values are
equal only to themselves, and what is not a number not even to itself. -/
def Value.same : Value → Value → Bool
  | .null, .null => true
  | .bool a, .bool b => a == b
  | .int a, .int b => a == b
  | .float a, .float b => a == b
  | .string a, .string b => a == b
  | .array as, .array bs => Value.sameAll as bs
  | .object as, .object bs => as.length == bs.length && Value.sameMembers as bs
  | .lambda a, .lambda b => a.id == b.id
  | .host a, .host b => a.id == b.id
  | _, _ => false

def Value.sameAll : List Value → List Value → Bool
  | [], [] => true
  | a :: as, b :: bs => a.same b && Value.sameAll as bs
  | _, _ => false

/-- Whether each of the members has an equal one with its key. -/
def Value.sameMembers : List (String × Value) → List (String × Value) → Bool
  | [], _ => true
  | (k, a) :: as, bs =>
    (match bs.lookup k with
      | some b => a.same b
      | none => false) && Value.sameMembers as bs

end

/-! ## Contexts -/

namespace Context

/-- The outermost context. -/
def ofValue (value : Value) : Context :=
  ⟨value, "~", true, none⟩

/-- A member of the context, reached by a path. -/
def child (c : Context) (key : String) (value : Value) : Context :=
  ⟨value, key, true, some c⟩

/-- A computed value that stands in the place of the context. -/
def synthetic (c : Context) (value : Value) : Context :=
  ⟨value, c.key, false, c.parent⟩

/-- The outermost ancestor. -/
def root : Context → Context
  | ⟨value, key, natural, none⟩ => ⟨value, key, natural, none⟩
  | ⟨_, _, _, some p⟩ => p.root

/-- The context itself if it is natural, or else the nearest natural ancestor. Where there is none it
is the outermost one. -/
def nearestNatural : Context → Context
  | ⟨value, key, true, parent⟩ => ⟨value, key, true, parent⟩
  | ⟨value, key, false, none⟩ => ⟨value, key, false, none⟩
  | ⟨_, _, false, some p⟩ => p.nearestNatural

/-- The parent of the nearest natural context; at the top, that context. -/
def enclosing (c : Context) : Context :=
  c.nearestNatural.parent.getD c.nearestNatural

/-- Number of ancestors. -/
def depth : Context → Nat
  | ⟨_, _, _, none⟩ => 0
  | ⟨_, _, _, some p⟩ => p.depth + 1

/-- The keys from the outermost context to this one. -/
def keys : Context → List String
  | ⟨_, key, _, none⟩ => [key]
  | ⟨_, key, _, some p⟩ => p.keys ++ [key]

/-- The keys with dots between them. -/
def path (c : Context) : String :=
  ".".intercalate c.keys

end Context

end Stencil
