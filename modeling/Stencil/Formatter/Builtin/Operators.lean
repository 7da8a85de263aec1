import Stencil.Formatter.Signature
import Stencil.Operator
import Stencil.Value.Arithmetic
import Stencil.Value.Order

/-!
# Operators as formatters

Every operator calls a formatter on its left operand. The overloads here say what operators do on
numbers, strings, arrays and truth values; more overloads take them to other types.
-/

namespace Stencil.Builtin

/-- An overload of an operator with two operands of one type. -/
def binary (op : Operator) (type : ParamType) (f : Call → Value → Value → Value) : Signature :=
  .computing op.formatterName type [.needed "other" type] fun c => f c c.value (c.argument 0)

def arithmetic (op : Operator) (a : Arithmetic) : Signature :=
  binary op .number fun _ => a.apply

/-- A question about the order of two numbers or two strings. -/
def comparison (op : Operator) (type : ParamType) (holds : Ordering → Bool) : Signature :=
  binary op type fun _ a b =>
    match a.compare? b with
    | some o => .bool (holds o)
    | none => .null

/-- The one of two numbers or strings that the order picks; the left one if they are equal. -/
def selection (op : Operator) (type : ParamType) (keepsLeft : Ordering → Bool) : Signature :=
  binary op type fun _ a b =>
    match a.compare? b with
    | some o => if keepsLeft o then a else b
    | none => .null

def shift (op : Operator) (toLeft : Bool) : Signature :=
  binary op .integer fun _ a b => shiftBits toLeft (a.asInt?.getD 0) (b.asInt?.getD 0)

/-- The elements of an array; nothing else has any. -/
def elements : Value → List Value
  | .array items => items
  | _ => []

def operators : List Signature :=
  [ arithmetic .add .add,
    binary .add .string fun _ a b => .string (a.text ++ b.text),
    binary .add (.array .any) fun _ a b => .array (elements a ++ elements b),
    arithmetic .subtract .subtract,
    arithmetic .multiply .multiply,
    arithmetic .divide .divide,
    arithmetic .modulus .modulus,
    arithmetic .power .power,
    shift .shiftLeft true,
    shift .shiftRight false,
    binary .equal .any fun _ a b => .bool (a.looselySame b),
    binary .notEqual .any fun _ a b => .bool (!a.looselySame b),
    comparison .less .number Ordering.isLT,
    comparison .less .string Ordering.isLT,
    comparison .greater .number Ordering.isGT,
    comparison .greater .string Ordering.isGT,
    comparison .lessOrEqual .number Ordering.isLE,
    comparison .lessOrEqual .string Ordering.isLE,
    comparison .greaterOrEqual .number Ordering.isGE,
    comparison .greaterOrEqual .string Ordering.isGE,
    binary .and .any fun c a b => .bool (c.isTruthy a && c.isTruthy b),
    binary .or .any fun c a b => .bool (c.isTruthy a || c.isTruthy b),
    .computing Operator.not.formatterName .any [] fun c => .bool (!c.isTruthy c.value),
    binary .coalesce .any fun _ a b => if a.isNull then b else a,
    selection .larger .number Ordering.isGE,
    selection .larger .string Ordering.isGE,
    selection .smaller .number Ordering.isLE,
    selection .smaller .string Ordering.isLE ]

end Stencil.Builtin
