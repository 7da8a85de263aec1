import Stencil.Formatter.Signature
import Stencil.Value.Arithmetic
import Stencil.Value.Order

/-!
# Formatters on arrays and objects
-/

namespace Stencil.Builtin

/-- Number of elements or members. -/
def count : Value → Value
  | .array items => .int (Int64.ofNat items.length)
  | .object members => .int (Int64.ofNat members.length)
  | _ => .int 0

/-- An overload on arrays; on what a conversion made of something else it gives `otherwise`. -/
def onArray (name : String) (element : ParamType) (params : List Param) (otherwise : Value)
    (f : Call → List Value → Value) : Signature :=
  .computing name (.array element) params fun c =>
    match c.value with
    | .array items => f c items
    | _ => otherwise

/-- An overload that has a lambda invoked on the elements of an array. -/
def onEach (name parameter : String)
    (f : Call → Lambda → List Value → Routine (List Value)) : Signature :=
  .waiting name (.array .any) [.needed parameter .lambda] fun c =>
    match c.value, c.argument 0 with
    | .array items, .lambda l => (f c l items).map .array
    | _, _ => .done .null

def collections : List Signature :=
  [ .computing "Length" (.array .any) [] fun c => count c.value,
    .computing "Count" (.array .any) [] fun c => count c.value,
    .computing "Count" (.object .any) [] fun c => count c.value,
    onArray "Contains" .any [.needed "item" .any] (.bool false) fun c items =>
      .bool (items.any fun item => item.looselySame (c.argument 0)),
    onArray "Join" .any [.default "separator" .string (.string ", ")] (.string "") fun c items =>
      .string ((c.argument 0).text.intercalate (items.map Value.text)),
    onArray "First" .any [] .null fun _ items => items.head?.getD .null,
    onArray "Last" .any [] .null fun _ items => items.getLast?.getD .null,
    onArray "Sum" .number [] .null fun _ items =>
      items.foldl Arithmetic.add.apply (.int 0),
    onEach "Select" "selector" fun _ l items => Routine.callEach l items,
    onEach "Where" "predicate" fun c l items => Routine.keepEach l c.isTruthy items ]

end Stencil.Builtin
