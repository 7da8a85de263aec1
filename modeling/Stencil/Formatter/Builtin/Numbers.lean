import Stencil.Formatter.Signature
import Stencil.Value.Arithmetic

/-!
# Formatters on numbers
-/

namespace Stencil.Builtin

/-- The number of digits after the point, none unless it is given. -/
def digits : Param :=
  .default "digits" .integer (.int 0)

/-- The absolute value of a whole number; the smallest one has none. -/
def absolute (v : Value) : Value :=
  match v.asInt? with
  | some n => ((int64? n.toInt.natAbs).map Value.int).getD .null
  | none => .null

def numbers : List Signature :=
  [ .computing "Round" .integer [digits] Call.value,
    .computing "Round" .float [digits] fun c =>
      roundFloat (c.value.asFloat?.getD 0.0) (((c.argument 0).asInt?.getD 0).toInt),
    .computing "Abs" .integer [] fun c => absolute c.value,
    .computing "Abs" .float [] fun c => .float (c.value.asFloat?.getD 0.0).abs ]

end Stencil.Builtin
