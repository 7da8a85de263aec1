import Stencil.Number.Reading

/-!
# Number literals

A literal without a point is a whole number if it fits into 64 bits; one with a point is read as a
decimal and stands for the double nearest to it. What fits neither is read as a double.
-/

namespace Stencil

/-- The value of a number literal. -/
inductive Numeral where
  | int (n : Int64)
  | float (x : Float)

/-- The value of a literal, if it has a finite one. -/
def Numeral.ofLiteral? (literal : String) : Option Numeral :=
  let text := literal.toList
  let exact : Option Numeral :=
    if text.contains '.' then (readDecimal? text).map fun d => .float d.toFloat
    else (readInt64? text).map .int
  exact.or do
    let x ← readFloat? text
    if x.isFinite then some (.float x) else none

end Stencil
