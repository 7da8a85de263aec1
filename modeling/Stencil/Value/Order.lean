import Stencil.Value

/-!
# Order of values

Numbers are compared by size and strings by their characters. Other values have no order, and what
is not a number has none either.
-/

namespace Stencil

namespace Value

/-- The order of two doubles, if they have one. -/
def compareFloats? (a b : Float) : Option Ordering :=
  if a < b then some .lt else if a == b then some .eq else if b < a then some .gt else none

/-- The order of two numbers or two strings. A whole number and a double are compared as doubles. -/
def compare? : Value → Value → Option Ordering
  | int a, int b => some (compare a.toInt b.toInt)
  | string a, string b => some (compare a b)
  | a, b => do compareFloats? (← a.asFloat?) (← b.asFloat?)

def isNumber : Value → Bool
  | int _ | float _ => true
  | _ => false

/-- Equality for which a whole number and a double of the same size are equal. -/
def looselySame (a b : Value) : Bool :=
  if a.isNumber && b.isNumber then a.compare? b == some .eq else a.same b

end Value

end Stencil
