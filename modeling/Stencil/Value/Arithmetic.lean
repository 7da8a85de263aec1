import Stencil.Number.Decimal
import Stencil.Value

/-!
# Arithmetic on values

Whole numbers stay whole where the result is one of 64 bits, and become doubles where it is not. A
whole number and a double meet as decimals, so that no binary rounding shows in the result, and a
whole result becomes a whole number again. Only where that is impossible both are taken as doubles.
Division by zero gives null.
-/

namespace Stencil

inductive Arithmetic where
  | add | subtract | multiply | divide | modulus | power
deriving DecidableEq, Repr

namespace Arithmetic

/-- A power with a bounded exponent: only -1, 0 and 1 have powers of 64 bits beyond the 63rd, and
those depend only on whether the exponent is even. -/
def boundedPower (a : Int) (n : Nat) : Int :=
  a.pow (if n < 64 then n else 64 + n % 2)

/-- The exact result on whole numbers, if there is one. A remainder has the sign of the dividend. -/
def exactResult (op : Arithmetic) (a b : Int) : Option Int :=
  match op with
  | add => some (a + b)
  | subtract => some (a - b)
  | multiply => some (a * b)
  | divide => if b ≠ 0 ∧ a.tmod b = 0 then some (a.tdiv b) else none
  | modulus => if b ≠ 0 then some (a.tmod b) else none
  | power => if 0 ≤ b ∧ b < twoTo 32 then some (boundedPower a b.toNat) else none

/-- Whether the operation has no result for a zero on the right. -/
def divides : Arithmetic → Bool
  | divide | modulus => true
  | add | subtract | multiply | power => false

/-- The result on doubles, where nothing is divided by zero. -/
def floatResult (op : Arithmetic) (a b : Float) : Float :=
  match op with
  | add => a + b
  | subtract => a - b
  | multiply => a * b
  | divide => a / b
  | modulus => floatRem a b
  | power => a ^ b

def onFloats (op : Arithmetic) (a b : Float) : Value :=
  if op.divides && b == 0.0 then .null else .float (op.floatResult a b)

def onWholes (op : Arithmetic) (a b : Int64) : Value :=
  if op.divides && b == 0 then .null
  else
    match (op.exactResult a.toInt b.toInt).bind int64? with
    | some n => .int n
    | none => .float (op.floatResult a.toFloat b.toFloat)

def onDecimals? (op : Arithmetic) (a b : Decimal) : Option Decimal :=
  match op with
  | add => a.add b
  | subtract => a.sub b
  | multiply => a.mul b
  | divide => a.div b
  | modulus => a.rem b
  | power => none

/-- A decimal as a value: a whole number where it is one. -/
def ofDecimal (d : Decimal) : Value :=
  match if d.isWhole then int64? d.truncate else none with
  | some n => .int n
  | none => .float d.toFloat

/-- The result on two numbers; null if one of the values is none. -/
def apply (op : Arithmetic) : Value → Value → Value
  | .int a, .int b => op.onWholes a b
  | .float a, .float b => op.onFloats a b
  | .int a, .float b =>
    match (Decimal.ofFloat? b).bind (op.onDecimals? (.ofInt a.toInt)) with
    | some d => ofDecimal d
    | none => op.onFloats a.toFloat b
  | .float a, .int b =>
    match (Decimal.ofFloat? a).bind fun a => op.onDecimals? a (.ofInt b.toInt) with
    | some d => ofDecimal d
    | none => op.onFloats a b.toFloat
  | _, _ => .null

end Arithmetic

/-- Moves the bits of a number. There is no result unless the distance is from 0 to 63. -/
def shiftBits (toLeft : Bool) (a distance : Int64) : Value :=
  if 0 ≤ distance.toInt ∧ distance.toInt < 64 then
    .int (if toLeft then a <<< distance else a >>> distance)
  else .null

/-- A double rounded to so many digits after the point, at most 28. Without digits the result is a
whole number, where it is one of 64 bits. What is no decimal stays as it is. -/
def roundFloat (x : Float) (digits : Int) : Value :=
  match Decimal.ofFloat? x with
  | none => .float x
  | some d =>
    let digits := min digits.toNat 28
    let rounded := d.round digits
    match if digits = 0 then int64? rounded.truncate else none with
    | some n => .int n
    | none => .float rounded.toFloat

end Stencil
