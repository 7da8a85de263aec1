/-!
# Doubles as whole numbers and powers of two

A finite double is a whole number times a power of two. Here doubles are taken apart, and fractions
of whole numbers are rounded to the nearest double, so that the places where a rounding happens can
be told from those that are exact.
-/

namespace Stencil

/-- `2 ^ n`. -/
def twoTo (n : Nat) : Nat :=
  Nat.pow 2 n

/-- `10 ^ n`. -/
def tenTo (n : Nat) : Nat :=
  Nat.pow 10 n

/-- A finite double: `± significand · 2 ^ exponent`. -/
structure FloatParts where
  negative : Bool
  significand : Nat
  exponent : Int
deriving DecidableEq, Repr

/-- The parts of a finite double; none for infinities and for what is not a number. -/
def floatParts? (x : Float) : Option FloatParts :=
  let bits := x.toBits.toNat
  let negative := bits / twoTo 63 == 1
  let field : Nat := bits / twoTo 52 % twoTo 11
  let fraction := bits % twoTo 52
  if field == 2047 then none
  else if field == 0 then some ⟨negative, fraction, -1074⟩
  else some ⟨negative, twoTo 52 + fraction, (field : Int) - 1075⟩

/-- The quotient, rounded to the nearest whole number; a half goes to the even neighbour. -/
def divHalfEven (num den : Nat) : Nat :=
  let q := num / den
  let twice := 2 * (num % den)
  if den < twice || (twice == den && q % 2 == 1) then q + 1 else q

/-- The quotient divided by `2 ^ e`, as a fraction. -/
def scaleDown (num den : Nat) (e : Int) : Nat × Nat :=
  if 0 ≤ e then (num, den * twoTo e.toNat) else (num * twoTo (-e).toNat, den)

/-- The double `± significand · 2 ^ exponent`, for a significand of at most 53 bits, or `2 ^ 53`, and
an exponent of at least -1074 that is larger only if all 53 bits are used. Beyond the largest double
lies infinity. -/
def floatOfParts (p : FloatParts) : Float :=
  let magnitude :=
    if p.significand < twoTo 52 then p.significand
    else (p.exponent + 1075).toNat * twoTo 52 + (p.significand - twoTo 52)
  let bits := min magnitude (2047 * twoTo 52)
  Float.ofBits (UInt64.ofNat (if p.negative then twoTo 63 + bits else bits))

/-- The double nearest to `± num / den`; of two equally near ones, the one with an even significand.
A zero keeps its sign. -/
def nearestFloat (negative : Bool) (num den : Nat) : Float :=
  if num == 0 then floatOfParts ⟨negative, 0, -1074⟩
  else
    -- `num / den` lies between `2 ^ 52` and `2 ^ 54` times `2 ^ guess`
    let guess : Int := (num.log2 : Int) - (den.log2 : Int) - 53
    let (n, d) := scaleDown num den guess
    let exponent := max (-1074) (if twoTo 53 ≤ n / d then guess + 1 else guess)
    let (n, d) := scaleDown num den exponent
    floatOfParts ⟨negative, divHalfEven n d, exponent⟩

/-- The double nearest to a whole number. -/
def floatOfInt (n : Int) : Float :=
  nearestFloat (n < 0) n.natAbs 1

/-- The remainder of the division of two doubles, which is always exact: it has the sign of the
dividend and is smaller than the divisor. -/
def floatRem (a b : Float) : Float :=
  match floatParts? a, floatParts? b with
  | some p, some q =>
    if q.significand == 0 then 0.0 / 0.0
    else
      let e := min p.exponent q.exponent
      let x := p.significand * twoTo (p.exponent - e).toNat
      let y := q.significand * twoTo (q.exponent - e).toNat
      let (num, den) := scaleDown (x % y) 1 (-e)
      nearestFloat p.negative num den
  | some _, none => if b.isNaN then b else a
  | none, _ => 0.0 / 0.0

end Stencil
