import Stencil.Number.Binary64

/-!
# Decimals of 96 bits

Arithmetic between a whole number and a double is done in decimal, so that `1 + 0.1` shows no noise.
A decimal is a coefficient of at most 96 bits with 0 to 28 digits after the point. Sums, differences
and products are exact until they no longer fit; then digits after the point are given up, with one
rounding to the nearest and halves to the even neighbour.
-/

namespace Stencil

/-- The decimal `± coefficient / 10 ^ scale`. -/
structure Decimal where
  negative : Bool
  coefficient : Nat
  scale : Nat
deriving DecidableEq, Repr

namespace Decimal

/-- Coefficients are below this bound. -/
def bound : Nat :=
  twoTo 96

/-- The most digits after the point. -/
def maxScale : Nat :=
  28

def zero : Decimal :=
  ⟨false, 0, 0⟩

def ofInt (n : Int) : Decimal :=
  ⟨n < 0, n.natAbs, 0⟩

/-- A number `coefficient · 10 ^ tens` on the way from binary to decimal. -/
structure Shifted where
  coefficient : Nat
  tens : Int

/-- The number without its last decimal digit, rounded by it. -/
def Shifted.dropDigit (x : Shifted) : Shifted :=
  let c := x.coefficient / 10
  ⟨if 5 ≤ x.coefficient % 10 then c + 1 else c, x.tens + 1⟩

/-- `n` times the fivefold. The coefficient is halved instead, and the power of ten raised, where
that is exact or where the fivefold would not fit. -/
def Shifted.timesFives : Nat → Shifted → Shifted
  | 0, x => x
  | n + 1, x =>
    if x.coefficient % 2 == 0 || bound ≤ x.coefficient * 5 then
      timesFives n ⟨x.coefficient / 2, x.tens + 1⟩
    else timesFives n { x with coefficient := x.coefficient * 5 }

/-- `n` times the fifth part. The coefficient is doubled instead, and the power of ten lowered, while
there is room. There is no result if the number is bound to be too large. -/
def Shifted.overFives? : Nat → Shifted → Option Shifted
  | 0, x => some x
  | n + 1, x =>
    if x.coefficient < twoTo 95 then overFives? n ⟨x.coefficient * 2, x.tens - 1⟩
    else if (n : Int) + 1 < x.tens * 2 then none
    else overFives? n { x with coefficient := x.coefficient / 5 }

/-- The coefficient times `10 ^ n`, if it fits. -/
def timesTens? : Nat → Nat → Option Nat
  | 0, c => some c
  | n + 1, c => if c * 10 < bound then timesTens? n (c * 10) else none

/-- Drops up to `n` digits, one by one. Nothing is left of a single digit. -/
def Shifted.dropDigits : Nat → Shifted → Shifted
  | 0, x => x
  | n + 1, x => if x.coefficient < 10 then ⟨0, 0⟩ else dropDigits n x.dropDigit

/-- Drops up to `n` digits while the coefficient has more than 52 bits. -/
def Shifted.dropPrecision : Nat → Shifted → Shifted
  | 0, x => x
  | n + 1, x => if twoTo 52 ≤ x.coefficient then dropPrecision n x.dropDigit else x

/-- Drops up to `n` zeros at the end. -/
def Shifted.dropZeros : Nat → Shifted → Shifted
  | 0, x => x
  | n + 1, x =>
    if x.coefficient % 10 == 0 then dropZeros n ⟨x.coefficient / 10, x.tens + 1⟩ else x

/-- The decimal that stands for a double: about 15 digits of it. None for infinities, for what is not
a number, and beyond the range. -/
def ofFloat? (x : Float) : Option Decimal := do
  let p ← floatParts? x
  if p.significand == 0 then some ⟨p.negative, 0, 0⟩
  else
    -- `2 ^ e` is `10 ^ e` over `5 ^ e`
    let start : Shifted := ⟨p.significand, p.exponent⟩
    let y ←
      if p.exponent < 0 then some (start.timesFives (-p.exponent).toNat)
      else start.overFives? p.exponent.toNat
    let y ←
      if 0 < y.tens then
        (timesTens? y.tens.toNat y.coefficient).map fun c => { coefficient := c, tens := 0 }
      else some y
    let y := y.dropDigits (-28 - y.tens).toNat
    let y := y.dropPrecision (-y.tens).toNat
    let y := y.dropZeros (-y.tens).toNat
    some ⟨p.negative, y.coefficient, (-y.tens).toNat⟩

/-- `10 ^ n` by repeated squaring in doubles, which is inexact for large `n`. -/
def powerOfTen (n : Nat) : Float :=
  go 6 n 1.0 10.0
where
  go : Nat → Nat → Float → Float → Float
    | 0, _, r, _ => r
    | fuel + 1, n, r, a =>
      let r := if n % 2 == 1 then r * a else r
      if n / 2 == 0 then r else go fuel (n / 2) r (a * a)

/-- The double nearest to a natural number. -/
def floatOfNat (n : Nat) : Float :=
  nearestFloat false n 1

/-- The double for a decimal: whole part and fraction are added in doubles and the sum is rounded to
the digits of the decimal. -/
def toFloat (d : Decimal) : Float :=
  if d.scale == 0 then floatOfInt (if d.negative then -d.coefficient else d.coefficient)
  else
    let p := tenTo d.scale
    let whole := floatOfNat (d.coefficient / p)
    let fraction := floatOfNat (d.coefficient % p) / floatOfNat p
    let value :=
      if fraction == 0 then whole
      else
        let unit := powerOfTen d.scale
        ((whole + fraction) * unit).round / unit
    if d.negative then -value else value

/-- The decimal nearest to `± coefficient / 10 ^ scale`: as many digits after the point as fit. There
is none if the whole part does not fit. -/
def fit (negative : Bool) (coefficient scale : Nat) : Option Decimal :=
  let first := scale - maxScale
  (List.range (scale - first + 1)).findSome? fun n =>
    let dropped := first + n
    let c := divHalfEven coefficient (tenTo dropped)
    if c < bound then some ⟨negative, c, scale - dropped⟩ else none

/-- The coefficient at a larger scale. -/
def coefficientAt (d : Decimal) (scale : Nat) : Nat :=
  d.coefficient * tenTo (scale - d.scale)

def signed (negative : Bool) (n : Nat) : Int :=
  if negative then -(n : Int) else n

def add (a b : Decimal) : Option Decimal :=
  let scale := max a.scale b.scale
  let sum := signed a.negative (a.coefficientAt scale) + signed b.negative (b.coefficientAt scale)
  fit (sum < 0) sum.natAbs scale

def sub (a b : Decimal) : Option Decimal :=
  a.add { b with negative := !b.negative }

def mul (a b : Decimal) : Option Decimal :=
  if a.coefficient == 0 || b.coefficient == 0 then some zero
  else fit (a.negative != b.negative) (a.coefficient * b.coefficient) (a.scale + b.scale)

/-- The remainder has the sign of the dividend. -/
def rem (a b : Decimal) : Option Decimal :=
  if b.coefficient == 0 then none
  else
    let scale := max a.scale b.scale
    some ⟨a.negative, a.coefficientAt scale % b.coefficientAt scale, scale⟩

/-- The most further digits, up to nine, for which quotient and scale stay within bounds. -/
def furtherDigits (q : Nat) (scale : Int) : Nat :=
  ((List.range 9).takeWhile fun (p : Nat) =>
    scale + (p : Int) < maxScale && q * tenTo (p + 1) < bound).length

/-- Long division, several digits at a time: the quotient so far, its scale, the remainder, and
whether the quotient may end in zeros that have to go. There is no result if the quotient does not
fit. -/
def divLoop (divisor : Nat) : Nat → Nat → Int → Nat → Bool → Option (Nat × Int × Bool)
  | 0, _, _, _, _ => none
  | fuel + 1, q, scale, r, unscale =>
    if r == 0 && 0 ≤ scale then some (q, scale, unscale)
    else
      let p := if r == 0 then min 9 (-scale).toNat else furtherDigits q scale
      let unscale := unscale || r != 0
      if r != 0 && scale + (p : Int) < 0 && p < 9 then none
      else if r != 0 && p == 0 then
        let q := if divisor < 2 * r || (2 * r == divisor && q % 2 == 1) then q + 1 else q
        if q == bound then
          if scale - 1 < 0 then none else some (bound / 10 + 1, scale - 1, unscale)
        else some (q, scale, unscale)
      else
        let scale := scale + (p : Int)
        let q := q * tenTo p
        let r := r * tenTo p
        if bound ≤ q then none
        else
          let q := q + r / divisor
          let r := r % divisor
          if bound ≤ q then
            if scale - 1 < 0 then none
            else
              let k := q % 10
              let q := q / 10
              some (if 5 < k || (k == 5 && (r != 0 || q % 2 == 1)) then q + 1 else q, scale - 1,
                unscale)
          else divLoop divisor fuel q scale r unscale

/-- Drops `n` zeros if there are so many, tested on the low bits first. -/
def dropZeros (n mask : Nat) (d : Nat × Nat) : Nat × Nat :=
  if d.1 % mask == 0 && n ≤ d.2 && d.1 % tenTo n == 0 then (d.1 / tenTo n, d.2 - n) else d

/-- Drops most zeros at the end of a quotient. -/
def unscaleQuotient (d : Nat × Nat) : Nat × Nat :=
  let d := (List.range 4).foldl (fun d _ => dropZeros 8 (twoTo 32) d) d
  dropZeros 1 2 (dropZeros 2 4 (dropZeros 4 16 d))

def div (a b : Decimal) : Option Decimal :=
  if b.coefficient == 0 then none
  else if a.coefficient == 0 then some zero
  else do
    let (q, scale, unscale) ←
      divLoop b.coefficient 64 (a.coefficient / b.coefficient) ((a.scale : Int) - b.scale)
        (a.coefficient % b.coefficient) false
    let d := (q, scale.toNat)
    let (q, scale) := if unscale then unscaleQuotient d else d
    some ⟨a.negative != b.negative, q, scale⟩

/-- The decimal rounded to `digits` digits after the point, halves to the even neighbour. A result of
zero has no sign. -/
def round (d : Decimal) (digits : Nat) : Decimal :=
  if digits < d.scale then
    let c := divHalfEven d.coefficient (tenTo (d.scale - digits))
    ⟨d.negative && c != 0, c, digits⟩
  else d

/-- Whether there is nothing after the point. -/
def isWhole (d : Decimal) : Bool :=
  d.coefficient % tenTo d.scale == 0

/-- The number without what is after the point. -/
def truncate (d : Decimal) : Int :=
  signed d.negative (d.coefficient / tenTo d.scale)

/-- The decimal with the given digits before and after the point. Digits that do not fit are rounded
away, a half upwards; there is none if the whole part does not fit. -/
def ofDigits? (negative : Bool) (whole fraction : List Nat) : Option Decimal :=
  let digits := whole ++ fraction
  let value (ds : List Nat) := ds.foldl (fun n d => 10 * n + d) 0
  let most := min fraction.length maxScale
  (List.range (most + 1)).findSome? fun dropped =>
    let scale := most - dropped
    let cut := whole.length + scale
    let c := value (digits.take cut) + (if 5 ≤ digits.getD cut 0 then 1 else 0)
    if c < bound then some ⟨negative && c != 0, c, scale⟩ else none

end Decimal

end Stencil
