import Stencil.Number.Binary64

/-!
# The fewest digits that read back

A double stands for an interval of numbers, those nearer to it than to its neighbours. Its shortest
decimal is the one with the fewest digits in that interval and, among those, the nearest to it. How
digits and exponent are then laid out differs from one output to the next and is given by a
`FloatLayout`.
-/

namespace Stencil

/-- Which of two equally near decimals is taken. -/
inductive TieRule where
  | up
  | even
deriving DecidableEq, Repr

/-- The decimal `digits · 10 ^ exponent`. -/
structure DecimalDigits where
  digits : Nat
  exponent : Int
deriving DecidableEq, Repr

/-- The numbers that read back as a double, all in units of a quarter of its last place. -/
structure ReadBack where
  low : Nat
  value : Nat
  high : Nat
  /-- Whether the ends themselves read back. -/
  closed : Bool

/-- The interval of the double `significand · 2 ^ exponent`. Below a power of two the neighbours are
nearer. -/
def ReadBack.ofParts (p : FloatParts) : ReadBack :=
  let m := p.significand
  { low := if m == twoTo 52 && -1074 < p.exponent then 4 * m - 1 else 4 * m - 2
    value := 4 * m
    high := 4 * m + 2
    closed := m % 2 == 0 }

/-- The multiple of `10 ^ e` in the interval that is nearest to the double, if there is one. Only the
two neighbours of the double on that grid need to be tried. -/
def ReadBack.onGrid? (r : ReadBack) (unit : Int) (tie : TieRule) (e : Int) : Option Nat :=
  -- interval and grid in one unit: `n · scale` against `k · step`
  let scale := twoTo unit.toNat * tenTo (-e).toNat
  let step := twoTo (-unit).toNat * tenTo e.toNat
  let value := r.value * scale
  let below := value / step
  let fits (k : Nat) : Bool :=
    let x := k * step
    if r.closed then r.low * scale ≤ x && x ≤ r.high * scale
    else r.low * scale < x && x < r.high * scale
  let down := 0 < below && fits below
  let up := fits (below + 1)
  if down && up then
    let twice := 2 * (value % step)
    if twice < step then some below
    else if step < twice then some (below + 1)
    else match tie with
      | .up => some (below + 1)
      | .even => some (if below % 2 == 0 then below else below + 1)
  else if down then some below
  else if up then some (below + 1)
  else none

/-- The decimal without the zeros that its digits end with. -/
def stripZeros : Nat → DecimalDigits → DecimalDigits
  | 0, d => d
  | fuel + 1, d =>
    if d.digits % 10 == 0 then stripZeros fuel ⟨d.digits / 10, d.exponent + 1⟩ else d

/-- Whether `m · 2 ^ q` is below `10 ^ e`. -/
def belowPowerOfTen (m : Nat) (q : Int) (e : Int) : Bool :=
  m * twoTo q.toNat * tenTo (-e).toNat < twoTo (-q).toNat * tenTo e.toNat

/-- The shortest decimal of a double other than zero; 17 digits always suffice. -/
def shortestDigits (tie : TieRule) (p : FloatParts) : DecimalDigits :=
  let r := ReadBack.ofParts p
  let guess := ((p.significand.log2 : Int) + p.exponent) * 30103 / 100000
  let top := ([guess, guess + 1].find? (belowPowerOfTen p.significand p.exponent)).getD (guess + 2)
  let found := (List.range 17).findSome? fun (n : Nat) =>
    let e := top - ((n : Int) + 1)
    (r.onGrid? (p.exponent - 2) tie e).map fun k => stripZeros 18 ⟨k, e⟩
  found.getD ⟨p.significand, 0⟩

/-- How the digits of a double are laid out. -/
structure FloatLayout where
  tie : TieRule
  /-- Decimal exponents below this one are written out, if given. -/
  least : Option Int
  /-- Decimal exponents above this one are written out, if given. -/
  greatest : Option Int
  /-- What follows a positional number without a fraction. -/
  whole : String
  /-- What introduces an exponent that is not negative. -/
  raised : String

/-- The digits with the point placed by the exponent. -/
def positional (whole : String) (digits : List Char) (exponent : Int) : String :=
  let point := exponent + digits.length
  if 0 ≤ exponent then
    String.ofList (digits ++ List.replicate exponent.toNat '0') ++ whole
  else if 0 < point then
    String.ofList (digits.take point.toNat ++ '.' :: digits.drop point.toNat)
  else
    String.ofList ("0.".toList ++ List.replicate (-point).toNat '0' ++ digits)

/-- The digits with the point after the first one, and the exponent. -/
def scientific (raised : String) (digits : List Char) (power : Int) : String :=
  let mantissa := match digits with
    | d :: e :: rest => d :: '.' :: e :: rest
    | short => short
  String.ofList mantissa
    ++ (if power < 0 then "e-" else raised) ++ toString power.natAbs

/-- The text of a double. -/
def FloatLayout.write (layout : FloatLayout) (x : Float) : String :=
  match floatParts? x with
  | none => if x.isNaN then "NaN" else if x < 0.0 then "-inf" else "inf"
  | some p =>
    let sign := if p.negative then "-" else ""
    if p.significand == 0 then sign ++ "0" ++ layout.whole
    else
      let d := shortestDigits layout.tie p
      let digits := Nat.toDigits 10 d.digits
      let power := d.exponent + digits.length - 1
      let small := layout.least.any (power < ·)
      let large := layout.greatest.any (· < power)
      sign ++ if small || large then scientific layout.raised digits power
        else positional layout.whole digits d.exponent

/-- The layout for rendering: digits and a point only. -/
def FloatLayout.plain : FloatLayout :=
  { tie := .up, least := none, greatest := none, whole := "", raised := "e" }

/-- The layout for inspection: a fraction always shows, and numbers far from one get an exponent. -/
def FloatLayout.inspected : FloatLayout :=
  { tie := .up, least := some (-4), greatest := some 15, whole := ".0", raised := "e" }

/-- The layout in documents. -/
def FloatLayout.document : FloatLayout :=
  { tie := .even, least := some (-5), greatest := some 15, whole := ".0", raised := "e+" }

end Stencil
