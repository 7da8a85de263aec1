import Stencil.Number.Decimal

/-!
# Reading numbers

Three grammars, all over ASCII: whole numbers of 64 bits, doubles (with exponents, infinities and
what is not a number), and decimals. A text either is such a number as a whole or is none.
-/

namespace Stencil

/-- The value of an ASCII digit. -/
def digitValue (c : Char) : Nat :=
  c.toNat - '0'.toNat

/-- The number written by the digits. -/
def natOfDigits (ds : List Char) : Nat :=
  ds.foldl (fun n d => 10 * n + digitValue d) 0

/-- The sign in front, and the rest. A plus is no sign of its own. -/
def splitSign : List Char → Bool × List Char
  | '-' :: rest => (true, rest)
  | '+' :: rest => (false, rest)
  | text => (false, text)

/-- Whether the text is made of at least one digit and nothing else. -/
def isDigits (text : List Char) : Bool :=
  !text.isEmpty && text.all Char.isDigit

/-- A whole number, of any size. -/
def readInt? (text : List Char) : Option Int :=
  let (negative, digits) := splitSign text
  if isDigits digits then some (Decimal.signed negative (natOfDigits digits)) else none

/-- The whole number as a word, if it fits. -/
def int64? (n : Int) : Option Int64 :=
  if -twoTo 63 ≤ n && n < twoTo 63 then some (Int64.ofInt n) else none

/-- A whole number of 64 bits. -/
def readInt64? (text : List Char) : Option Int64 :=
  (readInt? text).bind int64?

/-- The double nearest to `± digits · 10 ^ exponent`. Exponents so large that they decide alone are
not computed with. -/
def nearestDecimal (negative : Bool) (digits : Nat) (exponent : Int) : Float :=
  if digits == 0 then nearestFloat negative 0 1
  else
    let power := exponent + (Nat.toDigits 10 digits).length
    if 400 < power then floatOfParts ⟨negative, twoTo 52, 972⟩
    else if power < -400 then nearestFloat negative 0 1
    else if 0 ≤ exponent then nearestFloat negative (digits * tenTo exponent.toNat) 1
    else nearestFloat negative digits (tenTo (-exponent).toNat)

/-- The exponent after the digits of a double: none written counts as zero. -/
def readExponent? : List Char → Option Int
  | [] => some 0
  | e :: rest => if e == 'e' || e == 'E' then readInt? rest else none

/-- A double. -/
def readFloat? (text : List Char) : Option Float :=
  let (negative, body) := splitSign text
  let name := body.map Char.toLower
  if name == "inf".toList || name == "infinity".toList then
    some (if negative then -1.0 / 0.0 else 1.0 / 0.0)
  else if name == "nan".toList then some (0.0 / 0.0)
  else
    let whole := body.takeWhile Char.isDigit
    let (fraction, rest) := match body.dropWhile Char.isDigit with
      | '.' :: rest => (rest.takeWhile Char.isDigit, rest.dropWhile Char.isDigit)
      | rest => ([], rest)
    if whole.isEmpty && fraction.isEmpty then none
    else (readExponent? rest).map fun exponent =>
      nearestDecimal negative (natOfDigits (whole ++ fraction)) (exponent - fraction.length)

/-- A decimal: digits with at most one point among them. Underscores may stand after a digit. -/
def readDecimal? (text : List Char) : Option Decimal :=
  let (negative, body) := splitSign text
  let (lead, tail) := body.span fun c => !c.isDigit
  let plain := lead ++ tail.filter (· != '_')
  let whole := plain.takeWhile Char.isDigit
  let (fraction, rest) := match plain.dropWhile Char.isDigit with
    | '.' :: rest => (rest.takeWhile Char.isDigit, rest.dropWhile Char.isDigit)
    | rest => ([], rest)
  if rest.isEmpty && !(whole.isEmpty && fraction.isEmpty) then
    Decimal.ofDigits? negative (whole.map digitValue) (fraction.map digitValue)
  else none

end Stencil
