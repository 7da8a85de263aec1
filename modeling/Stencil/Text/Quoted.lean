import Stencil.Text.PrintTable

/-!
# Quoted texts for inspection

The form in which values are shown to a developer: between double quotes, with everything that
cannot be seen spelled out.
-/

namespace Stencil.Text

/-- Lower case hexadecimal digits of a scalar value, without leading zeros. -/
def hexDigits (n : Nat) : List Char :=
  Nat.toDigits 16 n

/-- Whether the character is spelled by its number: it has no mark of its own, or it would join the
character before it. -/
def isSpelledOut (c : Char) : Bool :=
  if 0x20 ≤ c.toNat && c.toNat < 0x7F then false
  else inRanges c.toNat joiningRanges || inRanges c.toNat unprintableRanges

/-- One character between the quotes. -/
def quoteChar (c : Char) : List Char :=
  if c == '\x00' then ['\\', '0']
  else if c == '\t' then ['\\', 't']
  else if c == '\r' then ['\\', 'r']
  else if c == '\n' then ['\\', 'n']
  else if c == '"' then ['\\', '"']
  else if c == '\\' then ['\\', '\\']
  else if isSpelledOut c then ['\\', 'u', '\x7b'] ++ hexDigits c.toNat ++ ['\x7d']
  else [c]

/-- The text between double quotes. -/
def quoted (s : String) : String :=
  String.ofList (['"'] ++ s.toList.flatMap quoteChar ++ ['"'])

end Stencil.Text
