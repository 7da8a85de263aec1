import Stencil.Text.WordTable

/-!
# Word characters

Names are made of word characters: letters, numbers and the underscore, over all of Unicode.
-/

namespace Stencil.Text

/-- Letters and numbers: the Unicode property `Alphabetic`, or a general category of number. -/
def isAlphanumeric (c : Char) : Bool :=
  if c.toNat < 0x80 then c.isAlphanum else inRanges c.toNat wordRanges

/-- Characters that a name is made of. -/
def isWord (c : Char) : Bool :=
  isAlphanumeric c || c == '_'

end Stencil.Text
