import Stencil.Text.Blank

/-!
# A place in a text that is being read

A cursor keeps the text, the number of characters read, and what is left. It may be moved past the
end, where nothing is left.
-/

namespace Stencil

structure Cursor where
  input : List Char
  /-- Characters read so far. -/
  position : Nat
  /-- What is left to read. -/
  rest : List Char
  rest_eq : rest = input.drop position

namespace Cursor

def ofText (text : List Char) : Cursor :=
  ⟨text, 0, text, rfl⟩

def isEof (c : Cursor) : Bool :=
  c.rest.isEmpty

def current? (c : Cursor) : Option Char :=
  c.rest.head?

/-- The character so many places further on. -/
def peek? (c : Cursor) (n : Nat) : Option Char :=
  c.rest[n]?

/-- The cursor `n` characters further on. -/
def advance (c : Cursor) (n : Nat) : Cursor :=
  ⟨c.input, c.position + n, c.rest.drop n, by rw [c.rest_eq, List.drop_drop]⟩

/-- The cursor at the next character that is not blank. -/
def skipBlanks (c : Cursor) : Cursor :=
  c.advance (c.rest.takeWhile Text.isBlank).length

/-- The next character that is not blank. -/
def peekPastBlanks? (c : Cursor) : Option Char :=
  c.rest.find? fun ch => !Text.isBlank ch

/-- Whether what is left begins with the given text. No text begins with nothing. -/
def startsWith (c : Cursor) (text : List Char) : Bool :=
  !text.isEmpty && text.isPrefixOf c.rest

/-- The characters from `start` up to `stop`, as far as there are any. -/
def slice (c : Cursor) (start stop : Nat) : List Char :=
  (c.input.take stop).drop start

end Cursor

end Stencil
