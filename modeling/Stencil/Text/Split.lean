/-!
# Texts in texts

Where one text occurs in another, and the pieces between its occurrences.
-/

namespace Stencil.Text

/-- Whether `part` occurs in the text. -/
def occursIn (part : List Char) : List Char → Bool
  | [] => part.isEmpty
  | c :: rest => part.isPrefixOf (c :: rest) || occursIn part rest

/-- Puts a character in front of the first piece. -/
def consPiece (c : Char) : List (List Char) → List (List Char)
  | [] => [[c]]
  | piece :: rest => (c :: piece) :: rest

/-- The pieces of a text between the occurrences of `separator`, where the next `skip` characters
still belong to an occurrence. -/
def piecesFrom (separator : List Char) : Nat → List Char → List (List Char)
  | _, [] => [[]]
  | skip + 1, _ :: rest => piecesFrom separator skip rest
  | 0, c :: rest =>
    if separator.isPrefixOf (c :: rest) then
      [] :: piecesFrom separator (separator.length - 1) rest
    else consPiece c (piecesFrom separator 0 rest)

/-- The pieces of a text between the occurrences of a separator, taken from the left without
overlaps. An empty separator stands between any two characters. -/
def pieces (separator text : List Char) : List (List Char) :=
  if separator.isEmpty then text.map fun c => [c] else piecesFrom separator 0 text

end Stencil.Text
