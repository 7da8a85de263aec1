/-!
# Names of formatters

Which names a formatter may have, and when the name at a call is that of a formatter. Case is
ignored for the letters a to z only.
-/

namespace Stencil

/-- How the names at calls are compared with those of formatters. -/
inductive NameMatching where
  | caseSensitive
  | ignoreCase
deriving DecidableEq, Repr

/-- A name with the capitals among A to Z made small. -/
def foldCase (name : String) : String :=
  String.ofList (name.toList.map Char.toLower)

/-- Whether a call by `requested` means the formatter or parameter named `registered`. -/
def NameMatching.admits (matching : NameMatching) (registered requested : String) : Bool :=
  match matching with
  | .caseSensitive => registered == requested
  | .ignoreCase => foldCase registered == foldCase requested

/-- A formatter's name has letters, digits and underscores, among them a letter, and does not begin
with a digit. -/
def isFormatterName (name : String) : Bool :=
  let cs := name.toList
  (cs.head?.any fun c => c.isAlpha || c == '_') && (cs.all fun c => c.isAlphanum || c == '_')
    && cs.any Char.isAlpha

/-- Names that match in either mode are the same but for case. -/
theorem foldCase_eq_of_admits {matching : NameMatching} {registered requested : String}
    (h : matching.admits registered requested = true) :
    foldCase registered = foldCase requested := by
  cases matching with
  | caseSensitive =>
    have : registered = requested := by simpa [NameMatching.admits] using h
    rw [this]
  | ignoreCase => simpa [NameMatching.admits] using h

end Stencil
