/-!
# Templates as text and tags

A tag begins with two opening braces and ends with the first two closing ones that do not stand in
a quoted string. In a string a backslash takes the character after it along. All else is text.
-/

namespace Stencil

/-- A piece of a template. -/
inductive Piece where
  | text (cs : List Char)
  /-- What is between the braces of a tag, and the offset at which it begins. -/
  | tag (offset : Nat) (body : List Char)
deriving DecidableEq, Repr

/-- A template in pieces. -/
structure Split where
  pieces : List Piece
  /-- The offset of opening braces that no closing ones belong to. All from there on is text. -/
  unclosed : Option Nat
deriving DecidableEq, Repr

/-- Puts a character in front of a tag's body. -/
def inBody (c : Char) (r : List Char × List Char) : List Char × List Char :=
  (c :: r.1, r.2)

/-- The body of a tag and what comes after its closing braces, if it has any. Within a string `quote`
is the delimiter that ends it. -/
def takeTag : Option Char → List Char → Option (List Char × List Char)
  | _, [] => none
  | some _, ['\\'] => none
  | some q, '\\' :: c :: rest => (takeTag (some q) rest).map fun r => inBody '\\' (inBody c r)
  | some q, c :: rest => (takeTag (if c = q then none else some q) rest).map (inBody c)
  | none, '}' :: '}' :: rest => some ([], rest)
  | none, c :: rest =>
    (takeTag (if c = '\'' ∨ c = '"' then some c else none) rest).map (inBody c)

/-- A tag takes at least its closing braces. -/
theorem length_of_takeTag {quote : Option Char} {cs : List Char} {r : List Char × List Char}
    (h : takeTag quote cs = some r) : r.1.length + r.2.length + 2 = cs.length := by
  fun_induction takeTag quote cs generalizing r with
  | case1 => simp at h
  | case2 => simp at h
  | case3 q c rest ih =>
    obtain ⟨s, hs, rfl⟩ := Option.map_eq_some_iff.1 h
    have := ih hs
    simp only [inBody, List.length_cons]
    omega
  | case4 q c rest _ _ ih =>
    obtain ⟨s, hs, rfl⟩ := Option.map_eq_some_iff.1 h
    have := ih hs
    simp only [inBody, List.length_cons]
    omega
  | case5 rest =>
    obtain rfl := Option.some.inj h
    simp
  | case6 c rest _ ih =>
    obtain ⟨s, hs, rfl⟩ := Option.map_eq_some_iff.1 h
    have := ih hs
    simp only [inBody, List.length_cons]
    omega

/-- Puts a character of text in front of pieces. -/
def consText (c : Char) : List Piece → List Piece
  | .text cs :: rest => .text (c :: cs) :: rest
  | rest => .text [c] :: rest

/-- Splits a template whose first character has the given offset. -/
def splitFrom (offset : Nat) : List Char → Split
  | [] => ⟨[], none⟩
  | '{' :: '{' :: rest =>
    match h : takeTag none rest with
    | some (body, after) =>
      have : after.length < rest.length := by
        have := length_of_takeTag h
        simp only at this
        omega
      let split := splitFrom (offset + 2 + body.length + 2) after
      { split with pieces := .tag (offset + 2) body :: split.pieces }
    | none => ⟨[.text ('{' :: '{' :: rest)], some offset⟩
  | c :: rest =>
    let split := splitFrom (offset + 1) rest
    { split with pieces := consText c split.pieces }
termination_by cs => cs.length

/-- Splits a template. -/
def split (template : List Char) : Split :=
  splitFrom 0 template

end Stencil
