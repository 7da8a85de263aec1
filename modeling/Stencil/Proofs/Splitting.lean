import Mathlib.Data.List.Basic
import Stencil.Template.Split

/-!
# Where templates fall into pieces

Splitting reads a template from left to right and looks back at nothing but the offset. So a
template can be taken apart wherever no tag is open and no opening braces are torn apart: the pieces
of the whole are the pieces of both parts, laid side by side (`splitFrom_append`), where text that
ends the first part runs on in text that begins the second (`joinPieces`).

A tag does not move when text is appended (`takeTag_append`), and pieces that begin further on are
the same pieces with other offsets (`splitFrom_add`). Together this says what templates fall into
that are put side by side (`split_append`).
-/

namespace Stencil

/-! ## One tag -/

/-- A character that is no brace belongs to the tag, and may open a string in it. -/
theorem takeTag_cons {c : Char} (hc : c ≠ '\x7d') (cs : List Char) :
    takeTag none (c :: cs) =
      (takeTag (if c = '\'' ∨ c = '"' then some c else none) cs).map (inBody c) := by
  rw [takeTag]
  intro rest hbrace
  exact absurd hbrace hc

/-- A character of a string belongs to the tag, and ends the string if it is its delimiter. -/
theorem takeTag_string {q c : Char} (hc : c ≠ '\\') (cs : List Char) :
    takeTag (some q) (c :: cs) =
      (takeTag (if c = q then none else some q) cs).map (inBody c) := by
  rw [takeTag]
  · intro hbackslash
    exact absurd hbackslash hc
  · intro d cs' hbackslash
    exact absurd hbackslash hc

/-- In a string, a backslash takes the next character along or ends the text. -/
theorem ne_backslash {c : Char} {cs : List Char} (hlast : c = '\\' → cs = [] → False)
    (hpair : ∀ d more, c = '\\' → cs = d :: more → False) : c ≠ '\\' := by
  intro hc
  cases cs with
  | nil => exact hlast hc rfl
  | cons d more => exact hpair d more hc rfl

theorem takeTag_braces (rest : List Char) :
    takeTag none ('\x7d' :: '\x7d' :: rest) = some ([], rest) := by
  rw [takeTag]

/-- What is taken is the body, and then two braces. -/
theorem eq_of_takeTag {quote : Option Char} {cs : List Char} {r : List Char × List Char}
    (h : takeTag quote cs = some r) : cs = r.1 ++ '\x7d' :: '\x7d' :: r.2 := by
  fun_induction takeTag quote cs generalizing r with
  | case1 => cases h
  | case2 => cases h
  | case3 q c rest ih =>
    obtain ⟨s, hs, rfl⟩ := Option.map_eq_some_iff.mp h
    rw [ih hs]
    rfl
  | case4 q c rest _ _ ih =>
    obtain ⟨s, hs, rfl⟩ := Option.map_eq_some_iff.mp h
    rw [ih hs]
    rfl
  | case5 rest =>
    obtain rfl := Option.some.inj h
    rfl
  | case6 c rest _ ih =>
    obtain ⟨s, hs, rfl⟩ := Option.map_eq_some_iff.mp h
    rw [ih hs]
    rfl

/-- A tag that is closed stays as it is when text is appended. -/
theorem takeTag_append {quote : Option Char} {cs : List Char} {body after : List Char}
    (h : takeTag quote cs = some (body, after)) (more : List Char) :
    takeTag quote (cs ++ more) = some (body, after ++ more) := by
  fun_induction takeTag quote cs generalizing body after with
  | case1 => cases h
  | case2 => cases h
  | case3 q c rest ih =>
    obtain ⟨⟨body', after'⟩, hrest, hinside⟩ := Option.map_eq_some_iff.mp h
    obtain ⟨rfl, rfl⟩ := Prod.mk.inj hinside
    rw [List.cons_append, List.cons_append, takeTag, ih hrest]
    rfl
  | case4 q c rest hlast hpair ih =>
    obtain ⟨⟨body', after'⟩, hrest, hinside⟩ := Option.map_eq_some_iff.mp h
    obtain ⟨rfl, rfl⟩ := Prod.mk.inj hinside
    rw [List.cons_append, takeTag_string (ne_backslash hlast hpair), ih hrest]
    rfl
  | case5 rest =>
    obtain ⟨rfl, rfl⟩ := Prod.mk.inj (Option.some.inj h)
    rw [List.cons_append, List.cons_append, takeTag_braces]
  | case6 c rest hbraces ih =>
    obtain ⟨⟨body', after'⟩, hrest, hinside⟩ := Option.map_eq_some_iff.mp h
    obtain ⟨rfl, rfl⟩ := Prod.mk.inj hinside
    rw [List.cons_append, takeTag, ih hrest]
    · rfl
    · -- Something follows, for the tag is closed only later.
      intro rest' hc hmore
      cases rest with
      | nil => cases hrest
      | cons d rest => exact hbraces rest hc (by rw [(List.cons.inj hmore).1])

/-! ## Steps of splitting -/

section Steps

variable {offset : Nat}

theorem splitFrom_tag {cs body after : List Char} (h : takeTag none cs = some (body, after)) :
    splitFrom offset ('\x7b' :: '\x7b' :: cs) =
      { splitFrom (offset + 2 + body.length + 2) after with
        pieces := .tag (offset + 2) body ::
          (splitFrom (offset + 2 + body.length + 2) after).pieces } := by
  rw [splitFrom]
  split
  · next body' after' h' =>
    obtain ⟨rfl, rfl⟩ := Prod.mk.inj (Option.some.inj (h'.symm.trans h))
    rfl
  · next h' =>
    rw [h'] at h
    cases h

theorem splitFrom_unclosed {cs : List Char} (h : takeTag none cs = none) :
    splitFrom offset ('\x7b' :: '\x7b' :: cs) =
      ⟨[.text ('\x7b' :: '\x7b' :: cs)], some offset⟩ := by
  rw [splitFrom]
  split
  · next h' =>
    rw [h'] at h
    cases h
  · rfl

theorem head?_ne {c : Char} {cs : List Char}
    (h : ∀ rest, c = '\x7b' → cs = '\x7b' :: rest → False) :
    c = '\x7b' → cs.head? ≠ some '\x7b' := by
  intro hc hhead
  obtain ⟨rest, hrest⟩ := List.head?_eq_some_iff.mp hhead
  exact h rest hc hrest

theorem splitFrom_char {c : Char} {cs : List Char} (h : c = '\x7b' → cs.head? ≠ some '\x7b') :
    splitFrom offset (c :: cs) =
      { splitFrom (offset + 1) cs with
        pieces := consText c (splitFrom (offset + 1) cs).pieces } := by
  rw [splitFrom]
  intro rest hc hrest
  exact h hc (by rw [hrest]; rfl)

end Steps

/-! ## Pieces side by side -/

/-- Pieces followed by others; text runs on in text. -/
def joinPieces : List Piece → List Piece → List Piece
  | [], qs => qs
  | [.text cs], .text ds :: qs => .text (cs ++ ds) :: qs
  | p :: ps, qs => p :: joinPieces ps qs

theorem joinPieces_tag (offset : Nat) (body : List Char) (ps qs : List Piece) :
    joinPieces (.tag offset body :: ps) qs = .tag offset body :: joinPieces ps qs := by
  rw [joinPieces]
  intro cs ds rest _ htag
  cases htag

theorem joinPieces_consText (c : Char) (ps qs : List Piece) :
    joinPieces (consText c ps) qs = consText c (joinPieces ps qs) := by
  match ps with
  | [] =>
    match qs with
    | [] => rfl
    | .text ds :: qs => rfl
    | .tag offset body :: qs => rfl
  | [.text cs] =>
    match qs with
    | [] => rfl
    | .text ds :: qs => rfl
    | .tag offset body :: qs => rfl
  | .text cs :: p :: ps => rfl
  | .tag offset body :: ps =>
    rw [joinPieces_tag]
    show joinPieces (.text [c] :: .tag offset body :: ps) qs =
      .text [c] :: .tag offset body :: joinPieces ps qs
    rw [joinPieces, joinPieces_tag]
    intro cs ds rest _ _ hnil
    cases hnil

/-- A template without an open tag and what comes after it fall into pieces independently, if no
opening braces are torn apart between them. -/
theorem splitFrom_append {offset : Nat} {cs : List Char} (more : List Char)
    (hclosed : (splitFrom offset cs).unclosed = none)
    (hseam : cs.getLast? = some '\x7b' → more.head? ≠ some '\x7b') :
    splitFrom offset (cs ++ more) =
      { splitFrom (offset + cs.length) more with
        pieces := joinPieces (splitFrom offset cs).pieces
          (splitFrom (offset + cs.length) more).pieces } := by
  fun_induction splitFrom offset cs with
  | case1 offset => rfl
  | case2 offset rest body after h _ split ih =>
    have hrest : rest = body ++ '\x7d' :: '\x7d' :: after := eq_of_takeTag h
    have hafter : after.getLast? = some '\x7b' → more.head? ≠ some '\x7b' := by
      intro hlast
      apply hseam
      rw [hrest, List.getLast?_cons_cons]
      simp [List.getLast?_cons, List.getLast?_append, hlast]
    have hlength : offset + ('\x7b' :: '\x7b' :: rest).length =
        offset + 2 + body.length + 2 + after.length := by
      rw [hrest]
      simp only [List.length_cons, List.length_append]
      omega
    rw [List.cons_append, List.cons_append, splitFrom_tag (takeTag_append h more),
      ih hclosed hafter, hlength, joinPieces_tag]
  | case3 offset rest h => cases hclosed
  | case4 offset c rest hpair split ih =>
    have hchar : c = '\x7b' → (rest ++ more).head? ≠ some '\x7b' := by
      intro hc
      cases rest with
      | nil => exact hseam (by rw [hc]; rfl)
      | cons d rest =>
        have hhead : (d :: rest).head? ≠ some '\x7b' := head?_ne hpair hc
        exact hhead
    have hrest : rest.getLast? = some '\x7b' → more.head? ≠ some '\x7b' := by
      intro hlast
      apply hseam
      rw [List.getLast?_cons, hlast]
      rfl
    have hlength : offset + (c :: rest).length = offset + 1 + rest.length := by
      rw [List.length_cons]
      omega
    rw [List.cons_append, splitFrom_char hchar, ih hclosed hrest, hlength, joinPieces_consText]

/-- Text as one piece, unless there is no text. -/
def textPieces (cs : List Char) : List Piece :=
  if cs = [] then [] else [.text cs]

theorem joinPieces_text_tag (cs : List Char) (offset : Nat) (body : List Char) (ps : List Piece) :
    joinPieces (textPieces cs) (.tag offset body :: ps) =
      textPieces cs ++ .tag offset body :: ps := by
  unfold textPieces
  by_cases hcs : cs = []
  · rw [if_pos hcs]
    rfl
  · rw [if_neg hcs]
    rfl

/-- Text without opening braces stays text. -/
theorem splitFrom_plain {cs : List Char} (h : ¬ ['\x7b', '\x7b'] <:+: cs) (offset : Nat) :
    splitFrom offset cs = ⟨textPieces cs, none⟩ := by
  induction cs generalizing offset with
  | nil => rw [splitFrom]; rfl
  | cons c cs ih =>
    have hchar : c = '\x7b' → cs.head? ≠ some '\x7b' := by
      intro hc hhead
      obtain ⟨rest, hrest⟩ := List.head?_eq_some_iff.mp hhead
      exact h ⟨[], rest, by rw [hc, hrest]; rfl⟩
    have hrest : ¬ ['\x7b', '\x7b'] <:+: cs := by
      intro hcs
      exact h (hcs.trans (List.suffix_cons c cs).isInfix)
    rw [splitFrom_char hchar, ih hrest]
    cases cs <;> rfl

/-! ## Offsets -/

/-- The piece further on. -/
def Piece.shift (n : Nat) : Piece → Piece
  | .text cs => .text cs
  | .tag offset body => .tag (n + offset) body

theorem shift_consText (n : Nat) (c : Char) (ps : List Piece) :
    (consText c ps).map (Piece.shift n) = consText c (ps.map (Piece.shift n)) := by
  match ps with
  | [] => rfl
  | .text cs :: ps => rfl
  | .tag offset body :: ps => rfl

/-- A template that begins further on has the same pieces further on. -/
theorem splitFrom_add (n offset : Nat) (cs : List Char) :
    splitFrom (n + offset) cs = ⟨(splitFrom offset cs).pieces.map (Piece.shift n),
      (splitFrom offset cs).unclosed.map (n + ·)⟩ := by
  fun_induction splitFrom offset cs with
  | case1 offset => rw [splitFrom]; rfl
  | case2 offset rest body after h _ split ih =>
    have hoffset : n + offset + 2 + body.length + 2 = n + (offset + 2 + body.length + 2) := by omega
    rw [splitFrom_tag h, hoffset, ih]
    rfl
  | case3 offset rest h => rw [splitFrom_unclosed h]; rfl
  | case4 offset c rest hpair split ih =>
    rw [splitFrom_char (head?_ne hpair), Nat.add_assoc, ih, shift_consText]

/-- What two templates fall into that are put side by side. -/
theorem split_append {cs : List Char} (more : List Char) (hclosed : (split cs).unclosed = none)
    (hseam : cs.getLast? = some '\x7b' → more.head? ≠ some '\x7b') :
    split (cs ++ more) =
      ⟨joinPieces (split cs).pieces ((split more).pieces.map (Piece.shift cs.length)),
        (split more).unclosed.map (cs.length + ·)⟩ := by
  have hmore := splitFrom_add cs.length 0 more
  rw [Nat.add_zero] at hmore
  unfold split
  rw [splitFrom_append more hclosed hseam, Nat.zero_add, hmore]

/-- Tags and open braces lie between two offsets. -/
structure Split.Within (low high : Nat) (s : Split) : Prop where
  tags : ∀ offset body, .tag offset body ∈ s.pieces → low + 2 ≤ offset ∧
    offset + body.length + 2 ≤ high
  unclosed : ∀ offset ∈ s.unclosed, low ≤ offset ∧ offset + 2 ≤ high

theorem tag_mem_consText {offset : Nat} {body : List Char} {c : Char} {ps : List Piece}
    (h : .tag offset body ∈ consText c ps) : .tag offset body ∈ ps := by
  match ps with
  | [] => simp [consText] at h
  | .text cs :: ps =>
    rcases List.mem_cons.mp h with h | h
    · cases h
    · exact List.mem_cons_of_mem _ h
  | .tag offset' body' :: ps =>
    rcases List.mem_cons.mp h with h | h
    · cases h
    · exact h

/-- All pieces lie in the template. -/
theorem splitFrom_within (offset : Nat) (cs : List Char) :
    (splitFrom offset cs).Within offset (offset + cs.length) := by
  fun_induction splitFrom offset cs with
  | case1 offset => exact ⟨fun _ _ h => (by cases h), fun _ h => (by cases h)⟩
  | case2 offset rest body after h _ split ih =>
    have hlength : rest.length = body.length + after.length + 2 := by
      rw [← length_of_takeTag h]
    simp only [List.length_cons, hlength]
    refine ⟨?_, ?_⟩
    · intro o b hmem
      rcases List.mem_cons.mp hmem with heq | hmem
      · obtain ⟨rfl, rfl⟩ := Piece.tag.inj heq
        omega
      · have := ih.tags o b hmem
        omega
    · intro o hmem
      have := ih.unclosed o hmem
      omega
  | case3 offset rest h =>
    refine ⟨?_, ?_⟩
    · intro o b hmem
      rcases List.mem_cons.mp hmem with heq | hmem
      · cases heq
      · cases hmem
    · intro o hmem
      obtain rfl := Option.some.inj hmem
      simp only [List.length_cons]
      omega
  | case4 offset c rest hpair split ih =>
    refine ⟨?_, ?_⟩
    · intro o b hmem
      have := ih.tags o b (tag_mem_consText hmem)
      simp only [List.length_cons]
      omega
    · intro o hmem
      have := ih.unclosed o hmem
      simp only [List.length_cons]
      omega

end Stencil
