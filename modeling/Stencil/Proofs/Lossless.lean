import Mathlib.Data.List.Forall2
import Stencil.Proofs.Brackets
import Stencil.Proofs.Nesting
import Stencil.Proofs.Segments

/-!
# Nothing of a template is lost

What a template falls into is the template again, piece by piece (`Split.Faithful`). Splitting is a
loop with three steps: a tag is taken, braces are found that nothing closes, or a character goes to
the text around it. Each of them keeps all that is said of the pieces, wherever they begin, and so
does the loop (`splitFrom_faithful`).

Where a tag ends is said without the search for its end: with the first closing braces that stand in
no string (`ClosesAfter`). A search that takes a body is right about it, and one that takes none is
right too, for it would have ended with any such braces (`exists_takeTag`).

What is said of the pieces holds of the segments that are read of them (`Segment.ReadFrom`).

Main statement: `template_lossless`.
-/

namespace Stencil

/-! ## Where a tag is closed -/

/-- The delimiter of the string that is still open after a text, if one is. Strings are read as in a
tag: a backslash in one takes the character after it along. -/
def openString : Option Char → List Char → Option Char
  | quote, [] => quote
  | some q, ['\\'] => some q
  | some q, '\\' :: _ :: rest => openString (some q) rest
  | some q, c :: rest => openString (if c = q then none else some q) rest
  | none, c :: rest => openString (if c = '\'' ∨ c = '"' then some c else none) rest

/-- Whether a text begins with a body and closing braces that stand in no string. -/
def ClosesAfter (body text : List Char) : Prop :=
  body ++ ['\x7d', '\x7d'] <+: text ∧ openString none body = none

theorem openString_cons {q c : Char} (hc : c ≠ '\\') (rest : List Char) :
    openString (some q) (c :: rest) = openString (if c = q then none else some q) rest := by
  rw [openString]
  · intro hbackslash
    exact absurd hbackslash hc
  · intro d rest' hbackslash
    exact absurd hbackslash hc

/-- What is taken ends in no string. -/
theorem openString_of_takeTag {quote : Option Char} {cs : List Char} {r : List Char × List Char}
    (h : takeTag quote cs = some r) : openString quote r.1 = none := by
  fun_induction takeTag quote cs generalizing r with
  | case1 => cases h
  | case2 => cases h
  | case3 q c rest ih =>
    obtain ⟨s, hs, rfl⟩ := Option.map_eq_some_iff.mp h
    rw [inBody, inBody, openString]
    exact ih hs
  | case4 q c rest hlast hpair ih =>
    obtain ⟨s, hs, rfl⟩ := Option.map_eq_some_iff.mp h
    rw [inBody, openString_cons (ne_backslash hlast hpair)]
    exact ih hs
  | case5 rest =>
    obtain rfl := Option.some.inj h
    rfl
  | case6 c rest _ ih =>
    obtain ⟨s, hs, rfl⟩ := Option.map_eq_some_iff.mp h
    rw [inBody, openString]
    exact ih hs

/-- Where closing braces stand in no string, a tag ends there or before. -/
theorem exists_takeTag {quote : Option Char} {body cs : List Char}
    (hbegins : body ++ ['\x7d', '\x7d'] <+: cs) (h : openString quote body = none) :
    ∃ r, takeTag quote cs = some r ∧ r.1.length ≤ body.length := by
  obtain ⟨more, rfl⟩ := hbegins
  fun_induction openString quote body with
  | case1 quote =>
    obtain rfl : quote = none := h
    exact ⟨_, takeTag_braces more, Nat.le_refl 0⟩
  | case2 q => cases h
  | case3 q c rest ih =>
    obtain ⟨r, hr, hlength⟩ := ih h
    refine ⟨inBody '\\' (inBody c r), ?_, Nat.add_le_add_right hlength 2⟩
    simp only [List.cons_append]
    rw [takeTag, hr, Option.map_some]
  | case4 q c rest hlast hpair ih =>
    obtain ⟨r, hr, hlength⟩ := ih h
    refine ⟨inBody c r, ?_, Nat.add_le_add_right hlength 1⟩
    simp only [List.cons_append]
    rw [takeTag_string (ne_backslash hlast hpair), hr, Option.map_some]
  | case5 c rest ih =>
    obtain ⟨r, hr, hlength⟩ := ih h
    by_cases hbraces : ∃ rest', c = '\x7d' ∧ rest ++ ['\x7d', '\x7d'] ++ more = '\x7d' :: rest'
    · obtain ⟨rest', rfl, hrest⟩ := hbraces
      refine ⟨([], rest'), ?_, Nat.zero_le _⟩
      simp only [List.cons_append]
      rw [hrest, takeTag_braces]
    · refine ⟨inBody c r, ?_, Nat.add_le_add_right hlength 1⟩
      simp only [List.cons_append]
      rw [takeTag, hr, Option.map_some]
      intro rest' hc hrest
      exact hbraces ⟨rest', hc, hrest⟩

/-- A tag is closed by the first closing braces that stand in no string. -/
theorem closesAfter_iff_of_takeTag {cs body after : List Char}
    (h : takeTag none cs = some (body, after)) (b : List Char) :
    ClosesAfter b (body ++ ['\x7d', '\x7d']) ↔ b = body := by
  refine ⟨fun ⟨hbegins, hb⟩ => ?_, ?_⟩
  rotate_left
  · rintro rfl
    exact ⟨List.prefix_rfl, openString_of_takeTag h⟩
  have hcs : body ++ ['\x7d', '\x7d'] <+: cs := ⟨after, by rw [eq_of_takeTag h]; simp⟩
  obtain ⟨r, hr, hlength⟩ := exists_takeTag (hbegins.trans hcs) hb
  obtain rfl := Option.some.inj (h.symm.trans hr)
  -- Both bodies begin the text, and neither is longer than the other one.
  have hshort : b.length ≤ body.length := by
    simpa using hbegins.length_le
  have hstart : b <+: body ++ ['\x7d', '\x7d'] := (List.prefix_append b _).trans hbegins
  exact (List.prefix_of_prefix_length_le hstart (List.prefix_append body _) hshort).eq_of_length
    (Nat.le_antisymm hshort hlength)

theorem not_closesAfter_of_takeTag {cs : List Char} (h : takeTag none cs = none) (b : List Char) :
    ¬ ClosesAfter b cs := by
  rintro ⟨hbegins, hb⟩
  obtain ⟨r, hr, -⟩ := exists_takeTag hbegins hb
  rw [h] at hr
  cases hr

/-! ## Pieces -/

/-- Whether no braces are opened in a text. -/
def Text.IsPlain (cs : List Char) : Prop :=
  ¬ ['\x7b', '\x7b'] <:+: cs

namespace Piece

/-- The text that a piece stands for. -/
def written : Piece → List Char
  | text cs => cs
  | tag _ body => '\x7b' :: '\x7b' :: (body ++ ['\x7d', '\x7d'])

/-- Whether one of two pieces is a tag. -/
def Apart : Piece → Piece → Prop
  | text _, text _ => False
  | _, _ => True

end Piece

section ConsText

variable (c : Char)

theorem written_consText (ps : List Piece) :
    (consText c ps).flatMap Piece.written = c :: ps.flatMap Piece.written := by
  cases ps with
  | nil => rfl
  | cons p ps => cases p <;> rfl

theorem isChain_consText {ps : List Piece} (h : ps.IsChain Piece.Apart) :
    (consText c ps).IsChain Piece.Apart := by
  match ps with
  | [] => exact .singleton _
  | .text cs :: [] => exact .singleton _
  | .text cs :: p :: ps =>
    obtain ⟨hp, hps⟩ := List.isChain_cons_cons.mp h
    cases p with
    | text ds => cases hp
    | tag offset body => exact .cons_cons trivial hps
  | .tag offset body :: ps => exact .cons_cons trivial h

theorem empty_not_mem_consText {ps : List Piece} (h : .text [] ∉ ps) :
    .text [] ∉ consText c ps := by
  match ps with
  | [] => simp [consText]
  | .text cs :: ps =>
    have hrest : .text [] ∉ ps := fun hmem => h (List.mem_cons_of_mem _ hmem)
    simpa [consText] using hrest
  | .tag offset body :: ps => simpa [consText] using h

/-- A character that is put in front opens no braces, unless it is the first of two. -/
theorem isPlain_consText {ps : List Piece}
    (hc : c = '\x7b' → (ps.flatMap Piece.written).head? ≠ some '\x7b')
    (h : ∀ cs, .text cs ∈ ps → Text.IsPlain cs) :
    ∀ cs, .text cs ∈ consText c ps → Text.IsPlain cs := by
  have hsingle : Text.IsPlain [c] := fun hinfix => absurd hinfix.length_le (by simp)
  intro cs hcs
  match ps with
  | [] =>
    obtain rfl : cs = [c] := by simpa [consText] using hcs
    exact hsingle
  | .text ds :: ps =>
    rcases List.mem_cons.mp hcs with heq | hmem
    · obtain rfl := Piece.text.inj heq
      intro hinfix
      rcases List.infix_cons_iff.mp hinfix with hbegins | hinside
      · -- The first two characters of this text are the first two of all.
        obtain ⟨more, hmore⟩ := hbegins
        obtain ⟨rfl, hds⟩ := List.cons.inj hmore
        refine hc rfl ?_
        simp [Piece.written, ← hds]
      · exact h ds List.mem_cons_self hinside
    · exact h cs (List.mem_cons_of_mem _ hmem)
  | .tag offset body :: ps =>
    rcases List.mem_cons.mp hcs with heq | hmem
    · obtain rfl := Piece.text.inj heq
      exact hsingle
    · exact h cs hmem

/-- A tag is where it was when a character is put in front. -/
theorem exists_of_consText_eq {ps before after : List Piece} {offset : Nat} {body : List Char}
    (h : consText c ps = before ++ .tag offset body :: after) :
    ∃ before', ps = before' ++ .tag offset body :: after ∧
      before.flatMap Piece.written = c :: before'.flatMap Piece.written := by
  match ps, before with
  | [], [] => cases h
  | [], p :: before => simp [consText] at h
  | .text cs :: ps, [] => cases h
  | .text cs :: ps, p :: before =>
    obtain ⟨rfl, rfl⟩ := List.cons.inj h
    exact ⟨.text cs :: before, rfl, rfl⟩
  | .tag o b :: ps, [] => cases h
  | .tag o b :: ps, p :: before =>
    obtain ⟨rfl, hps⟩ := List.cons.inj h
    exact ⟨before, hps, rfl⟩

/-- A character that is put in front of a last text. -/
theorem exists_consText_concat (front : List Piece) (cs : List Char) :
    ∃ front' cs', ∀ more, consText c (front ++ [Piece.text (cs ++ more)]) =
      front' ++ [Piece.text (cs' ++ more)] := by
  match front with
  | [] => exact ⟨[], c :: cs, fun _ => rfl⟩
  | .text ds :: front => exact ⟨.text (c :: ds) :: front, cs, fun _ => rfl⟩
  | .tag offset body :: front => exact ⟨.text [c] :: .tag offset body :: front, cs, fun _ => rfl⟩

end ConsText

/-! ## Splitting -/

/-- What a template falls into that begins at an offset. -/
structure Split.Faithful (offset : Nat) (cs : List Char) (s : Split) : Prop where
  written : s.pieces.flatMap Piece.written = cs
  apart : s.pieces.IsChain Piece.Apart
  filled : .text [] ∉ s.pieces
  /-- A tag is where its text is, and ends with the first braces that can close it. -/
  tags : ∀ before o body after, s.pieces = before ++ Piece.tag o body :: after →
    o = offset + (before.flatMap Piece.written).length + 2 ∧
      ∀ b, ClosesAfter b (body ++ ['\x7d', '\x7d']) ↔ b = body
  closed : s.unclosed = none → ∀ cs, .text cs ∈ s.pieces → Text.IsPlain cs
  /-- Braces that are not closed are the first ones in the last piece. -/
  unclosed : ∀ o ∈ s.unclosed, ∃ front cs rest,
    s.pieces = front ++ [Piece.text (cs ++ '\x7b' :: '\x7b' :: rest)] ∧
      o = offset + (front.flatMap Piece.written).length + cs.length ∧
      (∀ ds, Piece.text ds ∈ front ++ [Piece.text (cs ++ ['\x7b'])] → Text.IsPlain ds) ∧
      ∀ b, ¬ ClosesAfter b rest

namespace Split

variable {offset : Nat} {cs : List Char}

theorem faithful_nil : Faithful offset [] ⟨[], none⟩ where
  written := rfl
  apart := .nil
  filled := List.not_mem_nil
  tags before o body after h := by simp at h
  closed _ cs h := by cases h
  unclosed o h := by cases h

theorem Faithful.tag {body after : List Char} {s : Split}
    (h : takeTag none cs = some (body, after))
    (hs : Faithful (offset + 2 + body.length + 2) after s) :
    Faithful offset ('\x7b' :: '\x7b' :: cs)
      { s with pieces := .tag (offset + 2) body :: s.pieces } where
  written := by
    rw [List.flatMap_cons, hs.written, eq_of_takeTag h]
    simp [Piece.written]
  apart := by
    cases hpieces : s.pieces with
    | nil => exact .singleton _
    | cons p ps => exact .cons_cons trivial (hpieces ▸ hs.apart)
  filled := by simpa using hs.filled
  tags before o b rest heq := by
    cases before with
    | nil =>
      obtain ⟨hfirst, -⟩ := List.cons.inj heq
      obtain ⟨rfl, rfl⟩ := Piece.tag.inj hfirst
      exact ⟨rfl, closesAfter_iff_of_takeTag h⟩
    | cons p before =>
      obtain ⟨rfl, hrest⟩ := List.cons.inj heq
      obtain ⟨rfl, hb⟩ := hs.tags before o b rest hrest
      refine ⟨?_, hb⟩
      simp only [List.flatMap_cons, Piece.written, List.length_append, List.length_cons,
        List.length_nil]
      omega
  closed hnone ds hds := by
    rcases List.mem_cons.mp hds with heq | hmem
    · cases heq
    · exact hs.closed hnone ds hmem
  unclosed o ho := by
    obtain ⟨front, ds, rest, hpieces, rfl, hplain, hrest⟩ := hs.unclosed o ho
    refine ⟨.tag (offset + 2) body :: front, ds, rest, by rw [hpieces]; rfl, ?_, ?_, hrest⟩
    · simp only [List.flatMap_cons, Piece.written, List.length_append, List.length_cons,
        List.length_nil]
      omega
    · intro es hes
      rcases List.mem_cons.mp hes with heq | hmem
      · cases heq
      · exact hplain es hmem

theorem faithful_unclosed (h : takeTag none cs = none) :
    Faithful offset ('\x7b' :: '\x7b' :: cs)
      ⟨[.text ('\x7b' :: '\x7b' :: cs)], some offset⟩ where
  written := by simp [Piece.written]
  apart := .singleton _
  filled := by simp
  tags before o body after heq := by
    have hmem : .tag o body ∈ before ++ .tag o body :: after :=
      List.mem_append_right before List.mem_cons_self
    rw [← heq] at hmem
    simp at hmem
  closed hnone := by cases hnone
  unclosed o ho := by
    obtain rfl := Option.some.inj ho
    refine ⟨[], [], cs, rfl, rfl, ?_, not_closesAfter_of_takeTag h⟩
    intro ds hds
    obtain rfl : ds = ['\x7b'] := by simpa using hds
    exact fun hinfix => absurd hinfix.length_le (by simp)

theorem Faithful.char {c : Char} {s : Split} (hc : c = '\x7b' → cs.head? ≠ some '\x7b')
    (hs : Faithful (offset + 1) cs s) :
    Faithful offset (c :: cs) { s with pieces := consText c s.pieces } where
  written := by rw [written_consText, hs.written]
  apart := isChain_consText c hs.apart
  filled := empty_not_mem_consText c hs.filled
  tags before o body after heq := by
    obtain ⟨before', hpieces, hwritten⟩ := exists_of_consText_eq c heq
    obtain ⟨rfl, hbody⟩ := hs.tags before' o body after hpieces
    refine ⟨?_, hbody⟩
    rw [hwritten, List.length_cons]
    omega
  closed hnone := isPlain_consText c (by rwa [hs.written]) (hs.closed hnone)
  unclosed o ho := by
    obtain ⟨front, ds, rest, hpieces, rfl, hplain, hrest⟩ := hs.unclosed o ho
    obtain ⟨front', ds', hfront⟩ := exists_consText_concat c front ds
    have hwritten := hs.written
    rw [hpieces] at hwritten
    refine ⟨front', ds', rest, by rw [hpieces]; exact hfront _, ?_, ?_, hrest⟩
    · have hlength := congrArg (fun ps => (List.flatMap Piece.written ps).length) (hfront [])
      simp only [written_consText, List.flatMap_append, List.flatMap_singleton, Piece.written,
        List.length_cons, List.length_append, List.length_nil] at hlength
      omega
    · rw [← hfront]
      refine isPlain_consText c (fun hbrace => ?_) hplain
      have hhead := hc hbrace
      rw [← hwritten] at hhead
      simpa [Piece.written] using hhead

end Split

theorem splitFrom_faithful (offset : Nat) (cs : List Char) :
    (splitFrom offset cs).Faithful offset cs := by
  fun_induction splitFrom offset cs with
  | case1 offset => exact Split.faithful_nil
  | case2 offset rest body after h _ split ih => exact ih.tag h
  | case3 offset rest h => exact Split.faithful_unclosed h
  | case4 offset c rest hpair split ih => exact ih.char (head?_ne hpair)

theorem split_faithful (cs : List Char) : (split cs).Faithful 0 cs :=
  splitFrom_faithful 0 cs

/-! ## Segments -/

namespace Segment

/-- The text that a segment was read from. -/
def written : Segment → List Char
  | text s => s.toList
  | tag s => '\x7b' :: '\x7b' :: (s.source.toList ++ ['\x7d', '\x7d'])

/-- Whether one of two segments is a tag. -/
def Apart : Segment → Segment → Prop
  | text _, text _ => False
  | _, _ => True

end Segment

/-- Whether a segment is what is read of a piece of a template. -/
def Segment.ReadFrom (template : List Char) (p : Piece) : Segment → Prop
  | text s => p = .text s.toList
  | tag s => ∃ offset, p = .tag offset s.source.toList ∧ s.parsed.diagnostics =
      (parseAt s.source.toList (.within template offset)).diagnostics

theorem Snippet.source_numberSites (next : Nat) (s : Snippet) :
    (s.numberSites next).1.source = s.source := by
  unfold numberSites
  split <;> rfl

namespace Template

theorem readFrom_tag (template : List Char) (next offset : Nat) (body : List Char) :
    Segment.ReadFrom template (.tag offset body)
      (.tag (Snippet.numberSites next
        ⟨String.ofList body, parseAt body ⟨.ofText template, offset⟩⟩).1) := by
  refine ⟨offset, ?_, ?_⟩
  · rw [Snippet.source_numberSites, String.toList_ofList]
  · rw [Snippet.source_numberSites, String.toList_ofList, diagnostics_numberSites]
    rfl

theorem readPieces_readFrom (template : List Char) (next : Nat) (ps : List Piece) :
    List.Forall₂ (Segment.ReadFrom template) ps (readPieces (.ofText template) next ps) := by
  induction ps generalizing next with
  | nil => exact .nil
  | cons p ps ih =>
    cases p with
    | text cs => exact .cons (congrArg Piece.text String.toList_ofList.symm) (ih next)
    | tag offset body => exact .cons (readFrom_tag template next offset body) (ih _)

section ReadFrom

variable {template : List Char} {ps : List Piece} {segments : List Segment}
  (h : List.Forall₂ (Segment.ReadFrom template) ps segments)
include h

theorem written_of_readFrom : segments.flatMap Segment.written = ps.flatMap Piece.written := by
  induction h with
  | nil => rfl
  | @cons p s _ _ hread _ ih =>
    rw [List.flatMap_cons, List.flatMap_cons, ih]
    cases s with
    | text s =>
      obtain rfl := hread
      rfl
    | tag s =>
      obtain ⟨offset, rfl, -⟩ := hread
      rfl

theorem isChain_of_readFrom (hchain : ps.IsChain Piece.Apart) :
    segments.IsChain Segment.Apart := by
  induction h with
  | nil => exact .nil
  | @cons p s _ _ hread hmore ih =>
    cases hmore with
    | nil => exact .singleton _
    | @cons p' s' _ _ hread' hmore =>
      obtain ⟨hapart, hrest⟩ := List.isChain_cons_cons.mp hchain
      refine .cons_cons ?_ (ih hrest)
      cases s with
      | tag s => trivial
      | text s =>
        cases s' with
        | tag s' => trivial
        | text s' =>
          obtain rfl := hread
          obtain rfl := hread'
          exact hapart

theorem text_mem_of_readFrom {s : String} (hs : .text s ∈ segments) : .text s.toList ∈ ps := by
  induction h with
  | nil => cases hs
  | cons hread _ ih =>
    rcases List.mem_cons.mp hs with rfl | hmem
    · exact hread ▸ List.mem_cons_self
    · exact List.mem_cons_of_mem _ (ih hmem)

theorem exists_of_readFrom_tag {before after : List Segment} {s : Snippet}
    (hsegments : segments = before ++ Segment.tag s :: after) : ∃ before' offset after',
      ps = before' ++ Piece.tag offset s.source.toList :: after' ∧
      before'.flatMap Piece.written = before.flatMap Segment.written ∧
      s.parsed.diagnostics =
        (parseAt s.source.toList (.within template offset)).diagnostics := by
  subst hsegments
  obtain ⟨p, after', ⟨offset, rfl, hread⟩, -, hdrop⟩ :=
    List.forall₂_cons_right_iff.mp (List.forall₂_drop_append _ _ _ h)
  refine ⟨ps.take before.length, offset, after', ?_, ?_, hread⟩
  · rw [← hdrop, List.take_append_drop]
  · exact (written_of_readFrom (List.forall₂_take_append _ _ _ h)).symm

end ReadFrom

/-- A last text is what the last segment is read from. -/
theorem exists_of_readFrom_concat {template : List Char} {front : List Piece} {cs : List Char}
    {segments : List Segment}
    (h : List.Forall₂ (Segment.ReadFrom template) (front ++ [Piece.text cs]) segments) :
    ∃ front', segments = front' ++ [Segment.text (String.ofList cs)] ∧
      List.Forall₂ (Segment.ReadFrom template) front front' := by
  induction front generalizing segments with
  | nil =>
    obtain ⟨s, more, hread, hmore, rfl⟩ := List.forall₂_cons_left_iff.mp h
    obtain rfl := List.forall₂_nil_left_iff.mp hmore
    cases s with
    | text s =>
      obtain rfl := Piece.text.inj hread
      exact ⟨[], by rw [String.ofList_toList]; rfl, .nil⟩
    | tag s =>
      obtain ⟨offset, htag, -⟩ := hread
      cases htag
  | cons p front ih =>
    obtain ⟨s, more, hread, hmore, rfl⟩ := List.forall₂_cons_left_iff.mp h
    obtain ⟨front', rfl, hfront⟩ := ih hmore
    exact ⟨s :: front', rfl, .cons hread hfront⟩

/-! ## What is wrong with a template -/

theorem tagDiagnostics_eq (segments : List Segment) :
    tagDiagnostics segments = (Template.mk segments []).tags.flatMap (·.parsed.diagnostics) := by
  induction segments with
  | nil => rfl
  | cons s segments ih =>
    cases s with
    | text s => exact ih
    | tag s => exact congrArg (s.parsed.diagnostics ++ ·) ih

/-- Whether a template that was read of a text has lost nothing of it. -/
structure Faithful (text : List Char) (t : Template) : Prop where
  written : t.segments.flatMap Segment.written = text
  apart : t.segments.IsChain Segment.Apart
  filled : .text "" ∉ t.segments
  /-- A tag ends with the first braces that can close it, and its problems lie in its body. -/
  tags : ∀ before s after, t.segments = before ++ Segment.tag s :: after →
    (∀ b, ClosesAfter b (s.source.toList ++ ['\x7d', '\x7d']) ↔ b = s.source.toList) ∧
      ∀ d ∈ s.parsed.diagnostics, d.span.Lies text ((before.flatMap Segment.written).length + 2)
        ((before.flatMap Segment.written).length + 2 + s.source.toList.length)

/-- Whether all tags of a template are closed. -/
structure IsClosed (t : Template) : Prop where
  plain : ∀ s, .text s ∈ t.segments → Text.IsPlain s.toList
  diagnostics : t.diagnostics = t.tags.flatMap (·.parsed.diagnostics)
  braceless : ∀ d ∈ t.diagnostics, d.fault ≠ .unmatchedBracket '\x7b'

/-- What is reported of braces that are never closed. -/
def unclosedBraces (text : List Char) (offset : Nat) : Diagnostic :=
  ⟨⟨Text.positionAt text offset, Text.positionAt text (offset + 2)⟩, .unmatchedBracket '\x7b'⟩

/-- Whether all tags of a template are closed but the last one, of which `rest` is all there is. -/
structure BreaksOff (text : List Char) (front : List Segment) (cs rest : List Char)
    (t : Template) : Prop where
  segments : t.segments =
    front ++ [Segment.text (String.ofList (cs ++ '\x7b' :: '\x7b' :: rest))]
  /-- The braces are the first ones that are opened outside a tag. -/
  plain : ∀ s, Segment.text s ∈ front ++ [Segment.text (String.ofList (cs ++ ['\x7b']))] →
    Text.IsPlain s.toList
  never : ∀ b, ¬ ClosesAfter b rest
  diagnostics : t.diagnostics = t.tags.flatMap (·.parsed.diagnostics) ++
    [unclosedBraces text ((front.flatMap Segment.written).length + cs.length)]
  once : t.diagnostics.filter (·.fault == .unmatchedBracket '\x7b') =
    [unclosedBraces text ((front.flatMap Segment.written).length + cs.length)]

section Parse

variable (text : String)

theorem parse_readFrom : List.Forall₂ (Segment.ReadFrom text.toList) (split text.toList).pieces
    (Template.parse text).segments :=
  readPieces_readFrom text.toList 0 (split text.toList).pieces

theorem parse_faithful : (Template.parse text).Faithful text.toList := by
  have hread := parse_readFrom text
  have hsplit := split_faithful text.toList
  refine ⟨?_, isChain_of_readFrom hread hsplit.apart,
    fun h => hsplit.filled (text_mem_of_readFrom hread h), fun before s after hs => ?_⟩
  · exact (written_of_readFrom hread).trans hsplit.written
  obtain ⟨before', offset, after', hpieces, hwritten, hdiagnostics⟩ :=
    exists_of_readFrom_tag hread hs
  obtain ⟨hoffset, hbody⟩ := hsplit.tags before' offset _ after' hpieces
  rw [hwritten, Nat.zero_add] at hoffset
  refine ⟨hbody, fun d hd => ?_⟩
  rw [hdiagnostics, hoffset] at hd
  obtain ⟨start, stop, hle, hstop, hspan⟩ := covers_of_mem_parseAt hd
  exact hspan ▸ Placement.span_lies text.toList _ hle hstop

theorem parse_diagnostics : (Template.parse text).diagnostics =
    (Template.parse text).tags.flatMap (·.parsed.diagnostics) ++
      (split text.toList).unclosed.toList.map (unclosedBraces text.toList) := by
  rw [diagnostics_parse, ← tagDiagnostics_readPieces text.toList 0, tagDiagnostics_eq]
  rfl

theorem fault_ne_brace_of_mem_tags {d : Diagnostic}
    (hd : d ∈ (Template.parse text).tags.flatMap (·.parsed.diagnostics)) :
    d.fault ≠ .unmatchedBracket '\x7b' := by
  obtain ⟨s, hs, hd⟩ := List.mem_flatMap.mp hd
  obtain ⟨segment, hsegment, htag⟩ := List.mem_filterMap.mp hs
  cases segment with
  | text s => cases htag
  | tag s =>
    obtain rfl := Option.some.inj htag
    obtain ⟨before, after, hsegments⟩ := List.append_of_mem hsegment
    obtain ⟨_, offset, _, -, -, hdiagnostics⟩ :=
      exists_of_readFrom_tag (parse_readFrom text) hsegments
    exact fault_ne_brace (hdiagnostics ▸ hd)

theorem parse_isClosed (h : (split text.toList).unclosed = none) :
    (Template.parse text).IsClosed := by
  have hdiagnostics := parse_diagnostics text
  rw [h, Option.toList_none, List.map_nil, List.append_nil] at hdiagnostics
  refine ⟨fun s hs => ?_, hdiagnostics, fun d hd => ?_⟩
  · exact (split_faithful text.toList).closed h _
      (text_mem_of_readFrom (parse_readFrom text) hs)
  · exact fault_ne_brace_of_mem_tags text (hdiagnostics ▸ hd)

theorem parse_breaksOff {o : Nat} (h : (split text.toList).unclosed = some o) :
    ∃ front cs rest, (Template.parse text).BreaksOff text.toList front cs rest := by
  obtain ⟨front, cs, rest, hpieces, hoffset, hplain, hrest⟩ :=
    (split_faithful text.toList).unclosed o h
  have hread := parse_readFrom text
  rw [hpieces] at hread
  obtain ⟨front', hsegments, hfront⟩ := exists_of_readFrom_concat hread
  have hdiagnostics := parse_diagnostics text
  rw [h, Option.toList_some, List.map_singleton, hoffset, Nat.zero_add,
    ← written_of_readFrom hfront] at hdiagnostics
  refine ⟨front', cs, rest, hsegments, fun s hs => ?_, hrest, hdiagnostics, ?_⟩
  · refine hplain _ ?_
    rcases List.mem_append.mp hs with hmem | hlast
    · exact List.mem_append_left _ (text_mem_of_readFrom hfront hmem)
    · obtain rfl := Segment.text.inj (List.mem_singleton.mp hlast)
      rw [String.toList_ofList]
      exact List.mem_append_right _ List.mem_cons_self
  · have hnone : ((Template.parse text).tags.flatMap (·.parsed.diagnostics)).filter
        (·.fault == .unmatchedBracket '\x7b') = [] := by
      refine List.filter_eq_nil_iff.mpr fun d hd => ?_
      simpa using fault_ne_brace_of_mem_tags text hd
    rw [hdiagnostics, List.filter_append, hnone]
    rfl

end Parse

end Template

/-- The segments of a template give its text back, each tag in its braces. No two texts are side by
side, and none is empty. A tag ends with the first closing braces that stand in no string, and its
problems lie in its body. Either all tags are closed, and then the problems of the template are
those of its tags, in their order; or the template breaks off in a tag, and then all from the
opening braces on is text, and one more problem says so at the end, the only one about opening
braces. -/
theorem template_lossless (text : String) :
    (Template.parse text).Faithful text.toList ∧
      ((Template.parse text).IsClosed ∨
        ∃ front cs rest, (Template.parse text).BreaksOff text.toList front cs rest) := by
  refine ⟨Template.parse_faithful text, ?_⟩
  cases h : (split text.toList).unclosed with
  | none => exact .inl (Template.parse_isClosed text h)
  | some o => exact .inr (Template.parse_breaksOff text h)

end Stencil
