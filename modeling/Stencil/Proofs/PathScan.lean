import Stencil.Parser.Scan

/-!
# Scans and tokenizers

A path is read by feeding its characters to a tokenizer. Main statement: `scanPath_append`, a scan
takes exactly the characters that a tokenizer accepts, if the text after them ends a path. The
tokenizer decides alone: what it accepts is never the end of a path, save for a question mark before
another one, of which it would refuse the second. `exists_of_scanPath` is the converse.
-/

namespace Stencil

/-! ## The characters of a path -/

namespace Text

/-- The characters that are blank, by their numbers. -/
def blankNumbers : List Nat :=
  [0x9, 0xA, 0xB, 0xC, 0xD, 0x20, 0x85, 0xA0, 0x1680, 0x2000, 0x2001, 0x2002, 0x2003, 0x2004,
    0x2005, 0x2006, 0x2007, 0x2008, 0x2009, 0x200A, 0x2028, 0x2029, 0x202F, 0x205F, 0x3000]

theorem toNat_mem_blankNumbers {c : Char} (h : isBlank c = true) : c.toNat ∈ blankNumbers := by
  simp only [isBlank, Bool.or_eq_true, Bool.and_eq_true, decide_eq_true_eq, beq_iff_eq] at h
  simp only [blankNumbers, List.mem_cons, List.not_mem_nil, or_false]
  omega

/-- No word character is blank. -/
theorem isWord_eq_false_of_isBlank {c : Char} (h : isBlank c = true) : isWord c = false := by
  have hall : ∀ n ∈ blankNumbers, isWord (Char.ofNat n) = false := by decide +kernel
  have hc := hall c.toNat (toNat_mem_blankNumbers h)
  rwa [Char.ofNat_toNat] at hc

end Text

/-- A character that a tokenizer may accept. -/
theorem isPathChar_of_add {t t' : Tokenizer} {c : Char} (h : t.add c = .ok t') :
    isPathChar c = true := by
  unfold Tokenizer.add at h
  simp only [isPathChar, Bool.or_eq_true]
  split at h
  · next hc => exact .inl (.inl (.inr hc))
  split at h
  · next hc => exact .inl (.inl (.inl (.inl (.inr hc))))
  split at h
  · next hc => exact .inr hc
  split at h
  · next hc => exact .inl (.inr hc)
  split at h
  · next hc => exact .inl (.inl (.inl (.inr hc)))
  split at h
  · next hc => exact .inl (.inl (.inl (.inl (.inl hc))))
  · cases h

/-- The operator at the start of a text is a beginning of the text. -/
theorem Operator.prefix_of_atStart? {text : List Char} {op : Operator}
    (h : Operator.atStart? text = some op) : op.isUnary = false ∧ op.symbol.toList <+: text := by
  have hop := List.find?_some h
  simp only [Bool.and_eq_true, Bool.not_eq_true'] at hop
  exact ⟨hop.1, List.isPrefixOf_iff_prefix.mp hop.2⟩

/-- Characters with which operators begin, but none that a path may consist of. -/
def operatorChars : List Char :=
  ['+', '-', '*', '%', '^', '<', '>', '=', '!', '&', '|']

/-- How operators begin: the characters that have other uses are followed by themselves. -/
theorem Operator.first_of_atStart? {c : Char} {rest : List Char} {op : Operator}
    (h : Operator.atStart? (c :: rest) = some op) :
    (c ∈ operatorChars ∨ c = '/' ∨ c = '?') ∧ (c = '=' → rest.head? = some '=') ∧
      (c = '?' → rest.head? = some '?') := by
  obtain ⟨-, tail, hsymbol⟩ := Operator.prefix_of_atStart? h
  cases op <;> simp [Operator.symbol] at hsymbol <;> obtain ⟨rfl, rfl⟩ := hsymbol <;>
    simp [operatorChars]

theorem isPathChar_eq_false {c : Char} (h : c ∈ operatorChars) : isPathChar c = false := by
  have hall : operatorChars.all (fun c => !isPathChar c) = true := by decide +kernel
  simpa using List.all_eq_true.mp hall c h

theorem isPathChar_eq_false_of_isPathEnd {c : Char} (h : isPathEnd c = true) :
    isPathChar c = false := by
  simp only [isPathEnd, Bool.or_eq_true, beq_iff_eq] at h
  have hblank : Text.isBlank c = true → isPathChar c = false := by
    intro hc
    have hne : ∀ x : Char, Text.isBlank x = false → c ≠ x := by
      rintro x hx rfl
      rw [hx] at hc
      cases hc
    simp [isPathChar, Text.isWord_eq_false_of_isBlank hc, hne '.' (by decide), hne '$' (by decide),
      hne '~' (by decide), hne '?' (by decide), hne '/' (by decide)]
  rcases h with ((((((((h | rfl) | rfl) | rfl) | rfl) | rfl) | rfl) | rfl) | rfl) | rfl
  · exact hblank h
  all_goals decide +kernel

/-- What a path character says about the end of a path. -/
theorem endsPath_cons {c : Char} (h : isPathChar c = true) (rest : List Char) :
    endsPath (c :: rest) = (c == '/' || c == '?' && rest.head? == some '?') := by
  have hend : isPathEnd c = false := by
    cases hc : isPathEnd c with
    | false => rfl
    | true =>
      rw [isPathChar_eq_false_of_isPathEnd hc] at h
      cases h
  have hno : c ∉ operatorChars := by
    intro hc
    rw [isPathChar_eq_false hc] at h
    cases h
  have heq : (c == '=') = false := by
    refine beq_eq_false_iff_ne.mpr ?_
    rintro rfl
    exact hno (by decide)
  by_cases hentries : c = '?'
  · subst hentries
    simp only [endsPath, hend, heq, Bool.false_and, Bool.false_or, beq_self_eq_true, if_true,
      Bool.true_and]
    rfl
  · have hentries : (c == '?') = false := beq_eq_false_iff_ne.mpr hentries
    simp only [endsPath, hend, heq, hentries, Bool.false_and, Bool.false_or, Bool.or_false,
      Bool.false_eq_true, if_false]
    -- The slash is the only path character that is an operator on its own.
    cases hop : Operator.atStart? (c :: rest) with
    | none =>
      have hslash : c ≠ '/' := by
        rintro rfl
        cases rest <;> cases hop
      simp [hslash]
    | some op =>
      rcases (Operator.first_of_atStart? hop).1 with hc | rfl | hc
      · exact absurd hc hno
      · rfl
      · simp [hc] at hentries

/-! ## Feeding a tokenizer -/

namespace Tokenizer

/-- The tokenizer after it was fed all the characters. -/
def feed (t : Tokenizer) (cs : List Char) : Except Fault Tokenizer :=
  cs.foldlM add t

@[simp] theorem feed_nil (t : Tokenizer) : t.feed [] = .ok t := rfl

theorem feed_cons {t t' : Tokenizer} {c : Char} (h : t.add c = .ok t') (cs : List Char) :
    t.feed (c :: cs) = t'.feed cs := by
  simp only [feed, List.foldlM_cons, h]
  rfl

theorem feed_append {t t' : Tokenizer} {cs : List Char} (h : t.feed cs = .ok t')
    (ds : List Char) : t.feed (cs ++ ds) = t'.feed ds := by
  simp only [feed, List.foldlM_append] at h ⊢
  rw [h]
  rfl

/-- What was fed is a first character and the others. -/
theorem exists_of_feed_cons {t t' : Tokenizer} {c : Char} {cs : List Char}
    (h : t.feed (c :: cs) = .ok t') : ∃ t₁, t.add c = .ok t₁ ∧ t₁.feed cs = .ok t' := by
  simp only [feed, List.foldlM_cons] at h
  cases hadd : t.add c with
  | error fault =>
    rw [hadd] at h
    cases h
  | ok t₁ =>
    rw [hadd] at h
    exact ⟨t₁, rfl, h⟩

/-- A slash is accepted only where one is expected. -/
theorem expectsSlash_of_add {t t' : Tokenizer} (h : t.add '/' = .ok t') :
    t.expectsSlash = true := by
  change t.slash = .ok t' at h
  unfold slash at h
  unfold expectsSlash
  split at h
  · rfl
  · split at h <;> cases h
  · cases h

theorem stage_of_add_entries {t t' : Tokenizer} (h : t.add '?' = .ok t') :
    t'.stage = .afterEntries := by
  change t.entries = .ok t' at h
  unfold entries at h
  split at h
  case h_4 => split at h <;> cases h; rfl
  all_goals first | cases h; rfl | cases h

/-- No object selector follows another one. -/
theorem add_entries_entries {t t' : Tokenizer} (h : t.add '?' = .ok t') :
    t'.add '?' = .error .misplacedEntries := by
  change t'.entries = .error .misplacedEntries
  unfold entries
  rw [stage_of_add_entries h]

end Tokenizer

/-! ## Where a path ends -/

/-- Whether a path with this text ends before the text that follows it. -/
structure Closes (cs tail : List Char) : Prop where
  ends : endsPath tail = true
  /-- Two question marks would be an operator. -/
  entries : cs.getLast? = some '?' → tail.head? ≠ some '?'

/-- The scan goes on after a character that a tokenizer accepts. -/
theorem goesOn {t t' : Tokenizer} {c : Char} (h : t.add c = .ok t') {rest : List Char}
    (hrest : c = '?' → rest.head? ≠ some '?') :
    (!(c == '/' && t.expectsSlash) && endsPath (c :: rest)) = false := by
  rw [endsPath_cons (isPathChar_of_add h)]
  by_cases hslash : c = '/'
  · subst hslash
    rw [Tokenizer.expectsSlash_of_add h]
    rfl
  · by_cases hentries : c = '?'
    · simp [hslash, hrest hentries]
    · simp [hslash, hentries]

theorem head?_append_ne_entries {t t' : Tokenizer} {cs tail : List Char} (h : t.feed cs = .ok t')
    {s : Tokenizer} (hs : s.add '?' = .ok t) (htail : cs = [] → tail.head? ≠ some '?') :
    (cs ++ tail).head? ≠ some '?' := by
  cases cs with
  | nil => exact htail rfl
  | cons c cs =>
    rintro hc
    obtain rfl : c = '?' := Option.some.inj hc
    obtain ⟨t₁, hadd, -⟩ := Tokenizer.exists_of_feed_cons h
    rw [Tokenizer.add_entries_entries hs] at hadd
    cases hadd

/-- A scan takes what the tokenizer accepts, up to the end of the path. -/
theorem scanPath_append {t t' : Tokenizer} {cs tail : List Char} (h : t.feed cs = .ok t')
    (hslash : t'.expectsSlash = false) (hclose : Closes cs tail) :
    scanPath t (cs ++ tail) = ⟨t', cs.length, none⟩ := by
  induction cs generalizing t with
  | nil =>
    cases h
    cases tail with
    | nil => rfl
    | cons c rest =>
      have hends : (!(c == '/' && t'.expectsSlash) && endsPath (c :: rest)) = true := by
        rw [hslash, hclose.ends, Bool.and_false]
        rfl
      rw [List.nil_append, scanPath, if_pos hends]
      rfl
  | cons c cs ih =>
    obtain ⟨t₁, hadd, hfeed⟩ := Tokenizer.exists_of_feed_cons h
    -- What comes next matters only after a question mark.
    have hgoes : (!(c == '/' && t.expectsSlash) && endsPath (c :: (cs ++ tail))) = false := by
      refine goesOn hadd fun hc => ?_
      subst hc
      exact head?_append_ne_entries hfeed hadd fun hnil => hclose.entries (by rw [hnil]; rfl)
    have hclose' : Closes cs tail := by
      refine ⟨hclose.ends, fun hlast => hclose.entries ?_⟩
      rw [List.getLast?_cons, hlast]
      rfl
    rw [List.cons_append, scanPath, if_neg (by rw [hgoes]; exact Bool.false_ne_true), hadd]
    simp only [ih hfeed hclose', List.length_cons]

/-- A scan without a fault has fed the tokenizer the text up to the end of a path. -/
theorem exists_of_scanPath {t : Tokenizer} {text : List Char}
    (h : (scanPath t text).fault = none) :
    ∃ cs tail, text = cs ++ tail ∧ (scanPath t text).read = cs.length ∧
      t.feed cs = .ok (scanPath t text).tokenizer ∧
      ((scanPath t text).tokenizer.expectsSlash = false → Closes cs tail) := by
  induction text generalizing t with
  | nil => exact ⟨[], [], rfl, rfl, rfl, fun _ => ⟨rfl, fun h => by cases h⟩⟩
  | cons c rest ih =>
    unfold scanPath at h ⊢
    split at h
    · next hend =>
      rw [if_pos hend]
      simp only [Bool.and_eq_true] at hend
      exact ⟨[], c :: rest, rfl, rfl, rfl, fun _ => ⟨hend.2, fun h => by cases h⟩⟩
    · next hgoes =>
      rw [if_neg hgoes]
      cases hadd : t.add c with
      | error fault =>
        rw [hadd] at h
        cases h
      | ok t₁ =>
        rw [hadd] at h
        obtain ⟨cs, tail, rfl, hread, hfeed, hclose⟩ := ih h
        refine ⟨c :: cs, tail, rfl, ?_, ?_, fun hslash => ⟨(hclose hslash).ends, fun hlast => ?_⟩⟩
        · rw [List.length_cons, ← hread]
        · rw [Tokenizer.feed_cons hadd]
          exact hfeed
        · cases cs with
          | nil =>
            -- The last character is the one that the scan decided to go on after.
            obtain rfl : c = '?' := Option.some.inj hlast
            rw [endsPath_cons (by decide)] at hgoes
            intro htail
            simp [htail] at hgoes
          | cons d ds => exact (hclose hslash).entries (by rwa [List.getLast?_cons_cons] at hlast)

end Stencil
