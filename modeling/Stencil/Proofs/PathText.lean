import Stencil.Proofs.PathScan

/-!
# Writing a path down again

Main statement: `Tokenizer.feed_display`, the path that a tokenizer has read, written down, leads
another tokenizer to the same state. The text written down is not always the text read, since `a?`
is written `a.?`; so the statement is about the state, and is carried along the text that was read:
with each character the text written down grows by characters that lead to the next state
(`Tokenizer.grows_add`).
-/

namespace Stencil

namespace Path

/-- The path as it is written before something that follows it. -/
def renderBefore (p : Path) : List Char :=
  render p ++ if needsDot p then ['.'] else []

@[simp] theorem needsDot_append (ps : Path) (p : Part) : needsDot (ps ++ [p]) = !p.isLeading := by
  simp [needsDot]

theorem render_append : ∀ (ps : Path) (p : Part), render (ps ++ [p]) = renderBefore ps ++ p.render
  | [], p => rfl
  | [a], p => by
    cases ha : a.isLeading <;> simp [render, renderBefore, needsDot, ha]
  | a :: b :: ps, p => by
    have hrest := render_append (b :: ps) p
    -- Only the last part decides whether a dot comes next.
    have hdot : needsDot (a :: b :: ps) = needsDot (b :: ps) := by
      simp only [needsDot, List.getLast?_cons_cons]
    have hcons : render (a :: b :: (ps ++ [p])) =
        a.render ++ (if a.isLeading then [] else ['.']) ++ render (b :: ps ++ [p]) := rfl
    rw [List.cons_append, List.cons_append, hcons, hrest]
    simp only [renderBefore, hdot, render, List.append_assoc]

theorem renderBefore_append (ps : Path) (p : Part) :
    renderBefore (ps ++ [p]) =
      renderBefore ps ++ p.render ++ if p.isLeading then [] else ['.'] := by
  rw [renderBefore, render_append, needsDot_append]
  cases p.isLeading <;> rfl

theorem renderBefore_of_needsDot {ps : Path} (h : needsDot ps = true) :
    renderBefore ps = render ps ++ ['.'] := by
  rw [renderBefore, if_pos h]

theorem renderBefore_of_not_needsDot {ps : Path} (h : needsDot ps = false) :
    renderBefore ps = render ps := by
  rw [renderBefore, h]
  exact List.append_nil _

end Path

/-- The characters read after the last part and segment. -/
def TokenizerStage.pending : TokenizerStage → List Char
  | .dot | .numberDot => ['.']
  | .dotDot => ['.', '.']
  | _ => []

namespace Tokenizer

/-- What was read, as it is written. -/
def display (t : Tokenizer) : List Char :=
  (if t.stage = .afterEntries then t.parts.render else t.parts.renderBefore) ++ t.segment ++
    t.stage.pending

/-- What the stage says about the parts and the segment. -/
def StageFits (t : Tokenizer) : Prop :=
  match t.stage with
  | .start => t.parts = [] ∧ t.segment = []
  | .dot | .dotDot | .afterParent | .afterRoot => t.parts.needsDot = false ∧ t.segment = []
  | .separator | .afterEntries => t.parts.needsDot = true ∧ t.segment = []
  | .segment => t.segment ≠ []
  | .number | .numberDot => t.parts = [] ∧ t.segment ≠ []
  | .stray _ => False

/-- A tokenizer that can still come to a good end. -/
structure Coherent (t : Tokenizer) : Prop where
  fits : t.StageFits
  /-- Numbers are number literals. -/
  numbers : ∀ p ∈ t.parts, p.kind = .number → isNumberLiteral p.keyText.toList = true

/-- The part that the segment becomes. -/
def lastPart (t : Tokenizer) : Part :=
  ⟨if t.parts.isEmpty then .ofLeading t.segment else .member, some (String.ofList t.segment)⟩

theorem finish_eq {t : Tokenizer} (h : t.segment ≠ []) :
    t.finish = { t with parts := t.parts ++ [t.lastPart], segment := [], hasPoint := false } := by
  rw [finish, if_neg (by simpa using h)]
  rfl

theorem ofLeading_cases (key : List Char) :
    PartKind.ofLeading key = .boolean ∨ PartKind.ofLeading key = .null ∨
      PartKind.ofLeading key = .number ∧ isNumberLiteral key = true ∨
        PartKind.ofLeading key = .member := by
  unfold PartKind.ofLeading
  split
  · exact .inl rfl
  split
  · exact .inr (.inl rfl)
  split
  · next h => exact .inr (.inr (.inl ⟨rfl, h⟩))
  · exact .inr (.inr (.inr rfl))

theorem lastPart_kind (t : Tokenizer) :
    t.lastPart.kind = .boolean ∨ t.lastPart.kind = .null ∨
      t.lastPart.kind = .number ∧ isNumberLiteral t.segment = true ∨ t.lastPart.kind = .member := by
  unfold lastPart
  cases t.parts.isEmpty with
  | true => exact ofLeading_cases t.segment
  | false => exact .inr (.inr (.inr rfl))

@[simp] theorem render_lastPart (t : Tokenizer) : t.lastPart.render = t.segment := by
  have hkey : t.lastPart.keyText.toList = t.segment := String.toList_ofList
  rcases t.lastPart_kind with h | h | ⟨h, -⟩ | h <;> simp only [Part.render, h, hkey]

@[simp] theorem isLeading_lastPart (t : Tokenizer) : t.lastPart.isLeading = false := by
  rcases t.lastPart_kind with h | h | ⟨h, -⟩ | h <;> simp only [Part.isLeading, h]

theorem isNumberLiteral_lastPart {t : Tokenizer} (h : t.lastPart.kind = .number) :
    isNumberLiteral t.lastPart.keyText.toList = true := by
  have hkey : t.lastPart.keyText.toList = t.segment := String.toList_ofList
  rw [hkey]
  rcases t.lastPart_kind with h' | h' | ⟨-, h'⟩ | h'
  · rw [h] at h'; cases h'
  · rw [h] at h'; cases h'
  · exact h'
  · rw [h] at h'; cases h'

/-- A coherent state was reached, and `ds` are the characters that its text has more. -/
def Grows (t t' : Tokenizer) (ds : List Char) : Prop :=
  t'.Coherent ∧ t'.display = t.display ++ ds

theorem numbers_finish {t : Tokenizer} (ht : t.Coherent) :
    ∀ p ∈ t.parts ++ [t.lastPart], p.kind = .number → isNumberLiteral p.keyText.toList = true := by
  intro p hp hkind
  rcases List.mem_append.mp hp with hp | hp
  · exact ht.numbers p hp hkind
  · obtain rfl := List.mem_singleton.mp hp
    exact isNumberLiteral_lastPart hkind

theorem numbers_select {parts : Path} {kind : PartKind} (hne : kind ≠ .number)
    (h : ∀ p ∈ parts, p.kind = .number → isNumberLiteral p.keyText.toList = true) :
    ∀ p ∈ parts ++ [Part.selector kind],
      p.kind = .number → isNumberLiteral p.keyText.toList = true := by
  intro p hp hkind
  rcases List.mem_append.mp hp with hp | hp
  · exact h p hp hkind
  · obtain rfl := List.mem_singleton.mp hp
    exact absurd hkind hne

/-- Ending a segment at a dot. -/
theorem grows_separator {t : Tokenizer} (ht : t.Coherent) (hne : t.segment ≠ [])
    (hentries : t.stage ≠ .afterEntries) (hpending : t.stage.pending = []) :
    t.Grows { t.finish with stage := .separator } ['.'] := by
  rw [finish_eq hne]
  refine ⟨⟨⟨?_, rfl⟩, numbers_finish ht⟩, ?_⟩
  · rw [Path.needsDot_append, isLeading_lastPart]
    rfl
  · have hseparator : TokenizerStage.separator.pending = [] := rfl
    simp [display, Path.renderBefore_append, hentries, hpending, hseparator]

theorem grows_dot {t t' : Tokenizer} (ht : t.Coherent) (h : t.dot = .ok t')
    (halive : ∀ n, t'.stage ≠ .stray n) : t.Grows t' ['.'] := by
  have hfits := ht.fits
  unfold StageFits at hfits
  unfold dot at h
  cases hstage : t.stage <;> simp only [hstage] at hfits h
  case start =>
    obtain ⟨hparts, hsegment⟩ := hfits
    split at h
    · cases h
      refine ⟨⟨⟨?_, hsegment⟩, ht.numbers⟩, ?_⟩
      · rw [hparts]
        rfl
      · simp [display, hstage, hparts, hsegment, TokenizerStage.pending]
    · cases h
  case dot =>
    cases h
    exact ⟨⟨hfits, ht.numbers⟩, by simp [display, hstage, TokenizerStage.pending]⟩
  case afterParent =>
    cases h
    exact ⟨⟨hfits, ht.numbers⟩, by simp [display, hstage, TokenizerStage.pending]⟩
  case segment =>
    cases h
    exact grows_separator ht hfits (by simp [hstage]) (by rw [hstage]; rfl)
  case number =>
    split at h
    · cases h
      exact grows_separator ht hfits.2 (by simp [hstage]) (by rw [hstage]; rfl)
    · cases h
      exact ⟨⟨hfits, ht.numbers⟩, by simp [display, hstage, TokenizerStage.pending]⟩
  case afterEntries =>
    cases h
    refine ⟨⟨hfits, ht.numbers⟩, ?_⟩
    simp [display, hstage, hfits.2, TokenizerStage.pending, Path.renderBefore_of_needsDot hfits.1]
  -- A dot too many goes astray.
  case afterRoot => cases h; exact absurd rfl (halive 1)
  case separator => cases h; exact absurd rfl (halive 2)
  all_goals cases h

theorem grows_root {t t' : Tokenizer} (ht : t.Coherent) (h : t.root = .ok t') :
    t.Grows t' ['~'] := by
  unfold root at h
  split at h
  · next hstart =>
    simp only [Bool.and_eq_true, beq_iff_eq] at hstart
    have hfits := ht.fits
    simp only [StageFits, hstart.1] at hfits
    cases h
    refine ⟨⟨⟨?_, hfits.2⟩, numbers_select (by decide) ht.numbers⟩, ?_⟩
    · simp [select, Part.selector, Part.isLeading]
    · simp [display, select, hstart.1, hfits.1, hfits.2, TokenizerStage.pending, Path.renderBefore,
        Path.render, Path.needsDot, Part.selector, Part.render, Part.isLeading]
  · cases h

theorem grows_slash {t t' : Tokenizer} (ht : t.Coherent) (h : t.slash = .ok t') :
    t.Grows t' ['/'] := by
  have hfits := ht.fits
  unfold StageFits at hfits
  unfold slash at h
  cases hstage : t.stage <;> simp only [hstage] at hfits h
  case dotDot =>
    cases h
    refine ⟨⟨⟨?_, hfits.2⟩, numbers_select (by decide) ht.numbers⟩, ?_⟩
    · simp [select, Part.selector, Part.isLeading]
    · simp [display, select, hstage, hfits.2, TokenizerStage.pending, Path.renderBefore_append,
        Part.selector, Part.render, Part.isLeading]
  all_goals cases h

/-- The state after an object selector, which follows all that was read before it. -/
theorem coherent_afterEntries {t : Tokenizer} (hsegment : t.segment = [])
    (hnumbers : ∀ p ∈ t.parts, p.kind = .number → isNumberLiteral p.keyText.toList = true) :
    Coherent { t.select .entries with stage := .afterEntries } ∧
      display { t.select .entries with stage := .afterEntries } =
        t.parts.renderBefore ++ ['?'] := by
  refine ⟨⟨⟨?_, hsegment⟩, numbers_select (by decide) hnumbers⟩, ?_⟩
  · simp [select, Part.selector, Part.isLeading]
  · simp [display, select, hsegment, Path.render_append, TokenizerStage.pending, Part.selector,
      Part.render]

/-- An object selector directly after a name is written with a dot before it, and that dot may as
well be read. -/
theorem feed_dot_entries {t : Tokenizer} (hne : t.segment ≠ [])
    (hstage : t.stage = .segment ∨ t.stage = .number) :
    t.feed ['.', '?'] = .ok { t.finish.select .entries with stage := .afterEntries } := by
  have hdot : t.add '.' = t.dot := rfl
  have hentries (u : Tokenizer) : u.feed ['?'] = u.entries := by
    cases h : u.entries with
    | error fault =>
      have hadd : u.add '?' = .error fault := h
      simp only [feed, List.foldlM_cons, hadd]
      rfl
    | ok u' =>
      have hadd : u.add '?' = .ok u' := h
      rw [feed_cons hadd, feed_nil]
  rcases hstage with hstage | hstage
  · have hread : t.add '.' = .ok { t.finish with stage := .separator } := by
      rw [hdot, dot, hstage]
    rw [feed_cons hread, hentries]
    rfl
  · cases hpoint : t.hasPoint with
    | true =>
      have hread : t.add '.' = .ok { t.finish with stage := .separator } := by
        rw [hdot, dot, hstage, hpoint]
        rfl
      rw [feed_cons hread, hentries]
      rfl
    -- The dot might be a decimal point; the question mark shows that it is none.
    | false =>
      have hread : t.add '.' = .ok { t with stage := .numberDot } := by
        rw [hdot, dot, hstage, hpoint]
        rfl
      rw [feed_cons hread, hentries]
      show Except.ok { (finish { t with stage := .numberDot }).select .entries with
        stage := .afterEntries } = _
      rw [finish_eq hne, finish_eq (t := { t with stage := .numberDot }) hne]
      rfl

/-- What is written down for a character that is read: the character, and a dot before an object
selector directly after a name. -/
def Writes (t : Tokenizer) (c : Char) (ds : List Char) : Prop :=
  ds = [c] ∨ c = '?' ∧ ds = ['.', '?'] ∧ (t.stage = .segment ∨ t.stage = .number)

theorem grows_entries {t t' : Tokenizer} (ht : t.Coherent) (h : t.entries = .ok t') :
    ∃ ds, t.Writes '?' ds ∧ t.Grows t' ds ∧ t.feed ds = .ok t' := by
  have hfits := ht.fits
  unfold StageFits at hfits
  have hadd : t.feed ['?'] = .ok t' := by
    have hadd : t.add '?' = .ok t' := h
    rw [feed_cons hadd, feed_nil]
  unfold entries at h
  cases hstage : t.stage <;> simp only [hstage] at hfits h
  case start =>
    cases h
    obtain ⟨hc, hd⟩ := coherent_afterEntries hfits.2 ht.numbers
    refine ⟨['?'], .inl rfl, ⟨hc, hd.trans ?_⟩, hadd⟩
    simp [display, hstage, hfits.2, TokenizerStage.pending]
  case separator | afterRoot | afterParent =>
    cases h
    obtain ⟨hc, hd⟩ := coherent_afterEntries hfits.2 ht.numbers
    refine ⟨['?'], .inl rfl, ⟨hc, hd.trans ?_⟩, hadd⟩
    simp [display, hstage, hfits.2, TokenizerStage.pending]
  case dot =>
    split at h
    · cases h
      obtain ⟨hc, hd⟩ := coherent_afterEntries (t := t.select .self) hfits.2
        (numbers_select (by decide) ht.numbers)
      refine ⟨['?'], .inl rfl, ⟨hc, hd.trans ?_⟩, hadd⟩
      simp [display, hstage, hfits.2, TokenizerStage.pending, select, Path.renderBefore_append,
        Part.selector, Part.isLeading, Part.render]
    · cases h
  -- The dot that was pending separates the number from the selector.
  case numberDot =>
    cases h
    obtain ⟨hc, hd⟩ := coherent_afterEntries (t := t.finish) (by rw [finish_eq hfits.2])
      (by rw [finish_eq hfits.2]; exact numbers_finish ht)
    refine ⟨['?'], .inl rfl, ⟨hc, hd.trans ?_⟩, hadd⟩
    simp [display, hstage, TokenizerStage.pending, finish_eq hfits.2, Path.renderBefore_append]
  -- Here a dot is written down that was not read.
  case segment =>
    cases h
    obtain ⟨hc, hd⟩ := coherent_afterEntries (t := t.finish) (by rw [finish_eq hfits])
      (by rw [finish_eq hfits]; exact numbers_finish ht)
    refine ⟨['.', '?'], .inr ⟨rfl, rfl, .inl hstage⟩, ⟨hc, hd.trans ?_⟩,
      feed_dot_entries hfits (.inl hstage)⟩
    simp [display, hstage, TokenizerStage.pending, finish_eq hfits, Path.renderBefore_append]
  case number =>
    cases h
    obtain ⟨hc, hd⟩ := coherent_afterEntries (t := t.finish) (by rw [finish_eq hfits.2])
      (by rw [finish_eq hfits.2]; exact numbers_finish ht)
    refine ⟨['.', '?'], .inr ⟨rfl, rfl, .inr hstage⟩, ⟨hc, hd.trans ?_⟩,
      feed_dot_entries hfits.2 (.inr hstage)⟩
    simp [display, hstage, TokenizerStage.pending, finish_eq hfits.2, Path.renderBefore_append]
  all_goals cases h

/-- Where a segment begins, nothing is pending: the tokenizer is where the text it has written down
ends. -/
theorem coherent_beginSegment {t u : Tokenizer} (ht : t.Coherent)
    (h : t.beginSegment = .ok (some u)) :
    u.parts.renderBefore = t.display ∧ u.segment = [] ∧
      ∀ p ∈ u.parts, p.kind = .number → isNumberLiteral p.keyText.toList = true := by
  have hfits := ht.fits
  unfold StageFits at hfits
  unfold beginSegment at h
  cases hstage : t.stage <;> simp only [hstage] at hfits h
  case start | separator | afterRoot | afterParent =>
    cases h
    refine ⟨?_, hfits.2, ht.numbers⟩
    simp [display, hstage, hfits.2, TokenizerStage.pending]
  case dot =>
    split at h
    · cases h
      refine ⟨?_, hfits.2, numbers_select (by decide) ht.numbers⟩
      simp [display, hstage, hfits.2, TokenizerStage.pending, select, Path.renderBefore_append,
        Part.selector, Part.isLeading, Part.render]
    · cases h
  all_goals cases h

theorem grows_extend {t u : Tokenizer} (c : Char) {stage : TokenizerStage}
    (hdisplay : u.parts.renderBefore ++ u.segment = t.display)
    (hnumbers : ∀ p ∈ u.parts, p.kind = .number → isNumberLiteral p.keyText.toList = true)
    (hstage : stage = .segment ∨ stage = .number ∧ u.parts = []) :
    t.Grows (u.extend c stage) [c] := by
  rcases hstage with rfl | ⟨rfl, hparts⟩
  · refine ⟨⟨by simp [StageFits, extend], hnumbers⟩, ?_⟩
    rw [← hdisplay]
    simp [display, extend, TokenizerStage.pending]
  · refine ⟨⟨⟨hparts, by simp [extend]⟩, hnumbers⟩, ?_⟩
    rw [← hdisplay]
    simp [display, extend, TokenizerStage.pending]

theorem grows_dollar {t t' : Tokenizer} (ht : t.Coherent) (h : t.dollar = .ok t') :
    t.Grows t' ['$'] := by
  unfold dollar at h
  cases hbegin : t.beginSegment with
  | error fault => rw [hbegin] at h; cases h
  | ok u? =>
    cases u? with
    | none => rw [hbegin] at h; cases h
    | some u =>
      rw [hbegin] at h
      cases h
      obtain ⟨hdisplay, hsegment, hnumbers⟩ := coherent_beginSegment ht hbegin
      refine grows_extend '$' ?_ hnumbers (.inl rfl)
      rw [hsegment, List.append_nil, hdisplay]

theorem grows_word {t t' : Tokenizer} {c : Char} (ht : t.Coherent) (h : t.word c = .ok t') :
    t.Grows t' [c] := by
  have hfits := ht.fits
  unfold StageFits at hfits
  have hbegin : ∀ u, t.beginSegment = .ok (some u) →
      t' = u.extend c (if u.parts.isEmpty && c.isDigit then .number else .segment) →
      t.Grows t' [c] := by
    rintro u hu rfl
    obtain ⟨hdisplay, hsegment, hnumbers⟩ := coherent_beginSegment ht hu
    refine grows_extend c ?_ hnumbers ?_
    · rw [hsegment, List.append_nil, hdisplay]
    · cases hparts : u.parts with
      | nil => cases c.isDigit <;> simp
      | cons p ps => simp
  unfold word at h
  cases hstage : t.stage <;> simp only [hstage] at hfits h
  case segment =>
    cases h
    refine grows_extend c ?_ ht.numbers (.inl rfl)
    simp [display, hstage, TokenizerStage.pending]
  case number =>
    have hdisplay : t.parts.renderBefore ++ t.segment = t.display := by
      simp [display, hstage, TokenizerStage.pending]
    split at h
    · cases h
      exact grows_extend c hdisplay ht.numbers (.inr ⟨rfl, hfits.1⟩)
    split at h
    · cases h
    · cases h
      exact grows_extend c hdisplay ht.numbers (.inl rfl)
  -- A digit makes the dot a decimal point; any other character makes it a separator.
  case numberDot =>
    split at h
    · cases h
      refine ⟨⟨⟨hfits.1, by simp⟩, ht.numbers⟩, ?_⟩
      simp [display, hstage, TokenizerStage.pending]
    · cases h
      rw [finish_eq hfits.2]
      refine grows_extend c ?_ (numbers_finish ht) (.inl rfl)
      simp [display, hstage, TokenizerStage.pending, Path.renderBefore_append]
  all_goals
    cases hu : t.beginSegment with
    | error fault => rw [hu] at h; cases h
    | ok u? =>
      cases u? with
      | none => rw [hu] at h; cases h
      | some u =>
        rw [hu] at h
        cases h
        exact hbegin u hu rfl

/-- A state from which a coherent one is reached is none with stray dots. -/
theorem not_stray_of_add {t t' : Tokenizer} {c : Char} (h : t.add c = .ok t')
    (halive : ∀ n, t'.stage ≠ .stray n) (n : Nat) : t.stage ≠ .stray n := by
  intro hstage
  have hbegin : ∃ fault, t.beginSegment = .error fault := by
    unfold beginSegment
    rw [hstage]
    exact ⟨_, rfl⟩
  obtain ⟨fault, hbegin⟩ := hbegin
  unfold add at h
  split at h
  · simp only [root, hstage] at h
    cases h
  split at h
  · simp only [dot, hstage] at h
    cases h
    exact halive _ rfl
  split at h
  · simp only [slash, hstage] at h
    split at h <;> cases h
  split at h
  · simp only [entries, hstage] at h
    cases h
  split at h
  · unfold dollar at h
    rw [hbegin] at h
    cases h
  split at h
  · simp only [word, hstage, hbegin] at h
    cases h
  · cases h

/-- Once dots have gone astray they stay so. -/
theorem not_stray_of_feed {t t' : Tokenizer} {cs : List Char} (h : t.feed cs = .ok t')
    (halive : ∀ n, t'.stage ≠ .stray n) (n : Nat) : t.stage ≠ .stray n := by
  induction cs generalizing t n with
  | nil => cases h; exact halive n
  | cons c cs ih =>
    obtain ⟨t₁, hadd, hfeed⟩ := exists_of_feed_cons h
    exact not_stray_of_add hadd (ih hfeed) n

/-- One step: the text written down grows by characters that lead to the state reached. -/
theorem grows_add {t t' : Tokenizer} {c : Char} (ht : t.Coherent) (h : t.add c = .ok t')
    (halive : ∀ n, t'.stage ≠ .stray n) :
    ∃ ds, t.Writes c ds ∧ t.Grows t' ds ∧ t.feed ds = .ok t' := by
  have hsingle : t.feed [c] = .ok t' := by rw [feed_cons h, feed_nil]
  have hsame (hgrows : t.Grows t' [c]) : ∃ ds, t.Writes c ds ∧ t.Grows t' ds ∧ t.feed ds = .ok t' :=
    ⟨[c], .inl rfl, hgrows, hsingle⟩
  unfold add at h
  split at h
  · next hc => exact hsame (eq_of_beq hc ▸ grows_root ht h)
  split at h
  · next hc => exact hsame (eq_of_beq hc ▸ grows_dot ht h halive)
  split at h
  · next hc => exact hsame (eq_of_beq hc ▸ grows_slash ht h)
  split at h
  · next hc => exact eq_of_beq hc ▸ grows_entries ht h
  split at h
  · next hc => exact hsame (eq_of_beq hc ▸ grows_dollar ht h)
  split at h
  · exact hsame (grows_word ht h)
  · cases h

/-- A run: the text written down leads a tokenizer to the state that the text read led it to. -/
theorem feed_display {s t t' : Tokenizer} {cs : List Char} (h : t.feed cs = .ok t')
    (halive : ∀ n, t'.stage ≠ .stray n) (ht : t.Coherent) (hs : s.feed t.display = .ok t) :
    t'.Coherent ∧ s.feed t'.display = .ok t' := by
  induction cs generalizing t with
  | nil =>
    cases h
    exact ⟨ht, hs⟩
  | cons c cs ih =>
    obtain ⟨t₁, hadd, hfeed⟩ := exists_of_feed_cons h
    obtain ⟨ds, -, ⟨hcoherent, hdisplay⟩, hds⟩ := grows_add ht hadd (not_stray_of_feed hfeed halive)
    refine ih hfeed hcoherent ?_
    rw [hdisplay, feed_append hs, hds]

/-- The tokenizers with which paths begin. -/
def IsFresh (t : Tokenizer) : Prop :=
  t = leading ∨ t = continuation

theorem IsFresh.coherent {t : Tokenizer} (h : t.IsFresh) : t.Coherent := by
  rcases h with rfl | rfl <;> exact ⟨⟨rfl, rfl⟩, by simp [leading, continuation]⟩

theorem IsFresh.feed_display {s t : Tokenizer} {cs : List Char} (hs : s.IsFresh)
    (h : s.feed cs = .ok t) (halive : ∀ n, t.stage ≠ .stray n) :
    t.Coherent ∧ s.feed t.display = .ok t := by
  refine Tokenizer.feed_display h halive hs.coherent ?_
  rcases hs with rfl | rfl <;> rfl

/-! ## How the end of a path is read -/

theorem exists_of_bind_ok {ε α β : Type} {x : Except ε α} {f : α → Except ε β} {b : β}
    (h : x >>= f = .ok b) : ∃ a, x = .ok a ∧ f a = .ok b := by
  cases x with
  | error e => cases h
  | ok a => exact ⟨a, rfl, h⟩

/-- What passes the check that a number stands alone is what was checked. -/
theorem eq_of_checked {α : Type} {parts : Path} {a b : α}
    (h : (checkNumber parts >>= fun _ => .ok a) = .ok b) : b = a := by
  obtain ⟨-, -, h⟩ := exists_of_bind_ok h
  cases h
  rfl

theorem path_eq_ok {t : Tokenizer} {parts : Path} (h : t.path = .ok parts) :
    (t.stage = .start ∨ t.stage = .afterParent ∨ t.stage = .afterRoot ∨ t.stage = .afterEntries) ∧
        parts = t.parts ∨
      t.stage = .dot ∧ t.parts = [] ∧ parts = [.selector .self] ∨
        (t.stage = .segment ∨ t.stage = .number) ∧ parts = t.finish.parts := by
  unfold path at h
  cases hstage : t.stage <;> simp only [hstage] at h
  case dot =>
    split at h
    · next hempty =>
      have hnil : t.parts = [] := List.isEmpty_iff.mp hempty
      exact .inr (.inl ⟨rfl, hnil, (eq_of_checked h).trans (by simp [select, hnil])⟩)
    · cases h
  case start | afterParent | afterRoot | afterEntries => exact .inl ⟨by simp, eq_of_checked h⟩
  case segment | number => exact .inr (.inr ⟨by simp, eq_of_checked h⟩)
  all_goals cases h

theorem call_eq_ok {t : Tokenizer} {parts : Path} {name : String}
    (h : t.call = .ok (parts, name)) :
    (t.stage = .start ∨ t.stage = .separator) ∧ parts = t.parts ∧ name = "" ∨
      t.stage = .dot ∧ t.parts = [] ∧ parts = [.selector .self] ∧ name = "" ∨
        t.stage = .numberDot ∧ parts = t.finish.parts ∧ name = "" ∨
          (t.stage = .segment ∨ t.stage = .number) ∧
            t.finish.parts.getLast? = some ⟨.member, some name⟩ ∧
              parts = t.finish.parts.dropLast := by
  unfold call at h
  cases hstage : t.stage <;> simp only [hstage] at h
  case dot =>
    split at h
    · next hempty =>
      have hnil : t.parts = [] := List.isEmpty_iff.mp hempty
      obtain ⟨rfl, rfl⟩ := Prod.mk.inj (eq_of_checked h)
      exact .inr (.inl ⟨rfl, hnil, by simp [select, hnil], rfl⟩)
    · cases h
  case start | separator =>
    obtain ⟨rfl, rfl⟩ := Prod.mk.inj (eq_of_checked h)
    exact .inl ⟨by simp, rfl, rfl⟩
  case numberDot =>
    obtain ⟨rfl, rfl⟩ := Prod.mk.inj (eq_of_checked h)
    exact .inr (.inr (.inl ⟨rfl, rfl, rfl⟩))
  case segment | number =>
    split at h
    · next key hlast =>
      obtain ⟨rfl, rfl⟩ := Prod.mk.inj (eq_of_checked h)
      exact .inr (.inr (.inr ⟨by simp, hlast, rfl⟩))
    · cases h
  all_goals cases h

/-- The path read is written as the tokenizer displays it. -/
theorem render_of_path {t : Tokenizer} {parts : Path} (ht : t.Coherent)
    (h : t.path = .ok parts) : Path.render parts = t.display := by
  have hfits := ht.fits
  unfold StageFits at hfits
  rcases path_eq_ok h with ⟨hstage, rfl⟩ | ⟨hstage, hparts, rfl⟩ | ⟨hstage, rfl⟩
  · rcases hstage with hstage | hstage | hstage | hstage <;> simp only [hstage] at hfits
    · simp [display, hstage, hfits.1, hfits.2, TokenizerStage.pending, Path.renderBefore,
        Path.needsDot, Path.render]
    · simp [display, hstage, hfits.2, TokenizerStage.pending,
        Path.renderBefore_of_not_needsDot hfits.1]
    · simp [display, hstage, hfits.2, TokenizerStage.pending,
        Path.renderBefore_of_not_needsDot hfits.1]
    · simp [display, hstage, hfits.2, TokenizerStage.pending]
  · simp only [hstage] at hfits
    simp [display, hstage, hparts, hfits.2, TokenizerStage.pending, Path.renderBefore,
      Path.needsDot, Path.render, Part.selector, Part.render]
  · have hne : t.segment ≠ [] := by
      rcases hstage with hstage | hstage <;> simp only [hstage] at hfits
      · exact hfits
      · exact hfits.2
    have hpending : t.stage.pending = [] ∧ t.stage ≠ .afterEntries := by
      rcases hstage with hstage | hstage <;> simp [hstage, TokenizerStage.pending]
    simp [display, hpending, finish_eq hne, Path.render_append]

/-- The path and the name of a call are written as the tokenizer displays them. -/
theorem render_of_call {t : Tokenizer} {parts : Path} {name : String} (ht : t.Coherent)
    (h : t.call = .ok (parts, name)) : parts.renderBefore ++ name.toList = t.display := by
  have hfits := ht.fits
  unfold StageFits at hfits
  rcases call_eq_ok h with ⟨hstage, rfl, rfl⟩ | ⟨hstage, hparts, rfl, rfl⟩ | ⟨hstage, rfl, rfl⟩ |
    ⟨hstage, hlast, rfl⟩
  · rcases hstage with hstage | hstage <;> simp only [hstage] at hfits <;>
      simp [display, hstage, hfits.2, TokenizerStage.pending]
  · simp only [hstage] at hfits
    simp [display, hstage, hparts, hfits.2, TokenizerStage.pending, Path.renderBefore,
      Path.needsDot, Path.render, Part.selector, Part.render, Part.isLeading]
  · simp only [hstage] at hfits
    simp [display, hstage, TokenizerStage.pending, finish_eq hfits.2, Path.renderBefore_append]
  · have hne : t.segment ≠ [] := by
      rcases hstage with hstage | hstage <;> simp only [hstage] at hfits
      · exact hfits
      · exact hfits.2
    have hpending : t.stage.pending = [] ∧ t.stage ≠ .afterEntries := by
      rcases hstage with hstage | hstage <;> simp [hstage, TokenizerStage.pending]
    rw [finish_eq hne] at hlast ⊢
    have hname : t.lastPart = ⟨.member, some name⟩ := by simpa using hlast
    have hsegment : name.toList = t.segment := by
      rw [← render_lastPart t, hname]
      rfl
    simp [display, hpending, hsegment]

theorem not_stray_of_path {t : Tokenizer} {parts : Path} (h : t.path = .ok parts) (n : Nat) :
    t.stage ≠ .stray n := by
  rcases path_eq_ok h with ⟨h | h | h | h, -⟩ | ⟨h, -⟩ | ⟨h | h, -⟩ <;> simp [h]

theorem not_stray_of_call {t : Tokenizer} {parts : Path} {name : String}
    (h : t.call = .ok (parts, name)) (n : Nat) : t.stage ≠ .stray n := by
  rcases call_eq_ok h with ⟨h | h, -⟩ | ⟨h, -⟩ | ⟨h, -⟩ | ⟨h | h, -⟩ <;> simp [h]

theorem expectsSlash_of_path {t : Tokenizer} {parts : Path} (h : t.path = .ok parts) :
    t.expectsSlash = false := by
  rcases path_eq_ok h with ⟨h | h | h | h, -⟩ | ⟨h, -⟩ | ⟨h | h, -⟩ <;> simp [expectsSlash, h]

theorem expectsSlash_of_call {t : Tokenizer} {parts : Path} {name : String}
    (h : t.call = .ok (parts, name)) : t.expectsSlash = false := by
  rcases call_eq_ok h with ⟨h | h, -⟩ | ⟨h, -⟩ | ⟨h, -⟩ | ⟨h | h, -⟩ <;> simp [expectsSlash, h]

/-- A path written down is read as the same path. -/
theorem feed_render_of_path {s t : Tokenizer} {cs : List Char} {parts : Path} (hs : s.IsFresh)
    (hfeed : s.feed cs = .ok t) (h : t.path = .ok parts) : s.feed (Path.render parts) = .ok t := by
  obtain ⟨hcoherent, hdisplay⟩ := hs.feed_display hfeed (not_stray_of_path h)
  rw [render_of_path hcoherent h]
  exact hdisplay

/-- The path and the name of a call, written down, are read as the same path and name. -/
theorem feed_render_of_call {s t : Tokenizer} {cs : List Char} {parts : Path} {name : String}
    (hs : s.IsFresh) (hfeed : s.feed cs = .ok t) (h : t.call = .ok (parts, name)) :
    s.feed (parts.renderBefore ++ name.toList) = .ok t := by
  obtain ⟨hcoherent, hdisplay⟩ := hs.feed_display hfeed (not_stray_of_call h)
  rw [render_of_call hcoherent h]
  exact hdisplay

/-- A number that is read as a path is a number literal. -/
theorem isNumberLiteral_of_path {s t : Tokenizer} {cs : List Char} {parts : Path} (hs : s.IsFresh)
    (hfeed : s.feed cs = .ok t) (h : t.path = .ok parts) {p : Part} (hp : p ∈ parts)
    (hkind : p.kind = .number) : isNumberLiteral p.keyText.toList = true := by
  obtain ⟨hcoherent, -⟩ := hs.feed_display hfeed (not_stray_of_path h)
  rcases path_eq_ok h with ⟨-, rfl⟩ | ⟨-, -, rfl⟩ | ⟨-, rfl⟩
  · exact hcoherent.numbers p hp hkind
  · obtain rfl := List.mem_singleton.mp hp
    cases hkind
  · cases hempty : t.segment.isEmpty with
    | true =>
      rw [finish, if_pos hempty] at hp
      exact hcoherent.numbers p hp hkind
    | false =>
      rw [finish_eq (by simpa using hempty)] at hp
      exact numbers_finish hcoherent p hp hkind

/-- Whatever is read, the beginning is left. -/
theorem stage_ne_start_of_add {t t' : Tokenizer} {c : Char} (h : t.add c = .ok t') :
    t'.stage ≠ .start := by
  unfold add at h
  split at h
  · unfold root at h
    split at h <;> cases h
    simp
  split at h
  · unfold dot at h
    cases hstage : t.stage <;> simp only [hstage] at h
    case start | number => split at h <;> cases h <;> simp
    all_goals first | cases h; done | cases h; simp
  split at h
  · unfold slash at h
    cases hstage : t.stage <;> simp only [hstage] at h
    case stray => split at h <;> cases h
    all_goals first | cases h; done | cases h; simp
  split at h
  · rw [stage_of_add_entries h]
    simp
  split at h
  · unfold dollar at h
    obtain ⟨u?, -, h⟩ := exists_of_bind_ok h
    cases u? <;> cases h
    simp [extend]
  split at h
  · unfold word at h
    cases hstage : t.stage <;> simp only [hstage] at h
    case segment => cases h; simp [extend]
    case number =>
      split at h
      · cases h; simp [extend]
      split at h <;> cases h
      simp [extend]
    case numberDot => split at h <;> cases h <;> simp [extend]
    all_goals
      obtain ⟨u?, -, h⟩ := exists_of_bind_ok h
      cases u? <;> cases h
      split <;> simp [extend]
  · cases h

theorem stage_ne_start_of_feed {t t' : Tokenizer} {cs : List Char} (hne : cs ≠ [])
    (h : t.feed cs = .ok t') : t'.stage ≠ .start := by
  induction cs generalizing t with
  | nil => exact absurd rfl hne
  | cons c cs ih =>
    obtain ⟨t₁, hadd, hfeed⟩ := exists_of_feed_cons h
    cases cs with
    | nil =>
      cases hfeed
      exact stage_ne_start_of_add hadd
    | cons d ds => exact ih (List.cons_ne_nil d ds) hfeed

/-- Only nothing leaves a tokenizer at the beginning. -/
theorem IsFresh.isEmpty_iff {s t : Tokenizer} {cs : List Char} (hs : s.IsFresh)
    (h : s.feed cs = .ok t) : t.isEmpty = true ↔ cs = [] := by
  unfold isEmpty
  rw [beq_iff_eq]
  constructor
  · intro hstart
    cases cs with
    | nil => rfl
    | cons c cs => exact absurd hstart (stage_ne_start_of_feed (List.cons_ne_nil c cs) h)
  · rintro rfl
    cases h
    rcases hs with rfl | rfl <;> rfl

/-- A path that was read from something is written down as something. -/
theorem IsFresh.display_ne_nil {s t : Tokenizer} {cs ds : List Char} (hs : s.IsFresh)
    (h : s.feed cs = .ok t) (hd : s.feed ds = .ok t) (hne : cs ≠ []) : ds ≠ [] := by
  intro hnil
  exact hne ((hs.isEmpty_iff h).mp ((hs.isEmpty_iff hd).mpr hnil))

end Tokenizer

end Stencil
