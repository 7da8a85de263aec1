import Mathlib.Data.List.TakeWhile
import Stencil.Proofs.PathText

/-!
# The paths that can be read

Whatever characters a tokenizer is fed, the path it comes to has one form: selectors that lead (the
root, the context itself, or several times the enclosing context), and after them steps to members
and object selectors. Only where nothing leads can the first step be a literal, and a number stands
alone.

The form is told without the tokenizer (`Path.WellFormed`). `Shaped` says of a state that the parts
read so far have it, and what the stage knows of the segment that is being read: a key, or a number
whose point was seen or not. It is kept by each character (`shaped_add`), so it holds of every run.

Main statement: `path_tokens_roundTrip`, the path read is well formed, and written down it is read
again as it is, with or without the name of a formatter after it.
-/

namespace Stencil

/-! ## The form of a path -/

/-- Whether a text may be the key of a member: word characters, before which one dollar sign may
stand. -/
def isKey : List Char → Bool
  | [] => false
  | c :: rest => (c == '$' || Text.isWord c) && rest.all Text.isWord

/-- A member that is named by a key, or the list of all members. -/
def Part.IsStep (p : Part) : Prop :=
  p = .selector .entries ∨ ∃ key : String, p = .member key ∧ isKey key.toList = true

/-- A name that stands for a value, or a number. -/
inductive Part.IsLiteral : Part → Prop where
  | boolean {key : String} (h : key = "true" ∨ key = "false") : IsLiteral ⟨.boolean, some key⟩
  | null : IsLiteral ⟨.null, some "null"⟩
  | number {key : String} (h : isNumberLiteral key.toList = true) : IsLiteral ⟨.number, some key⟩

namespace Path

/-- The selectors that may lead a path: none, the root, one or more times the enclosing context, or
the context itself. -/
inductive IsLead : Path → Prop where
  | nothing : IsLead []
  | root : IsLead [.selector .root]
  | parents (n : Nat) : IsLead (List.replicate (n + 1) (.selector .parent))
  | self : IsLead [.selector .self]

/-- Selectors that lead, and the steps after them. A literal is the first step of all, and what
could be read as a number there is one. -/
structure Consists (selectors : Bool) (lead steps : Path) : Prop where
  isLead : IsLead lead
  allowed : lead ≠ [] → selectors = true
  step : ∀ i p, steps[i]? = some p → p.IsStep ∨ i = 0 ∧ lead = [] ∧ p.IsLiteral
  number_iff : ∀ i p, steps[i]? = some p →
    (p.kind = .number ↔ i = 0 ∧ lead = [] ∧ isNumberLiteral p.keyText.toList = true)

/-- The form of the parts while a path is read. -/
def IsRead (selectors : Bool) (parts : Path) : Prop :=
  ∃ lead steps, parts = lead ++ steps ∧ Consists selectors lead steps

/-- The form of a path that was read to its end: a number stands alone. -/
structure WellFormed (selectors : Bool) (parts : Path) : Prop where
  isRead : parts.IsRead selectors
  alone : ∀ p ∈ parts, p.kind = .number → parts = [p]

/-! ### Paths that grow -/

theorem isRead_lead {selectors : Bool} {lead : Path} (h : IsLead lead)
    (hallowed : lead ≠ [] → selectors = true) : IsRead selectors lead :=
  ⟨lead, [], (List.append_nil lead).symm, h, hallowed, by simp, by simp⟩

theorem isRead_nil (selectors : Bool) : IsRead selectors [] :=
  isRead_lead .nothing (absurd rfl)

/-- The enclosing context, any number of times. -/
theorem isRead_parents (n : Nat) : IsRead true (List.replicate n (.selector .parent)) := by
  cases n with
  | zero => exact isRead_nil true
  | succ n => exact isRead_lead (.parents n) fun _ => rfl

/-- A step after all that was read. At the very beginning no name of a member is taken that is a
number. -/
theorem IsRead.step {selectors : Bool} {parts : Path} (h : parts.IsRead selectors) {p : Part}
    (hp : p.IsStep) (hname : parts = [] → isNumberLiteral p.keyText.toList = false) :
    IsRead selectors (parts ++ [p]) := by
  obtain ⟨lead, steps, rfl, h⟩ := h
  have hcases : ∀ i q, (steps ++ [p])[i]? = some q →
      steps[i]? = some q ∨ i = steps.length ∧ q = p := by
    intro i q hq
    rw [List.getElem?_append] at hq
    split at hq
    · exact .inl hq
    · next hge =>
      obtain ⟨hi, rfl⟩ := by simpa [List.getElem?_singleton] using hq
      exact .inr ⟨by omega, rfl⟩
  refine ⟨lead, steps ++ [p], List.append_assoc _ _ _, h.isLead, h.allowed, ?_, ?_⟩
  · intro i q hq
    rcases hcases i q hq with hq | ⟨-, rfl⟩
    · exact h.step i q hq
    · exact .inl hp
  · intro i q hq
    rcases hcases i q hq with hq | ⟨rfl, rfl⟩
    · exact h.number_iff i q hq
    · constructor
      · intro hkind
        rcases hp with rfl | ⟨key, rfl, -⟩ <;> cases hkind
      · rintro ⟨hzero, rfl, hnumber⟩
        rw [hname (by simpa using hzero)] at hnumber
        cases hnumber

end Path

/-- Only numbers are taken for numbers, and all of them are. -/
theorem PartKind.ofLeading_eq_number_iff (key : List Char) :
    PartKind.ofLeading key = .number ↔ isNumberLiteral key = true := by
  unfold PartKind.ofLeading
  split
  · next hboolean =>
    simp only [Bool.or_eq_true, beq_iff_eq] at hboolean
    rcases hboolean with rfl | rfl <;> decide
  split
  · next hnull =>
    obtain rfl := eq_of_beq hnull
    decide
  split
  · next hnumber => exact ⟨fun _ => hnumber, fun _ => rfl⟩
  · next hnone => exact ⟨nofun, fun hnumber => absurd hnumber hnone⟩

/-- A leading segment is a literal, or else names a member. -/
theorem Part.ofLeading_cases {key : List Char}
    (hkey : isKey key = true ∨ isNumberLiteral key = true) :
    Part.IsStep ⟨.ofLeading key, some (String.ofList key)⟩ ∨
      Part.IsLiteral ⟨.ofLeading key, some (String.ofList key)⟩ := by
  unfold PartKind.ofLeading
  split
  · next hboolean =>
    simp only [Bool.or_eq_true, beq_iff_eq] at hboolean
    refine .inr (.boolean ?_)
    rcases hboolean with rfl | rfl
    · exact .inl String.ofList_toList
    · exact .inr String.ofList_toList
  split
  · next hnull =>
    obtain rfl := eq_of_beq hnull
    rw [String.ofList_toList]
    exact .inr .null
  split
  · next hnumber =>
    refine .inr (.number ?_)
    rw [String.toList_ofList]
    exact hnumber
  · next hnone =>
    refine .inl (.inr ⟨_, rfl, ?_⟩)
    rw [String.toList_ofList]
    exact hkey.resolve_right hnone

/-- What the first segment becomes where nothing leads. -/
theorem Path.isRead_ofLeading (selectors : Bool) {key : List Char}
    (hkey : isKey key = true ∨ isNumberLiteral key = true) :
    IsRead selectors [⟨.ofLeading key, some (String.ofList key)⟩] := by
  refine ⟨[], _, rfl, .nothing, absurd rfl, ?_, ?_⟩
  all_goals
    intro i p hp
    obtain ⟨rfl, rfl⟩ := by simpa [List.getElem?_singleton] using hp
  · exact (Part.ofLeading_cases hkey).imp id fun hp => ⟨rfl, rfl, hp⟩
  · simpa [Part.keyText] using PartKind.ofLeading_eq_number_iff key

/-! ## Segments -/

theorem isWord_of_isDigit {c : Char} (h : c.isDigit = true) : Text.isWord c = true := by
  have hsmall : c.toNat < 0x80 := by
    simp only [Char.isDigit, Bool.and_eq_true, decide_eq_true_eq] at h
    have hle : c.val.toNat ≤ 57 := UInt32.le_iff_toNat_le.mp h.2
    show c.val.toNat < 0x80
    omega
  unfold Text.isWord Text.isAlphanumeric
  rw [if_pos hsmall, Char.isAlphanum, h, Bool.or_true, Bool.true_or]

theorem isKey_concat {key : List Char} {c : Char} (h : isKey key = true)
    (hc : Text.isWord c = true) : isKey (key ++ [c]) = true := by
  cases key with
  | nil => cases h
  | cons d rest =>
    simp only [isKey, Bool.and_eq_true] at h
    simp [isKey, h.1, h.2, hc]

/-- Digits, and at least one. -/
def IsDigits (cs : List Char) : Prop :=
  cs ≠ [] ∧ ∀ c ∈ cs, c.isDigit = true

theorem isDigits_singleton {c : Char} (h : c.isDigit = true) : IsDigits [c] :=
  ⟨List.cons_ne_nil c [], by simpa using h⟩

theorem IsDigits.concat {cs : List Char} (h : IsDigits cs) {c : Char} (hc : c.isDigit = true) :
    IsDigits (cs ++ [c]) := by
  refine ⟨by simp, List.forall_mem_append.mpr ⟨h.2, by simpa using hc⟩⟩

/-- Digits and another word character are a name. -/
theorem IsDigits.isKey_concat {cs : List Char} (h : IsDigits cs) {c : Char}
    (hc : Text.isWord c = true) : isKey (cs ++ [c]) = true := by
  refine Stencil.isKey_concat ?_ hc
  cases cs with
  | nil => exact absurd rfl h.1
  | cons d rest =>
    obtain ⟨hd, hrest⟩ := List.forall_mem_cons.mp h.2
    simp only [isKey, isWord_of_isDigit hd, Bool.or_true, Bool.true_and, List.all_eq_true]
    exact fun x hx => isWord_of_isDigit (hrest x hx)

theorem IsDigits.isNumberLiteral {cs : List Char} (h : IsDigits cs) :
    isNumberLiteral cs = true := by
  have hwhole : cs.takeWhile Char.isDigit = cs := List.takeWhile_eq_self_iff.mpr h.2
  have hrest : cs.dropWhile Char.isDigit = [] := List.dropWhile_eq_nil_iff.mpr h.2
  simp [Stencil.isNumberLiteral, hwhole, hrest, h.1]

theorem isNumberLiteral_point {whole fraction : List Char} (h : IsDigits whole)
    (h' : IsDigits fraction) : isNumberLiteral (whole ++ '.' :: fraction) = true := by
  have hwhole : (whole ++ '.' :: fraction).takeWhile Char.isDigit = whole := by
    rw [List.takeWhile_append_of_pos h.2]
    simp
  have hrest : (whole ++ '.' :: fraction).dropWhile Char.isDigit = '.' :: fraction := by
    rw [List.dropWhile_append_of_pos h.2]
    simp
  simp [isNumberLiteral, hwhole, hrest, h.1, h'.1]
  exact h'.2

namespace Tokenizer

/-! ## States -/

/-- What the stage says about what was read, beyond `StageFits`. -/
def StageTells (t : Tokenizer) : Prop :=
  match t.stage with
  | .dot | .dotDot | .afterParent =>
    t.selectors = true ∧ ∃ n, t.parts = List.replicate n (.selector .parent)
  | .segment => isKey t.segment = true
  | .number =>
    if t.hasPoint then
      ∃ whole fraction, t.segment = whole ++ '.' :: fraction ∧ IsDigits whole ∧ IsDigits fraction
    else IsDigits t.segment
  | .numberDot => IsDigits t.segment
  | _ => True

/-- The parts have the form of a path, and the segment that of what it will become. -/
structure Shaped (may : Bool) (t : Tokenizer) : Prop where
  selectors : t.selectors = may
  isRead : t.parts.IsRead may
  tells : t.StageTells
  /-- A point is kept in mind as long as the number is read. -/
  point : t.hasPoint = true → t.stage = .number

/-- A segment that is ended is a key, or a number if it is the first. -/
theorem Shaped.segment_cases {may : Bool} {t : Tokenizer} (h : t.Shaped may)
    (ht : t.Coherent) (hstage : t.stage = .segment ∨ t.stage = .number ∨ t.stage = .numberDot) :
    t.segment ≠ [] ∧
      (isKey t.segment = true ∨ t.parts = [] ∧ isNumberLiteral t.segment = true) := by
  have hfits := ht.fits
  have htells := h.tells
  unfold StageFits at hfits
  unfold StageTells at htells
  rcases hstage with hstage | hstage | hstage <;> simp only [hstage] at hfits htells
  · exact ⟨hfits, .inl htells⟩
  · refine ⟨hfits.2, .inr ⟨hfits.1, ?_⟩⟩
    split at htells
    · obtain ⟨whole, fraction, hsegment, hwhole, hfraction⟩ := htells
      rw [hsegment]
      exact isNumberLiteral_point hwhole hfraction
    · exact htells.isNumberLiteral
  · exact ⟨hfits.2, .inr ⟨hfits.1, htells.isNumberLiteral⟩⟩

/-- The parts after a segment was ended. -/
theorem Shaped.isRead_finish {may : Bool} {t : Tokenizer} (h : t.Shaped may)
    (ht : t.Coherent) (hstage : t.stage = .segment ∨ t.stage = .number ∨ t.stage = .numberDot) :
    t.finish.parts.IsRead may ∧ t.finish.parts ≠ [] := by
  obtain ⟨hne, hsegment⟩ := h.segment_cases ht hstage
  rw [finish_eq hne]
  refine ⟨?_, by simp⟩
  cases hparts : t.parts with
  | nil =>
    have hlast : t.lastPart = ⟨.ofLeading t.segment, some (String.ofList t.segment)⟩ := by
      simp [lastPart, hparts]
    rw [hlast, List.nil_append]
    exact Path.isRead_ofLeading may (hsegment.imp id And.right)
  | cons p ps =>
    have hlast : t.lastPart = .member (String.ofList t.segment) := by
      simp [lastPart, hparts, Part.member]
    have hkey : isKey t.segment = true := by
      refine hsegment.resolve_right fun hnumber => ?_
      rw [hparts] at hnumber
      cases hnumber.1
    rw [hlast, ← hparts]
    refine h.isRead.step (.inr ⟨_, rfl, ?_⟩) fun hnil => ?_
    · rw [String.toList_ofList]
      exact hkey
    · rw [hparts] at hnil
      cases hnil

section Steps

variable {may : Bool} {t t' : Tokenizer}

/-- A number is read on only at its own stage. -/
theorem Shaped.hasPoint_eq_false (h : t.Shaped may) (hstage : t.stage ≠ .number) :
    t.hasPoint = false := by
  cases hpoint : t.hasPoint with
  | false => rfl
  | true => exact absurd (h.point hpoint) hstage

theorem hasPoint_finish (hne : t.segment ≠ []) : t.finish.hasPoint = false := by
  rw [finish_eq hne]

theorem selectors_finish (t : Tokenizer) : t.finish.selectors = t.selectors := by
  unfold finish
  split <;> rfl

/-- A state without a point in which something new begins. -/
theorem Shaped.fresh {u : Tokenizer} (hselectors : u.selectors = may)
    (hread : u.parts.IsRead may) (hpoint : u.hasPoint = false) (htells : u.StageTells) :
    u.Shaped may :=
  ⟨hselectors, hread, htells, fun h => by rw [hpoint] at h; cases h⟩

theorem shaped_root (h : t.Shaped may) (ht : t.Coherent) (hadd : t.root = .ok t') :
    t'.Shaped may := by
  unfold root at hadd
  split at hadd
  · next hstart =>
    simp only [Bool.and_eq_true, beq_iff_eq] at hstart
    have hfits := ht.fits
    simp only [StageFits, hstart.1] at hfits
    cases hadd
    have hmay : may = true := h.selectors.symm.trans hstart.2
    refine .fresh h.selectors ?_ (h.hasPoint_eq_false (by simp [hstart.1])) trivial
    show (t.parts ++ [Part.selector .root]).IsRead may
    rw [hfits.1]
    exact Path.isRead_lead .root fun _ => hmay
  · cases hadd

theorem shaped_slash (h : t.Shaped may) (hadd : t.slash = .ok t') : t'.Shaped may := by
  have htells := h.tells
  unfold StageTells at htells
  unfold slash at hadd
  cases hstage : t.stage <;> simp only [hstage] at htells hadd
  case dotDot =>
    cases hadd
    obtain ⟨hselectors, n, hparts⟩ := htells
    have hnext : (t.select .parent).parts = List.replicate (n + 1) (.selector .parent) := by
      show t.parts ++ [Part.selector .parent] = _
      rw [hparts, List.replicate_succ']
    have hmay : may = true := h.selectors.symm.trans hselectors
    refine .fresh h.selectors ?_ (h.hasPoint_eq_false (by simp [hstage])) ⟨hselectors, n + 1, hnext⟩
    show (t.select .parent).parts.IsRead may
    rw [hnext, hmay]
    exact Path.isRead_parents (n + 1)
  case stray => split at hadd <;> cases hadd
  all_goals cases hadd

theorem shaped_dot (h : t.Shaped may) (ht : t.Coherent) (hadd : t.dot = .ok t') :
    t'.Shaped may := by
  have hfits := ht.fits
  have htells := h.tells
  unfold StageFits at hfits
  unfold StageTells at htells
  unfold dot at hadd
  cases hstage : t.stage <;> simp only [hstage] at hfits htells hadd
  case start =>
    split at hadd
    · next hselectors =>
      cases hadd
      exact .fresh h.selectors h.isRead (h.hasPoint_eq_false (by simp [hstage]))
        ⟨hselectors, 0, hfits.1⟩
    · cases hadd
  case dot | afterParent =>
    cases hadd
    exact .fresh h.selectors h.isRead (h.hasPoint_eq_false (by simp [hstage])) htells
  case segment =>
    cases hadd
    exact .fresh ((selectors_finish t).trans h.selectors) (h.isRead_finish ht (.inl hstage)).1
      (hasPoint_finish hfits) trivial
  case number =>
    split at hadd
    · cases hadd
      exact .fresh ((selectors_finish t).trans h.selectors)
        (h.isRead_finish ht (.inr (.inl hstage))).1 (hasPoint_finish hfits.2) trivial
    · next hpoint =>
      cases hadd
      rw [if_neg hpoint] at htells
      exact .fresh h.selectors h.isRead (by simpa using hpoint) htells
  case afterEntries | afterRoot | separator =>
    cases hadd
    exact .fresh h.selectors h.isRead (h.hasPoint_eq_false (by simp [hstage])) trivial
  all_goals cases hadd

/-- The list of all members can be asked for after anything. -/
theorem shaped_select_entries {u : Tokenizer} (hselectors : u.selectors = may)
    (hread : u.parts.IsRead may) (hpoint : u.hasPoint = false) :
    Shaped may { u.select .entries with stage := .afterEntries } :=
  .fresh hselectors (hread.step (.inl rfl) fun _ => rfl) hpoint trivial

/-- A dot before what begins stands for the context itself. -/
theorem isRead_select_self (hmay : may = true) (hparts : t.parts = []) :
    (t.select .self).parts.IsRead may := by
  show (t.parts ++ [Part.selector .self]).IsRead may
  rw [hparts]
  exact Path.isRead_lead .self fun _ => hmay

theorem shaped_entries (h : t.Shaped may) (ht : t.Coherent) (hadd : t.entries = .ok t') :
    t'.Shaped may := by
  have hfits := ht.fits
  have htells := h.tells
  unfold StageFits at hfits
  unfold StageTells at htells
  unfold entries at hadd
  cases hstage : t.stage <;> simp only [hstage] at hfits htells hadd
  case segment =>
    cases hadd
    exact shaped_select_entries ((selectors_finish t).trans h.selectors)
      (h.isRead_finish ht (.inl hstage)).1 (hasPoint_finish hfits)
  case number =>
    cases hadd
    exact shaped_select_entries ((selectors_finish t).trans h.selectors)
      (h.isRead_finish ht (.inr (.inl hstage))).1 (hasPoint_finish hfits.2)
  case numberDot =>
    cases hadd
    exact shaped_select_entries ((selectors_finish t).trans h.selectors)
      (h.isRead_finish ht (.inr (.inr hstage))).1 (hasPoint_finish hfits.2)
  case dot =>
    split at hadd
    · next hempty =>
      cases hadd
      have hmay : may = true := h.selectors.symm.trans htells.1
      exact shaped_select_entries (u := t.select .self) h.selectors
        (isRead_select_self hmay (List.isEmpty_iff.mp hempty))
        (h.hasPoint_eq_false (by simp [hstage]))
    · cases hadd
  case start | separator | afterRoot | afterParent =>
    cases hadd
    exact shaped_select_entries h.selectors h.isRead (h.hasPoint_eq_false (by simp [hstage]))
  all_goals cases hadd

/-- The state with which a segment begins. -/
structure Begun (may : Bool) (u : Tokenizer) : Prop where
  selectors : u.selectors = may
  isRead : u.parts.IsRead may
  segment : u.segment = []
  point : u.hasPoint = false

theorem begun_beginSegment {u : Tokenizer} (h : t.Shaped may) (ht : t.Coherent)
    (hbegin : t.beginSegment = .ok (some u)) : u.Begun may := by
  have hfits := ht.fits
  have htells := h.tells
  unfold StageFits at hfits
  unfold StageTells at htells
  unfold beginSegment at hbegin
  cases hstage : t.stage <;> simp only [hstage] at hfits htells hbegin
  case start | separator | afterRoot | afterParent =>
    cases hbegin
    exact ⟨h.selectors, h.isRead, hfits.2, h.hasPoint_eq_false (by simp [hstage])⟩
  case dot =>
    split at hbegin
    · next hempty =>
      cases hbegin
      have hmay : may = true := h.selectors.symm.trans htells.1
      exact ⟨h.selectors, isRead_select_self hmay (List.isEmpty_iff.mp hempty), hfits.2,
        h.hasPoint_eq_false (by simp [hstage])⟩
    · cases hbegin
  all_goals cases hbegin

theorem Begun.extend_segment {u : Tokenizer} (h : u.Begun may) {c : Char}
    (hkey : isKey [c] = true) : (u.extend c .segment).Shaped may := by
  refine .fresh h.selectors h.isRead h.point ?_
  show isKey (u.segment ++ [c]) = true
  rw [h.segment]
  exact hkey

theorem shaped_dollar (h : t.Shaped may) (ht : t.Coherent) (hadd : t.dollar = .ok t') :
    t'.Shaped may := by
  unfold dollar at hadd
  obtain ⟨u?, hbegin, hadd⟩ := exists_of_bind_ok hadd
  cases u? with
  | none => cases hadd
  | some u =>
    cases hadd
    exact (begun_beginSegment h ht hbegin).extend_segment rfl

theorem isKey_singleton {c : Char} (hc : Text.isWord c = true) : isKey [c] = true := by
  simp [isKey, hc]

/-- The first character of a segment decides between a name and a number. -/
theorem Begun.extend_word {u : Tokenizer} (h : u.Begun may) {c : Char}
    (hc : Text.isWord c = true) :
    (u.extend c (if u.parts.isEmpty && c.isDigit then .number else .segment)).Shaped may := by
  split
  · next hnumber =>
    simp only [Bool.and_eq_true] at hnumber
    refine .fresh h.selectors h.isRead h.point ?_
    show if u.hasPoint then _ else IsDigits (u.segment ++ [c])
    rw [h.point, h.segment]
    exact isDigits_singleton hnumber.2
  · exact h.extend_segment (isKey_singleton hc)

theorem shaped_word {c : Char} (h : t.Shaped may) (ht : t.Coherent)
    (hc : Text.isWord c = true) (hadd : t.word c = .ok t') : t'.Shaped may := by
  have hfits := ht.fits
  have htells := h.tells
  unfold StageFits at hfits
  unfold StageTells at htells
  unfold word at hadd
  cases hstage : t.stage <;> simp only [hstage] at hfits htells hadd
  case segment =>
    cases hadd
    exact .fresh h.selectors h.isRead (h.hasPoint_eq_false (by simp [hstage]))
      (isKey_concat htells hc)
  case number =>
    split at hadd
    · next hdigit =>
      cases hadd
      refine ⟨h.selectors, h.isRead, ?_, fun _ => rfl⟩
      show if t.hasPoint then _ else IsDigits (t.segment ++ [c])
      split at htells
      · next hpoint =>
        rw [if_pos hpoint]
        obtain ⟨whole, fraction, hsegment, hwhole, hfraction⟩ := htells
        refine ⟨whole, fraction ++ [c], ?_, hwhole, hfraction.concat hdigit⟩
        simp [extend, hsegment]
      · next hpoint =>
        rw [if_neg hpoint]
        exact htells.concat hdigit
    split at hadd
    · cases hadd
    · next hpoint =>
      cases hadd
      rw [if_neg hpoint] at htells
      have hnone : t.hasPoint = false := by simpa using hpoint
      exact .fresh h.selectors h.isRead hnone (htells.isKey_concat hc)
  case numberDot =>
    split at hadd
    · next hdigit =>
      cases hadd
      exact ⟨h.selectors, h.isRead,
        ⟨t.segment, [c], rfl, htells, isDigits_singleton hdigit⟩, fun _ => rfl⟩
    · cases hadd
      have hbegun : t.finish.Begun may :=
        ⟨(selectors_finish t).trans h.selectors, (h.isRead_finish ht (.inr (.inr hstage))).1,
          by rw [finish_eq hfits.2], hasPoint_finish hfits.2⟩
      exact hbegun.extend_segment (isKey_singleton hc)
  all_goals
    obtain ⟨u?, hbegin, hadd⟩ := exists_of_bind_ok hadd
    cases u? with
    | none => cases hadd
    | some u =>
      cases hadd
      exact (begun_beginSegment h ht hbegin).extend_word hc

/-- One step. -/
theorem shaped_add {c : Char} (h : t.Shaped may) (ht : t.Coherent) (hadd : t.add c = .ok t') :
    t'.Shaped may := by
  unfold add at hadd
  split at hadd
  · exact shaped_root h ht hadd
  split at hadd
  · exact shaped_dot h ht hadd
  split at hadd
  · exact shaped_slash h hadd
  split at hadd
  · exact shaped_entries h ht hadd
  split at hadd
  · exact shaped_dollar h ht hadd
  split at hadd
  · next hc => exact shaped_word h ht hc hadd
  · cases hadd

/-- A run. -/
theorem shaped_feed {cs : List Char} (h : t.Shaped may) (ht : t.Coherent)
    (hfeed : t.feed cs = .ok t') (halive : ∀ n, t'.stage ≠ .stray n) : t'.Shaped may := by
  induction cs generalizing t with
  | nil =>
    cases hfeed
    exact h
  | cons c cs ih =>
    obtain ⟨t₁, hadd, hfeed⟩ := exists_of_feed_cons hfeed
    obtain ⟨ds, -, hgrows, -⟩ := grows_add ht hadd (not_stray_of_feed hfeed halive)
    exact ih (shaped_add h ht hadd) hgrows.1 hfeed

end Steps

theorem IsFresh.shaped {s : Tokenizer} (hs : s.IsFresh) : s.Shaped s.selectors := by
  rcases hs with rfl | rfl <;> exact .fresh rfl (Path.isRead_nil _) rfl trivial

/-! ## The end of a path -/

theorem eq_ok_of_toOption {ε α : Type} {x : Except ε α} {a : α} (h : x.toOption = some a) :
    x = .ok a := by
  cases x with
  | error e => cases h
  | ok b => exact congrArg Except.ok (Option.some.inj h)

/-- What comes of the check that a number stands alone passed it. -/
theorem checkNumber_of_checked {α : Type} {parts : Path} {a b : α}
    (h : (checkNumber parts >>= fun _ => .ok a) = .ok b) : checkNumber parts = .ok () := by
  obtain ⟨⟨⟩, hcheck, -⟩ := exists_of_bind_ok h
  exact hcheck

theorem checkNumber_of_path {t : Tokenizer} {parts : Path} (h : t.path = .ok parts) :
    checkNumber parts = .ok () := by
  have hchecked {ps : Path} (h : (checkNumber ps >>= fun _ => .ok ps) = .ok parts) :
      checkNumber parts = .ok () := by
    rw [eq_of_checked h]
    exact checkNumber_of_checked h
  unfold path at h
  cases hstage : t.stage <;> simp only [hstage] at h
  case dot =>
    split at h
    · exact hchecked h
    · cases h
  case start | afterParent | afterRoot | afterEntries | segment | number => exact hchecked h
  all_goals cases h

theorem checkNumber_of_call {t : Tokenizer} {parts : Path} {name : String}
    (h : t.call = .ok (parts, name)) : checkNumber parts = .ok () := by
  have hchecked {ps : Path} {other : String}
      (h : (checkNumber ps >>= fun _ => .ok (ps, other)) = .ok (parts, name)) :
      checkNumber parts = .ok () := by
    rw [(Prod.mk.inj (eq_of_checked h)).1]
    exact checkNumber_of_checked h
  unfold call at h
  cases hstage : t.stage <;> simp only [hstage] at h
  case dot | segment | number =>
    split at h
    · exact hchecked h
    · cases h
  case start | separator | numberDot => exact hchecked h
  all_goals cases h

/-- A number that passed the check stands alone: it is the first part, and no other follows. -/
theorem wellFormed_of_checkNumber {may : Bool} {parts : Path} (h : parts.IsRead may)
    (hcheck : checkNumber parts = .ok ()) : parts.WellFormed may := by
  refine ⟨h, fun p hp hkind => ?_⟩
  obtain ⟨lead, steps, rfl, h⟩ := h
  have hsteps : p ∈ steps := by
    refine (List.mem_append.mp hp).resolve_left fun hlead => ?_
    cases h.isLead with
    | nothing => cases hlead
    | root | self =>
      obtain rfl := List.mem_singleton.mp hlead
      cases hkind
    | parents n =>
      obtain rfl := List.eq_of_mem_replicate hlead
      cases hkind
  obtain ⟨i, hi⟩ := List.mem_iff_getElem?.mp hsteps
  obtain ⟨rfl, rfl, -⟩ := (h.number_iff i p hi).mp hkind
  cases steps with
  | nil => cases hi
  | cons first rest =>
    obtain rfl : first = p := Option.some.inj hi
    cases rest with
    | nil => rfl
    | cons second rest =>
      rw [List.nil_append, checkNumber, hkind] at hcheck
      cases hcheck

/-- Whatever ends a path, the parts are those read so far, the context itself, or those with the
last segment. -/
theorem Shaped.isRead_path {may : Bool} {t : Tokenizer} {parts : Path} (h : t.Shaped may)
    (ht : t.Coherent) (hpath : t.path = .ok parts) : parts.IsRead may := by
  rcases path_eq_ok hpath with ⟨-, rfl⟩ | ⟨hstage, -, rfl⟩ | ⟨hstage, rfl⟩
  · exact h.isRead
  · have htells := h.tells
    simp only [StageTells, hstage] at htells
    exact Path.isRead_lead .self fun _ => h.selectors.symm.trans htells.1
  · exact (h.isRead_finish ht (hstage.imp id .inl)).1

theorem Shaped.isRead_call {may : Bool} {t : Tokenizer} {parts : Path} {name : String}
    (h : t.Shaped may) (ht : t.Coherent) (hcall : t.call = .ok (parts, name)) :
    parts.IsRead may ∧ (name = "" ∨ isKey name.toList = true) := by
  rcases call_eq_ok hcall with ⟨-, rfl, rfl⟩ | ⟨hstage, -, rfl, rfl⟩ | ⟨hstage, rfl, rfl⟩ |
    ⟨hstage, hlast, rfl⟩
  · exact ⟨h.isRead, .inl rfl⟩
  · have htells := h.tells
    simp only [StageTells, hstage] at htells
    exact ⟨Path.isRead_lead .self fun _ => h.selectors.symm.trans htells.1, .inl rfl⟩
  · exact ⟨(h.isRead_finish ht (.inr (.inr hstage))).1, .inl rfl⟩
  · obtain ⟨hne, hsegment⟩ := h.segment_cases ht (hstage.imp id .inl)
    rw [finish_eq hne] at hlast ⊢
    have hname : t.lastPart = ⟨.member, some name⟩ := by simpa using hlast
    have htext : name.toList = t.segment := by
      rw [← render_lastPart t, hname]
      rfl
    refine ⟨by simpa using h.isRead, .inr ?_⟩
    rw [htext]
    -- A number at the beginning would not have been taken for a name.
    refine hsegment.resolve_right fun ⟨hparts, hnumber⟩ => ?_
    have hkind : t.lastPart.kind = .number := by
      simpa [lastPart, hparts] using (PartKind.ofLeading_eq_number_iff t.segment).mpr hnumber
    rw [hname] at hkind
    cases hkind

/-- What a tokenizer reads as a path has the form of one, and written down it is read as the same
path. The same holds of a path with the name of a formatter after it, which is a key, or empty
before a bracket. -/
theorem path_tokens_roundTrip {s t : Tokenizer} {cs : List Char} (hs : s.IsFresh)
    (hfeed : s.feed cs = .ok t) :
    (∀ parts, t.path = .ok parts →
      parts.WellFormed s.selectors ∧
        ∃ u, s.feed (Path.render parts) = .ok u ∧ u.path = .ok parts) ∧
    ∀ parts name, t.call = .ok (parts, name) →
      parts.WellFormed s.selectors ∧ (name = "" ∨ isKey name.toList = true) ∧
        ∃ u, s.feed (Path.render parts ++ (if parts.needsDot then ['.'] else []) ++ name.toList) =
          .ok u ∧ u.call = .ok (parts, name) := by
  constructor
  · intro parts hpath
    obtain ⟨ht, -⟩ := hs.feed_display hfeed (not_stray_of_path hpath)
    have hshaped := shaped_feed hs.shaped hs.coherent hfeed (not_stray_of_path hpath)
    exact ⟨wellFormed_of_checkNumber (hshaped.isRead_path ht hpath) (checkNumber_of_path hpath),
      t, feed_render_of_path hs hfeed hpath, hpath⟩
  · intro parts name hcall
    obtain ⟨ht, -⟩ := hs.feed_display hfeed (not_stray_of_call hcall)
    have hshaped := shaped_feed hs.shaped hs.coherent hfeed (not_stray_of_call hcall)
    obtain ⟨hread, hname⟩ := hshaped.isRead_call ht hcall
    exact ⟨wellFormed_of_checkNumber hread (checkNumber_of_call hcall), hname,
      t, feed_render_of_call hs hfeed hcall, hcall⟩

/-- A number with a point, whose second dot stands before the name of a formatter; and a question
mark that is written with a dot before it, after selectors that lead. -/
theorem path_tokens_roundTrip_mixed :
    let number : Path := [⟨.number, some "1.5"⟩]
    let climb : Path := [.selector .parent, .selector .parent, .member "2nd", .member "$a",
      .selector .entries]
    (number.WellFormed true ∧
      ∃ u, leading.feed "1.5.Round".toList = .ok u ∧ u.call = .ok (number, "Round")) ∧
    climb.WellFormed true ∧
      ∃ t u, leading.feed "../../2nd.$a?".toList = .ok t ∧ t.path = .ok climb ∧
        leading.feed "../../2nd.$a.?".toList = .ok u ∧ u.path = .ok climb := by
  intro number climb
  have hnumber : leading.feed "1.5.Round".toList =
      .ok ⟨number, "Round".toList, .segment, false, true⟩ :=
    eq_ok_of_toOption (by decide +kernel)
  have hcall : call ⟨number, "Round".toList, .segment, false, true⟩ = .ok (number, "Round") :=
    eq_ok_of_toOption (by decide +kernel)
  have hclimb : leading.feed "../../2nd.$a?".toList =
      .ok ⟨climb, [], .afterEntries, false, true⟩ :=
    eq_ok_of_toOption (by decide +kernel)
  constructor
  · obtain ⟨hwell, -, hround⟩ := (path_tokens_roundTrip (.inl rfl) hnumber).2 number "Round" hcall
    exact ⟨hwell, hround⟩
  · obtain ⟨hwell, u, hround⟩ := (path_tokens_roundTrip (.inl rfl) hclimb).1 climb rfl
    exact ⟨hwell, _, u, hclimb, rfl, hround⟩

end Tokenizer

end Stencil
