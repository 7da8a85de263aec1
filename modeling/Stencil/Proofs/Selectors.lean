import Stencil.Proofs.RoundTrip

/-!
# Where root selectors stand

A tokenizer takes `~` only as the first character of a path, and not at all in a path that continues
a chain. So in a tree that was read without problems a root selector is the first part of its path,
and no later link of a chain has one (`selects_of_parse`).
-/

namespace Stencil

/-! ## Tokenizers -/

namespace Tokenizer

/-- Parts were added, and none of them is a root selector. -/
structure Adds (t t' : Tokenizer) : Prop where
  selectors : t'.selectors = t.selectors
  parts : ∃ ps : Path, t'.parts = t.parts ++ ps ∧ ∀ p ∈ ps, p.kind ≠ .root

namespace Adds

variable {t u v : Tokenizer}

theorem of_parts (hmay : u.selectors = t.selectors) (hparts : u.parts = t.parts) :
    t.Adds u :=
  ⟨hmay, [], by rw [hparts, List.append_nil], by simp⟩

theorem trans (h : t.Adds u) (h' : u.Adds v) : t.Adds v := by
  obtain ⟨ps, hparts, hps⟩ := h.parts
  obtain ⟨qs, hparts', hqs⟩ := h'.parts
  refine ⟨h'.selectors.trans h.selectors, ps ++ qs, ?_, ?_⟩
  · rw [hparts', hparts, List.append_assoc]
  · exact List.forall_mem_append.mpr ⟨hps, hqs⟩

theorem select (t : Tokenizer) {kind : PartKind} (hkind : kind ≠ .root) (stage : TokenizerStage) :
    t.Adds { t.select kind with stage } :=
  ⟨rfl, [.selector kind], rfl, by simpa [Part.selector] using hkind⟩

theorem finish (t : Tokenizer) : t.Adds t.finish := by
  by_cases hsegment : t.segment = []
  · unfold Tokenizer.finish
    rw [if_pos (by simp [hsegment])]
    exact .of_parts rfl rfl
  · rw [finish_eq hsegment]
    refine ⟨rfl, [t.lastPart], rfl, ?_⟩
    have hkind : t.lastPart.kind ≠ .root := by
      rcases t.lastPart_kind with h | h | ⟨h, -⟩ | h <;> rw [h] <;> decide
    simpa using hkind

theorem stage (h : t.Adds u) (stage : TokenizerStage) : t.Adds { u with stage } :=
  ⟨h.selectors, h.parts⟩

theorem extend (h : t.Adds u) (c : Char) (stage : TokenizerStage) : t.Adds (u.extend c stage) :=
  ⟨h.selectors, h.parts⟩

theorem dot {t' : Tokenizer} (h : t.dot = .ok t') : t.Adds t' := by
  unfold Tokenizer.dot at h
  cases hstage : t.stage <;> simp only [hstage] at h
  case start =>
    split at h <;> cases h
    exact .of_parts rfl rfl
  case segment => cases h; exact (finish t).stage _
  case number =>
    split at h <;> cases h
    · exact (finish t).stage _
    · exact .of_parts rfl rfl
  case afterParent | dot | afterEntries | afterRoot | separator | stray =>
    cases h
    exact .of_parts rfl rfl
  all_goals cases h

theorem slash {t' : Tokenizer} (h : t.slash = .ok t') : t.Adds t' := by
  unfold Tokenizer.slash at h
  cases hstage : t.stage <;> simp only [hstage] at h
  case dotDot =>
    cases h
    exact select t (by decide) _
  case stray => split at h <;> cases h
  all_goals cases h

theorem entries {t' : Tokenizer} (h : t.entries = .ok t') : t.Adds t' := by
  unfold Tokenizer.entries at h
  cases hstage : t.stage <;> simp only [hstage] at h
  case segment | number | numberDot =>
    cases h
    exact (finish t).trans (select _ (by decide) _)
  case dot =>
    split at h <;> cases h
    exact (select t (by decide) t.stage).trans (select _ (by decide) _)
  case start | separator | afterRoot | afterParent =>
    cases h
    exact select t (by decide) _
  all_goals cases h

/-- Before a segment there may be a dot that stands for the context itself. -/
theorem beginSegment {u : Tokenizer} (h : t.beginSegment = .ok (some u)) : t.Adds u := by
  unfold Tokenizer.beginSegment at h
  cases hstage : t.stage <;> simp only [hstage] at h
  case dot =>
    split at h <;> cases h
    exact select t (by decide) t.stage
  case start | separator | afterRoot | afterParent =>
    cases h
    exact .of_parts rfl rfl
  all_goals cases h

theorem dollar {t' : Tokenizer} (h : t.dollar = .ok t') : t.Adds t' := by
  unfold Tokenizer.dollar at h
  obtain ⟨u?, hbegin, h⟩ := exists_of_bind_ok h
  cases u? <;> cases h
  exact (beginSegment hbegin).extend _ _

theorem word {t' : Tokenizer} {c : Char} (h : t.word c = .ok t') : t.Adds t' := by
  unfold Tokenizer.word at h
  cases hstage : t.stage <;> simp only [hstage] at h
  case segment =>
    cases h
    exact .of_parts rfl rfl
  case number =>
    split at h
    · cases h
      exact .of_parts rfl rfl
    · split at h <;> cases h
      exact .of_parts rfl rfl
  case numberDot =>
    split at h <;> cases h
    · exact .of_parts rfl rfl
    · exact (finish t).extend _ _
  all_goals
    obtain ⟨u?, hbegin, h⟩ := exists_of_bind_ok h
    cases u? <;> cases h
    exact (beginSegment hbegin).extend _ _

end Adds

/-- Root selectors stand only at the beginning of what was read, and only where selectors may
lead. -/
structure RootLeads (may : Bool) (t : Tokenizer) : Prop where
  selectors : t.selectors = may
  first : ∀ p ∈ t.parts.tail, p.kind ≠ .root
  allowed : may = false → ∀ p ∈ t.parts, p.kind ≠ .root
  start : t.stage = .start → t.parts = []

theorem RootLeads.adds {may : Bool} {t t' : Tokenizer} (ht : t.RootLeads may)
    (h : t.Adds t') (hstage : t'.stage ≠ .start) : t'.RootLeads may := by
  obtain ⟨ps, hparts, hps⟩ := h.parts
  refine ⟨h.selectors.trans ht.selectors, fun p hp => ?_, fun hmay => ?_,
    fun hstart => absurd hstart hstage⟩
  · rw [hparts] at hp
    cases hold : t.parts with
    | nil =>
      rw [hold, List.nil_append] at hp
      exact hps p (List.mem_of_mem_tail hp)
    | cons q qs =>
      have hfirst := ht.first
      rw [hold] at hp hfirst
      rcases List.mem_append.mp hp with hp | hp
      · exact hfirst p hp
      · exact hps p hp
  · rw [hparts]
    exact List.forall_mem_append.mpr ⟨ht.allowed hmay, hps⟩

theorem RootLeads.root {may : Bool} {t t' : Tokenizer} (ht : t.RootLeads may)
    (h : t.root = .ok t') : t'.RootLeads may := by
  unfold Tokenizer.root at h
  split at h
  · next hstart =>
    simp only [Bool.and_eq_true, beq_iff_eq] at hstart
    cases h
    have hparts : (t.select .root).parts = [.selector .root] := by
      simp only [select, ht.start hstart.1, List.nil_append]
    refine ⟨ht.selectors, ?_, fun hmay => ?_, ?_⟩
    · simp [hparts]
    · rw [ht.selectors, hmay] at hstart
      cases hstart.2
    · rintro ⟨⟩
  · cases h

theorem RootLeads.add {may : Bool} {t t' : Tokenizer} {c : Char}
    (ht : t.RootLeads may) (h : t.add c = .ok t') : t'.RootLeads may := by
  have hstage := stage_ne_start_of_add h
  unfold Tokenizer.add at h
  split at h
  · exact ht.root h
  split at h
  · exact ht.adds (.dot h) hstage
  split at h
  · exact ht.adds (.slash h) hstage
  split at h
  · exact ht.adds (.entries h) hstage
  split at h
  · exact ht.adds (.dollar h) hstage
  split at h
  · exact ht.adds (.word h) hstage
  · cases h

theorem RootLeads.feed {may : Bool} {t t' : Tokenizer} {cs : List Char}
    (ht : t.RootLeads may) (h : t.feed cs = .ok t') : t'.RootLeads may := by
  induction cs generalizing t with
  | nil =>
    cases h
    exact ht
  | cons c cs ih =>
    obtain ⟨t₁, hadd, hfeed⟩ := exists_of_feed_cons h
    exact ih (ht.add hadd) hfeed

end Tokenizer

/-! ## Paths and trees -/

/-- Only the first part of the path may be a root selector. -/
def Path.SelectsFirst (parts : Path) : Prop :=
  ∀ p ∈ parts.tail, p.kind ≠ .root

/-- No part of the path is a root selector. -/
def Path.SelectsNoRoot (parts : Path) : Prop :=
  ∀ p ∈ parts, p.kind ≠ .root

namespace Tokenizer.RootLeads

variable {may : Bool} {t : Tokenizer} {parts : Path}

theorem finish (ht : t.RootLeads may) (hstage : t.stage ≠ .start) :
    t.finish.RootLeads may := by
  refine ht.adds (.finish t) ?_
  unfold Tokenizer.finish
  split <;> exact hstage

theorem path (ht : t.RootLeads may) (h : t.path = .ok parts) :
    parts.SelectsFirst ∧ (may = false → parts.SelectsNoRoot) := by
  rcases path_eq_ok h with ⟨-, rfl⟩ | ⟨-, -, rfl⟩ | ⟨hstage, rfl⟩
  · exact ⟨ht.first, ht.allowed⟩
  · exact ⟨by simp [Path.SelectsFirst], fun _ => by simp [Path.SelectsNoRoot, Part.selector]⟩
  · have hfinish := ht.finish (by rcases hstage with h | h <;> simp [h])
    exact ⟨hfinish.first, hfinish.allowed⟩

theorem call {name : String} (ht : t.RootLeads may) (h : t.call = .ok (parts, name)) :
    parts.SelectsFirst ∧ (may = false → parts.SelectsNoRoot) := by
  rcases call_eq_ok h with ⟨-, rfl, -⟩ | ⟨-, -, rfl, -⟩ | ⟨hstage, rfl, -⟩ | ⟨hstage, -, rfl⟩
  · exact ⟨ht.first, ht.allowed⟩
  · exact ⟨by simp [Path.SelectsFirst], fun _ => by simp [Path.SelectsNoRoot, Part.selector]⟩
  · have hfinish := ht.finish (by simp [hstage])
    exact ⟨hfinish.first, hfinish.allowed⟩
  -- The last segment is the name of the formatter.
  · have hfinish := ht.finish (by rcases hstage with h | h <;> simp [h])
    refine ⟨fun p hp => hfinish.first p ?_,
      fun hmay p hp => hfinish.allowed hmay p (List.dropLast_subset _ hp)⟩
    rw [List.tail_dropLast] at hp
    exact List.dropLast_subset _ hp

end Tokenizer.RootLeads

/-- The parts of a path, with or without a call. -/
def Expr.parts : Expr → Path
  | .path _ parts | .call _ _ parts _ _ => parts
  | _ => []

/-- A later link of a chain is a path without a root selector, with or without a call. -/
def Expr.SelectsAsLink (e : Expr) : Prop :=
  e.isPath = true ∧ e.parts.SelectsNoRoot

/-- Root selectors stand only at the beginning of paths, and not in later links of chains. -/
def Expr.Selects : Expr → Prop
  | .list _ .chain (_ :: rest) => ∀ e ∈ rest, e.SelectsAsLink
  | e => e.parts.SelectsFirst

/-- The same for all that a phrase consists of. -/
def Phrase.Selects : Phrase → Prop
  | .operand e | .tree e => e.Selects
  | .links es => ∀ e ∈ es, e.SelectsAsLink
  | .arguments _ _ | .items _ _ => True

end Stencil
