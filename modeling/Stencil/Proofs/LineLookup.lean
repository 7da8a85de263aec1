import Mathlib.Data.Prod.Lex
import Mathlib.Order.Monotone.Basic
import Stencil.Proofs.Lines

/-!
# Line lookup

Where the line of an offset begins is said by the text alone: just after the last newline before the
offset (`Text.LineBegins`). There is only one such start, as of two the later one would have a
newline just before it and behind the other. It is the start that the table gives for the line it
has found (`LineTable.lineBegins_ofText`).

From one offset to a later one the number of newlines grows or stays. Where it stays, the line begins
where it did and the column grows. So lines and columns are in the order of the offsets
(`LineTable.place_lt_place`).

Main statement: `LineTable.locate_exact_and_ordered`.
-/

namespace Stencil

/-- Line and column. All of a line comes before the lines after it. -/
def Position.place (p : Position) : Nat ×ₗ Nat :=
  toLex (p.line, p.column)

namespace Text

/-- The line of an offset begins just after the last newline before the offset, or with the text if
there is none. -/
structure LineBegins (text : List Char) (o start : Nat) : Prop where
  le : start ≤ o
  opens : start = 0 ∨ ∃ k, text[k]? = some '\n' ∧ start = k + 1
  last : ∀ k, text[k]? = some '\n' → k < o → k < start

namespace LineBegins

variable {text : List Char} {o start other : Nat}

theorem start_le (h : LineBegins text o start) (h' : LineBegins text o other) : start ≤ other := by
  rcases h.opens with rfl | ⟨k, hk, rfl⟩
  · exact Nat.zero_le other
  · exact h'.last k hk h.le

theorem unique (h : LineBegins text o start) (h' : LineBegins text o other) : start = other :=
  Nat.le_antisymm (h.start_le h') (h'.start_le h)

/-- A line goes on as long as no newline comes. -/
theorem extend (h : LineBegins text o start) {n : Nat} (hnone : '\n' ∉ (text.drop o).take n) :
    LineBegins text (o + n) start where
  le := Nat.le_add_right_of_le h.le
  opens := h.opens
  last k hk hlt := by
    refine h.last k hk (Nat.lt_of_not_le fun hle => hnone ?_)
    refine List.mem_iff_getElem?.mpr ⟨k - o, ?_⟩
    rw [List.getElem?_take_of_lt (by omega), List.getElem?_drop, Nat.add_sub_cancel' hle, hk]

end LineBegins

/-- The place of an offset, by the newlines before it. -/
structure Places (text : List Char) (o : Nat) (p : Position) : Prop where
  line : p.line = 1 + (text.take o).count '\n'
  column : ∃ start, LineBegins text o start ∧ p.column = o - start + 1
  offset : p.offset = o

end Text

theorem mem_lineStarts {base : Nat} {text : List Char} {x : Nat} :
    x ∈ lineStarts base text ↔ ∃ k, text[k]? = some '\n' ∧ x = base + k + 1 := by
  induction text generalizing base with
  | nil => simp [lineStarts]
  | cons c text ih =>
    -- The newline is the first character or one of those after it.
    have hsplit : (∃ k, (c :: text)[k]? = some '\n' ∧ x = base + k + 1) ↔
        (c = '\n' ∧ x = base + 1) ∨ ∃ k, text[k]? = some '\n' ∧ x = base + 1 + k + 1 := by
      constructor
      · rintro ⟨_ | k, hk, rfl⟩
        · exact .inl ⟨by simpa using hk, rfl⟩
        · exact .inr ⟨k, by simpa using hk, by omega⟩
      · rintro (⟨rfl, rfl⟩ | ⟨k, hk, rfl⟩)
        · exact ⟨0, rfl, rfl⟩
        · exact ⟨k + 1, by simpa using hk, by omega⟩
    rw [hsplit, ← ih, lineStarts]
    by_cases hc : c = '\n' <;> simp [hc]

namespace LineTable

theorem exists_start_ofText {text : List Char} {x : Nat} :
    (∃ i, (ofText text).starts.get i = x) ↔ x = 0 ∨ ∃ k, text[k]? = some '\n' ∧ x = k + 1 := by
  have hmem : x ∈ 0 :: lineStarts 0 text ↔ ∃ i, (ofText text).starts.get i = x :=
    List.mem_iff_get
  rw [← hmem, List.mem_cons, mem_lineStarts]
  simp only [Nat.zero_add]

theorem lineBegins_ofText (text : List Char) (o : Nat) :
    Text.LineBegins text o ((ofText text).starts.get ((ofText text).line o)) where
  le := start_line_le _ o
  opens := exists_start_ofText.mp ⟨_, rfl⟩
  last k hk hlt := by
    -- The line after this newline is in the table and does not begin after the offset.
    obtain ⟨j, hj⟩ := exists_start_ofText.mpr (.inr ⟨k, hk, rfl⟩)
    have hline : j ≤ (ofText text).line o := by
      refine Fin.not_lt.mp fun hafter => ?_
      have hlater := lt_start_of_line_lt _ hafter
      omega
    have hle := (ofText text).increasing.le hline
    rw [hj] at hle
    exact hle

theorem places_ofText (text : List Char) (o : Nat) :
    Text.Places text o ((ofText text).locate o) where
  line := by
    rw [← line_ofText, Nat.add_comm]
    rfl
  column := ⟨_, lineBegins_ofText text o, rfl⟩
  offset := rfl

/-- A later offset has a later place. -/
theorem place_lt_place (text : List Char) {o o' : Nat} (h : o < o') :
    ((ofText text).locate o).place < ((ofText text).locate o').place := by
  obtain ⟨n, hn, rfl⟩ : ∃ n, 0 < n ∧ o' = o + n := ⟨o' - o, by omega, by omega⟩
  obtain ⟨hline, ⟨start, hstart, hcolumn⟩, -⟩ := places_ofText text o
  obtain ⟨hline', ⟨start', hstart', hcolumn'⟩, -⟩ := places_ofText text (o + n)
  rw [List.take_add, List.count_append] at hline'
  rw [Position.place, Position.place, Prod.Lex.toLex_lt_toLex]
  by_cases hnew : '\n' ∈ (text.drop o).take n
  · have hcount := List.count_pos_iff.mpr hnew
    exact .inl (by simp only; omega)
  · have hcount := List.count_eq_zero.mpr hnew
    have hsame : start = start' := (hstart.extend hnew).unique hstart'
    have hle := hstart.le
    exact .inr ⟨by simp only; omega, by simp only; omega⟩

/-- No number leaves its range when an offset is looked up: nothing is taken from a smaller number,
and what comes out is at most one more than the offset. -/
structure InRange (t : LineTable) (o : Nat) : Prop where
  /-- The line before a free slot is there. -/
  slot : ∀ k, search t.starts o = .free k → 1 ≤ (k : Nat)
  /-- The line begins at the offset or before it. -/
  start : t.starts.get (t.line o) ≤ o
  line : (t.locate o).line ≤ o + 1
  column : (t.locate o).column ≤ o + 1

theorem inRange_ofText (text : List Char) (o : Nat) : (ofText text).InRange o where
  slot _ h := pos_of_search_free _ h
  start := start_line_le _ o
  line := by
    have hcount : (text.take o).count '\n' ≤ o :=
      Nat.le_trans List.count_le_length (List.length_take_le o text)
    rw [(places_ofText text o).line]
    omega
  column := Nat.succ_le_succ (Nat.sub_le o _)

/-- Every offset, in the text or beyond it, has the place that the newlines before it give. Nothing
underflows on the way, and places tell offsets apart and keep their order. -/
theorem locate_exact_and_ordered (text : List Char) :
    (∀ o, Text.Places text o ((ofText text).locate o) ∧ (ofText text).InRange o) ∧
      Function.Injective (fun o => ((ofText text).locate o).place) ∧
      StrictMono (fun o => ((ofText text).locate o).place) := by
  have hmono : StrictMono fun o => ((ofText text).locate o).place :=
    fun _ _ h => place_lt_place text h
  exact ⟨fun o => ⟨places_ofText text o, inRange_ofText text o⟩, hmono.injective, hmono⟩

example : (ofText "\nab\n\n".toList).locate 9 = ⟨4, 5, 9⟩ := by decide +kernel

end LineTable

end Stencil
