import Mathlib.Data.List.Induction
import Mathlib.Data.List.TakeWhile
import Stencil.Location
import Stencil.Proofs.Bisection

/-!
# Lines and columns by counting

A line table finds a place by the offsets at which lines begin. Both answers of the search lead to
the last line that begins at the place or before it (`LineTable.start_line_le`,
`LineTable.lt_start_of_line_lt`), so the lines up to this one are those that begin in the text
before the place.

Main statement: `LineTable.locate_ofText`, this is the place that counting gives: the line is one
more than the number of newlines before it, and the column is one more than the number of characters
after the last of these newlines.
-/

namespace Stencil

namespace Text

/-- Number of characters after the last newline. -/
def lastLine (text : List Char) : Nat :=
  (text.reverse.takeWhile (· != '\n')).length

/-- The place in a text with the given offset. Offsets beyond the text count as columns of its last
line. -/
def positionAt (text : List Char) (offset : Nat) : Position :=
  let before := text.take offset
  { line := before.count '\n' + 1
    column := offset - (before.length - lastLine before) + 1
    offset }

@[simp] theorem positionAt_offset (text : List Char) (o : Nat) : (positionAt text o).offset = o :=
  rfl

theorem lastLine_concat (text : List Char) (c : Char) :
    lastLine (text ++ [c]) = if c = '\n' then 0 else lastLine text + 1 := by
  rw [lastLine, List.reverse_append, List.reverse_singleton, List.singleton_append,
    List.takeWhile_cons]
  by_cases hc : c = '\n' <;> simp [hc, lastLine]

end Text

namespace LineTable

variable {o : Nat}

/-- No offset comes before the first line. -/
theorem pos_of_search_free (t : LineTable) {k : Fin (t.later + 1 + 1)}
    (h : search t.starts o = .free k) : 0 < (k : Nat) := by
  by_contra hk
  have hlt := (parts_of_free t.increasing h).2 0 (Nat.le_of_not_lt hk)
  rw [t.first] at hlt
  exact Nat.not_lt_zero o hlt

theorem line_of_held {t : LineTable} {i : Fin (t.later + 1)} (h : search t.starts o = .held i) :
    t.line o = i := by
  rw [line, h]

theorem line_of_free {t : LineTable} {k : Fin (t.later + 1 + 1)}
    (h : search t.starts o = .free k) : (t.line o : Nat) + 1 = k := by
  have hk := t.pos_of_search_free h
  rw [line, h]
  exact Nat.sub_add_cancel hk

theorem start_line_le (t : LineTable) (o : Nat) : t.starts.get (t.line o) ≤ o := by
  cases h : search t.starts o with
  | held i =>
    rw [line_of_held h]
    exact Nat.le_of_eq (get_of_held t.increasing h)
  | free k =>
    have hline : (t.line o : Nat) < k := Nat.lt_of_succ_le (Nat.le_of_eq (line_of_free h))
    exact Nat.le_of_lt ((parts_of_free t.increasing h).1 _ hline)

theorem lt_start_of_line_lt (t : LineTable) {j : Fin (t.later + 1)} (hj : t.line o < j) :
    o < t.starts.get j := by
  cases h : search t.starts o with
  | held i =>
    rw [line_of_held h] at hj
    calc o = t.starts.get i := (get_of_held t.increasing h).symm
      _ < t.starts.get j := t.increasing i j hj
  | free k =>
    have hkj : (k : Nat) ≤ j := by
      rw [← line_of_free h]
      exact hj
    exact (parts_of_free t.increasing h).2 j hkj

/-- The lines up to that of an offset are those that do not begin after it. -/
theorem takeWhile_starts (t : LineTable) (o : Nat) :
    t.starts.toList.takeWhile (· ≤ o) = t.starts.toList.take (t.line o + 1) := by
  have hbefore : ∀ x ∈ t.starts.toList.take (t.line o + 1), x ≤ o := by
    intro x hx
    obtain ⟨j, hj, rfl⟩ := List.mem_take_iff_getElem.mp hx
    obtain ⟨hbound, hlength⟩ := Nat.lt_min.mp hj
    rw [Vector.length_toList] at hlength
    have hline : (⟨j, hlength⟩ : Fin (t.later + 1)) ≤ t.line o := Nat.le_of_lt_succ hbound
    exact Nat.le_trans (t.increasing.le hline) (t.start_line_le o)
  have hafter : (t.starts.toList.drop (t.line o + 1)).takeWhile (· ≤ o) = [] := by
    rw [List.takeWhile_eq_nil_iff]
    intro hdrop
    have hnext : (t.line o : Nat) + 1 < t.later + 1 := by
      rw [List.length_drop, Vector.length_toList] at hdrop
      exact Nat.lt_of_sub_pos hdrop
    have hlt : o < t.starts.get ⟨t.line o + 1, hnext⟩ :=
      t.lt_start_of_line_lt (Nat.lt_succ_self (t.line o : Nat))
    rw [List.get_eq_getElem, List.getElem_drop, decide_eq_true_eq]
    exact Nat.not_le_of_lt hlt
  conv_lhs => rw [← List.take_append_drop (t.line o + 1) t.starts.toList]
  rw [List.takeWhile_append_of_pos (by simpa using hbefore), hafter, List.append_nil]

end LineTable

/-- The line starts up to an offset are those of the text before it. -/
theorem takeWhile_lineStarts (text : List Char) (base n : Nat) :
    (lineStarts base text).takeWhile (· ≤ base + n) = lineStarts base (text.take n) := by
  induction text generalizing base n with
  | nil => cases n <;> rfl
  | cons c text ih =>
    cases n with
    | zero =>
      -- Every line but the first begins after a character.
      have hlate : ∀ x ∈ lineStarts base (c :: text), ¬ x ≤ base :=
        fun x hx => Nat.not_le.mpr (lt_of_mem_lineStarts hx)
      cases hstarts : lineStarts base (c :: text) with
      | nil => rfl
      | cons x rest =>
        rw [hstarts] at hlate
        exact List.takeWhile_cons_of_neg (by simpa using hlate x List.mem_cons_self)
    | succ n =>
      have hn : base + (n + 1) = base + 1 + n := by omega
      rw [List.take_succ_cons, lineStarts, lineStarts, ← ih (base + 1) n, hn]
      split
      · rw [List.takeWhile_cons_of_pos (by simp)]
      · rfl

theorem lineStarts_concat (base : Nat) (text : List Char) (c : Char) :
    lineStarts base (text ++ [c]) =
      lineStarts base text ++ if c = '\n' then [base + text.length + 1] else [] := by
  induction text generalizing base with
  | nil => by_cases hc : c = '\n' <;> simp [lineStarts, hc]
  | cons d text ih =>
    rw [List.cons_append, lineStarts, lineStarts, ih, List.length_cons]
    have hlength : base + 1 + text.length + 1 = base + (text.length + 1) + 1 := by omega
    rw [hlength]
    split <;> rfl

theorem length_lineStarts (base : Nat) (text : List Char) :
    (lineStarts base text).length = text.count '\n' := by
  induction text generalizing base with
  | nil => rfl
  | cons c text ih => by_cases hc : c = '\n' <;> simp [lineStarts, hc, ih]

/-- The last line begins where the characters after the last newline do. -/
theorem getLastD_lineStarts (text : List Char) :
    (lineStarts 0 text).getLastD 0 = text.length - Text.lastLine text := by
  induction text using List.reverseRecOn with
  | nil => rfl
  | append_singleton text c ih =>
    rw [lineStarts_concat, Text.lastLine_concat, List.length_append, List.length_singleton]
    by_cases hc : c = '\n'
    · rw [if_pos hc, if_pos hc, List.getLastD_concat]
      omega
    · rw [if_neg hc, if_neg hc, List.append_nil, ih]
      omega

namespace LineTable

theorem toList_starts_ofText (text : List Char) :
    (ofText text).starts.toList = 0 :: lineStarts 0 text :=
  rfl

/-- The lines up to that of an offset begin where those of the text before the offset do. -/
theorem take_starts_ofText (text : List Char) (o : Nat) :
    (ofText text).starts.toList.take ((ofText text).line o + 1) =
      0 :: lineStarts 0 (text.take o) := by
  have hbefore := takeWhile_lineStarts text 0 o
  rw [Nat.zero_add] at hbefore
  rw [← takeWhile_starts, toList_starts_ofText, List.takeWhile_cons_of_pos (by simp), hbefore]

theorem line_ofText (text : List Char) (o : Nat) :
    ((ofText text).line o : Nat) = (text.take o).count '\n' := by
  have hlength := congrArg List.length (take_starts_ofText text o)
  have hle : ((ofText text).line o : Nat) + 1 ≤ (ofText text).starts.toList.length :=
    ((ofText text).line o).isLt
  rw [List.length_take_of_le hle, List.length_cons, length_lineStarts] at hlength
  exact Nat.succ.inj hlength

theorem start_line_ofText (text : List Char) (o : Nat) :
    (ofText text).starts.get ((ofText text).line o) =
      (text.take o).length - Text.lastLine (text.take o) := by
  have hget : (ofText text).starts.toList[((ofText text).line o : Nat)]? =
      some ((ofText text).starts.get ((ofText text).line o)) :=
    List.getElem?_eq_getElem ((ofText text).line o).isLt
  have hlast := congrArg (List.getLastD · 0) (take_starts_ofText text o)
  rw [List.getLastD_cons, getLastD_lineStarts] at hlast
  rw [← hlast, List.getLastD_eq_getLast?, List.getLast?_take, if_neg (Nat.succ_ne_zero _),
    Nat.add_sub_cancel, hget]
  rfl

theorem locate_ofText (text : List Char) (o : Nat) :
    (ofText text).locate o = Text.positionAt text o := by
  simp only [locate, line_ofText, start_line_ofText, Text.positionAt]

end LineTable

end Stencil
