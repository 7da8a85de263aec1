import Stencil.Search

/-!
# Search by halving

A window frames a number in an increasing array if everything behind the window is above the number
and the window either begins with the array or with an entry that is not above it
(`Window.Frames`). The whole array frames every number, and each half that a search goes on with
frames what the window did, as the middle entry was compared with the number. When one entry is
left, it is the last that is not above the number, if there is any.

Main statement: `search_suits`, both answers of a search are right.
-/

namespace Stencil

variable {n : Nat} {xs : Vector Nat n} {x : Nat}

theorem Increasing.le (hxs : Increasing xs) {i j : Fin n} (h : i ≤ j) : xs.get i ≤ xs.get j := by
  rcases Nat.eq_or_lt_of_le h with heq | hlt
  · exact Nat.le_of_eq (congrArg xs.get (Fin.eq_of_val_eq heq))
  · exact Nat.le_of_lt (hxs i j hlt)

/-- What a slot says of the number that was sought. -/
def Slot.Suits (xs : Vector Nat n) (x : Nat) : Slot n → Prop
  | .held i => xs.get i = x
  | .free k =>
    (∀ j : Fin n, (j : Nat) < k → xs.get j < x) ∧ ∀ j : Fin n, (k : Nat) ≤ j → x < xs.get j

/-- What is known of a number when a search for it has come to a window. -/
structure Window.Frames (xs : Vector Nat n) (x : Nat) (w : Window n) : Prop where
  reached : w.base = 0 ∨ xs.get w.first ≤ x
  behind : ∀ j : Fin n, w.base + w.size ≤ j → x < xs.get j

namespace Window.Frames

variable {w : Window n}

theorem lower (hxs : Increasing xs) (hw : w.Frames xs x) (h : x < xs.get w.middle) :
    w.lower.Frames xs x where
  reached := hw.reached
  behind j hbehind := by
    have hmiddle : w.middle ≤ j := by
      simp only [Window.lower] at hbehind
      simp only [Window.middle, Fin.le_def]
      omega
    exact Nat.lt_of_lt_of_le h (hxs.le hmiddle)

theorem upper (hw : w.Frames xs x) (h : ¬ x < xs.get w.middle) : w.upper.Frames xs x where
  reached := .inr (Nat.le_of_not_lt h)
  behind j hbehind := by
    refine hw.behind j ?_
    simp only [Window.upper] at hbehind
    omega

end Window.Frames

theorem narrow_frames (hxs : Increasing xs) (w : Window n) (hw : w.Frames xs x) :
    (narrow xs x w).Frames xs x := by
  fun_induction narrow xs x w with
  | case1 w hlarge ih =>
    refine ih ?_
    split
    · exact hw.lower hxs ‹_›
    · exact hw.upper ‹_›
  | case2 w hsmall => exact hw

theorem size_narrow (w : Window n) : (narrow xs x w).size = 1 := by
  fun_induction narrow xs x w with
  | case1 w hlarge ih => exact ih
  | case2 w hsmall =>
    have := w.size_pos
    omega

theorem compareWith_suits (hxs : Increasing xs) {w : Window n} (hw : w.Frames xs x)
    (hone : w.size = 1) : (compareWith xs x w.first).Suits xs x := by
  obtain ⟨hreached, hbehind⟩ := hw
  rw [hone] at hbehind
  unfold compareWith
  split
  case isTrue heq => exact heq
  case isFalse hne =>
    split
    case isTrue hbelow =>
      refine ⟨fun j hbefore => ?_, fun j hafter => hbehind j hafter⟩
      have hle : j ≤ w.first := Nat.le_of_lt_succ hbefore
      exact Nat.lt_of_le_of_lt (hxs.le hle) hbelow
    case isFalse hnotBelow =>
      have habove : x < xs.get w.first :=
        Nat.lt_of_le_of_ne (Nat.le_of_not_lt hnotBelow) (Ne.symm hne)
      -- A search goes on to an entry only if that is not above the number.
      have hbase : w.base = 0 := hreached.resolve_right (Nat.not_le_of_lt habove)
      have hfirst : (w.first : Nat) = 0 := hbase
      refine ⟨fun j hbefore => ?_, fun j hafter => ?_⟩
      · exact absurd hbefore (by simp [hfirst])
      · exact Nat.lt_of_lt_of_le habove (hxs.le hafter)

theorem search_suits (hxs : Increasing xs) (x : Nat) : (search xs x).Suits xs x := by
  unfold search
  split
  case isTrue hsome =>
    have hwhole : (Window.whole hsome).Frames xs x := by
      refine ⟨.inl rfl, fun j hbehind => absurd j.isLt ?_⟩
      simp only [Window.whole] at hbehind
      omega
    exact compareWith_suits hxs (narrow_frames hxs _ hwhole) (size_narrow _)
  case isFalse hnone =>
    exact ⟨fun j => absurd j.isLt (by omega), fun j => absurd j.isLt (by omega)⟩

theorem get_of_held (hxs : Increasing xs) {i : Fin n} (h : search xs x = .held i) :
    xs.get i = x := by
  have hsuits := search_suits hxs x
  rw [h] at hsuits
  exact hsuits

theorem parts_of_free (hxs : Increasing xs) {k : Fin (n + 1)} (h : search xs x = .free k) :
    (∀ j : Fin n, (j : Nat) < k → xs.get j < x) ∧ ∀ j : Fin n, (k : Nat) ≤ j → x < xs.get j := by
  have hsuits := search_suits hxs x
  rw [h] at hsuits
  exact hsuits

end Stencil
