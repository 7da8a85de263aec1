/-!
# Values by key

Lists of pairs that hold each key once, in the order in which the keys were added. They carry the
members of objects, the variables of a frame, and whatever else is looked up by a key in an order
that can be seen. The main statement is `lookup_set`: after a value is set, its key gives that
value and all other keys give what they gave before.
-/

namespace Stencil.Keyed

variable {κ α : Type} [BEq κ]

/-- The pairs with `key` set to `value`. A key that is there keeps its place. -/
def set (key : κ) (value : α) : List (κ × α) → List (κ × α)
  | [] => [(key, value)]
  | (k, v) :: rest => if k == key then (k, value) :: rest else (k, v) :: set key value rest

/-- Pairs without repeated keys: the last value of a key, at the place of the first. -/
def ofPairs (pairs : List (κ × α)) : List (κ × α) :=
  pairs.foldl (fun kept (k, v) => set k v kept) []

/-- The pairs without the first one that has the key. -/
def erase (key : κ) : List (κ × α) → List (κ × α)
  | [] => []
  | (k, v) :: rest => if k == key then rest else (k, v) :: erase key rest

/-- Whether one of the pairs has the key. -/
def has (key : κ) (pairs : List (κ × α)) : Bool :=
  (pairs.lookup key).isSome

variable [LawfulBEq κ]

theorem lookup_cons (k key : κ) (v : α) (rest : List (κ × α)) :
    List.lookup key ((k, v) :: rest) = if k == key then some v else rest.lookup key := by
  rw [List.lookup_cons, BEq.comm]
  cases k == key <;> rfl

theorem lookup_set (key j : κ) (value : α) (pairs : List (κ × α)) :
    (set key value pairs).lookup j = if key == j then some value else pairs.lookup j := by
  induction pairs with
  | nil => rw [set, lookup_cons]
  | cons pair rest ih =>
    obtain ⟨k, v⟩ := pair
    rw [set]
    by_cases h : k = key
    · subst h
      simp only [beq_self_eq_true, if_true, lookup_cons]
      cases k == j <;> rfl
    · have hk : (k == key) = false := by simpa using h
      simp only [hk, Bool.false_eq_true, if_false, lookup_cons, ih]
      by_cases hj : k = j
      · subst hj
        have : (key == k) = false := by simpa using Ne.symm h
        simp [this]
      · have : (k == j) = false := by simpa using hj
        simp [this]

end Stencil.Keyed
