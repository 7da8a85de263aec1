/-!
# Ranges of scalar values

A character property is stored as a sorted list of disjoint ranges of Unicode scalar values.
-/

namespace Stencil.Text

/-- First and last scalar value of a range. -/
abbrev ScalarRange := Nat × Nat

/-- Whether `n` lies in one of the ranges. The list is sorted, so the search ends at the first range
that begins after `n`. -/
def inRanges (n : Nat) : List ScalarRange → Bool
  | [] => false
  | (first, last) :: rest => if n < first then false else n ≤ last || inRanges n rest

end Stencil.Text
