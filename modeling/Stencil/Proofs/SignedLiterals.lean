import Mathlib
import Stencil.Path.Tokenizer
import Stencil.Number.Numeral

/-!
# Number literals with a minus in front

A literal that stands for a number does so with a minus in front as well. Main statement:
`Numeral.exists_ofLiteral?_minus`. A whole number fits with a minus if it fits without one, a
decimal is cut to its digits whatever its sign is, and the sign of a double is one bit of it, which
does not decide whether the double is finite (`isFinite_ofBits_congr`).
-/

namespace Stencil

/-! ## The sign of a double -/

section Doubles

open Float.Model (Format UnpackedFloat)
open Float.Model.UnpackedFloat

/-- All exponents but the largest belong to finite doubles. -/
theorem isFinite_unpack (v : BitVec Format.binary64.numBits) :
    (unpack Format.binary64 v).isFinite = decide (unpackExponent v ≠ -1#_) := by
  unfold unpack
  dsimp only
  split
  · next h => split <;> simp only [h] <;> rfl
  · next h =>
    rw [decide_eq_true h]
    split
    · split <;> rfl
    · rfl

theorem unpackExponent_pack_abs (f : UnpackedFloat) :
    unpackExponent (pack Format.binary64 f.abs) = unpackExponent (pack Format.binary64 f) := by
  cases f with
  | finite s m e hm =>
    simp only [UnpackedFloat.abs, pack]
    split
    · simp [packedInfinity]
    · split <;> simp
  | _ => simp [UnpackedFloat.abs, pack, packedInfinity, packedZero]

theorem abs_unpack_congr {v w : BitVec Format.binary64.numBits}
    (hexponent : unpackExponent v = unpackExponent w)
    (hmantissa : unpackMantissa v = unpackMantissa w) :
    (unpack Format.binary64 v).abs = (unpack Format.binary64 w).abs := by
  simp only [unpack, hexponent, hmantissa]
  split
  · split <;> rfl
  · split
    · split <;> rfl
    · rfl

/-- Doubles that differ in their signs only are both finite or both not. -/
theorem isFinite_ofBits_congr {a b : UInt64}
    (hexponent : @unpackExponent Format.binary64 a.toBitVec =
      @unpackExponent Format.binary64 b.toBitVec)
    (hmantissa : @unpackMantissa Format.binary64 a.toBitVec =
      @unpackMantissa Format.binary64 b.toBitVec) :
    (Float.ofBits a).isFinite = (Float.ofBits b).isFinite := by
  have hexponents : unpackExponent (pack Format.binary64 (unpack Format.binary64 a.toBitVec)) =
      unpackExponent (pack Format.binary64 (unpack Format.binary64 b.toBitVec)) := by
    rw [← unpackExponent_pack_abs, abs_unpack_congr hexponent hmantissa, unpackExponent_pack_abs]
  show (unpack Format.binary64 _).isFinite = (unpack Format.binary64 _).isFinite
  rw [isFinite_unpack, isFinite_unpack]
  exact congrArg (fun e => decide (e ≠ -1#_)) hexponents

end Doubles

/-- The sign bit stands above exponent and mantissa. -/
theorem isFinite_ofBits_sign {bits : Nat} (h : bits < twoTo 63) :
    (Float.ofBits (UInt64.ofNat (twoTo 63 + bits))).isFinite =
      (Float.ofBits (UInt64.ofNat bits)).isFinite := by
  have hbound : twoTo 63 = 9223372036854775808 := rfl
  rw [hbound] at h ⊢
  apply isFinite_ofBits_congr
  · apply BitVec.eq_of_toNat_eq
    simp [Float.Model.UnpackedFloat.unpackExponent, Float.Model.Format.numBits,
      Nat.shiftRight_eq_div_pow]
    omega
  · apply BitVec.eq_of_toNat_eq
    simp [Float.Model.UnpackedFloat.unpackMantissa, Float.Model.Format.numBits]
    omega

theorem isFinite_floatOfParts (significand : Nat) (exponent : Int) :
    (floatOfParts ⟨true, significand, exponent⟩).isFinite =
      (floatOfParts ⟨false, significand, exponent⟩).isFinite := by
  apply isFinite_ofBits_sign
  have hbound : 2047 * twoTo 52 < twoTo 63 := by decide
  exact Nat.lt_of_le_of_lt (Nat.min_le_right _ _) hbound

theorem isFinite_nearestFloat (num den : Nat) :
    (nearestFloat true num den).isFinite = (nearestFloat false num den).isFinite := by
  unfold nearestFloat
  split <;> exact isFinite_floatOfParts _ _

theorem isFinite_nearestDecimal (digits : Nat) (exponent : Int) :
    (nearestDecimal true digits exponent).isFinite =
      (nearestDecimal false digits exponent).isFinite := by
  unfold nearestDecimal
  dsimp only
  split
  · exact isFinite_nearestFloat _ _
  split
  · exact isFinite_floatOfParts _ _
  split
  · exact isFinite_nearestFloat _ _
  split <;> exact isFinite_nearestFloat _ _

/-! ## Reading with a minus -/

@[simp] theorem splitSign_minus (cs : List Char) : splitSign ('-' :: cs) = (true, cs) := rfl

theorem splitSign_of_isDigit {cs : List Char} (h : cs.head?.any Char.isDigit = true) :
    splitSign cs = (false, cs) := by
  unfold splitSign
  split
  · cases h
  · cases h
  · rfl

theorem isSome_guard_congr {α : Type} (c : Prop) [Decidable c] {x y : Option α}
    (h : x.isSome = y.isSome) :
    (if c then x else none).isSome = (if c then y else none).isSome := by
  split
  · exact h
  · rfl

/-- Whether a decimal fits does not depend on its sign. -/
theorem isSome_ofDigits? (negative : Bool) (whole fraction : List Nat) :
    (Decimal.ofDigits? negative whole fraction).isSome =
      (Decimal.ofDigits? false whole fraction).isSome := by
  have hfind : ∀ {f g : Nat → Option Decimal}, (∀ n, (f n).isSome = (g n).isSome) →
      ∀ ns : List Nat, (ns.findSome? f).isSome = (ns.findSome? g).isSome := by
    intro f g hfg ns
    rw [Bool.eq_iff_iff, List.findSome?_isSome_iff, List.findSome?_isSome_iff]
    simp only [hfg]
  refine hfind (fun n => ?_) _
  dsimp only
  exact isSome_guard_congr _ rfl

section Minus

variable {cs : List Char} (hdigit : cs.head?.any Char.isDigit = true)

include hdigit

theorem readInt?_minus : readInt? ('-' :: cs) = (readInt? cs).map fun n => -n := by
  unfold readInt?
  rw [splitSign_of_isDigit hdigit, splitSign_minus]
  dsimp only
  split
  · rfl
  · rfl

/-- Below zero there is one whole number more than above. -/
theorem exists_readInt64?_minus {n : Int64} (h : readInt64? cs = some n) :
    ∃ m, readInt64? ('-' :: cs) = some m := by
  obtain ⟨i, hi, hfits⟩ := Option.bind_eq_some_iff.mp h
  have hnonneg : 0 ≤ i := by
    unfold readInt? at hi
    rw [splitSign_of_isDigit hdigit] at hi
    dsimp only at hi
    split at hi
    · obtain rfl := Option.some.inj hi
      exact Int.natCast_nonneg _
    · cases hi
  unfold int64? at hfits
  split at hfits
  · next hrange =>
    rw [Bool.and_eq_true, decide_eq_true_eq, decide_eq_true_eq] at hrange
    refine ⟨Int64.ofInt (-i), ?_⟩
    rw [readInt64?, readInt?_minus hdigit, hi]
    refine if_pos ?_
    rw [Bool.and_eq_true, decide_eq_true_eq, decide_eq_true_eq]
    dsimp only
    omega
  · cases hfits

theorem isSome_readDecimal?_minus :
    (readDecimal? ('-' :: cs)).isSome = (readDecimal? cs).isSome := by
  unfold readDecimal?
  rw [splitSign_of_isDigit hdigit, splitSign_minus]
  exact isSome_guard_congr _ (isSome_ofDigits? true _ _)

/-- What begins with a digit is no name of a double. -/
theorem map_toLower_ne {name : List Char} (hname : name.head?.any Char.isDigit = false) :
    (cs.map Char.toLower == name) = false := by
  rw [beq_eq_false_iff_ne]
  rintro rfl
  cases cs with
  | nil => cases hdigit
  | cons c cs =>
    have hc : c.isDigit = true := hdigit
    have hlower : c.toLower = c := by
      simp only [Char.isDigit, ge_iff_le, Bool.and_eq_true, decide_eq_true_eq] at hc
      rw [Char.toLower, dif_neg]
      rintro ⟨hupper, -⟩
      exact absurd (UInt32.le_trans hupper hc.2) (by decide)
    rw [List.map_cons, hlower] at hname
    exact absurd (hname.symm.trans hdigit) Bool.false_ne_true

theorem exists_readFloat?_minus {x : Float} (h : readFloat? cs = some x) :
    ∃ y, readFloat? ('-' :: cs) = some y ∧ y.isFinite = x.isFinite := by
  have hinf : (cs.map Char.toLower == "inf".toList) = false := map_toLower_ne hdigit rfl
  have hinfinity : (cs.map Char.toLower == "infinity".toList) = false := map_toLower_ne hdigit rfl
  have hnan : (cs.map Char.toLower == "nan".toList) = false := map_toLower_ne hdigit rfl
  unfold readFloat? at h ⊢
  rw [splitSign_of_isDigit hdigit] at h
  rw [splitSign_minus]
  dsimp only at h ⊢
  rw [hinf, hinfinity, hnan] at h ⊢
  simp only [Bool.or_false, Bool.false_eq_true, if_false] at h ⊢
  have hsigns : ∀ {refused : Bool} {exponent? : Option Int} {digits : Nat} {shift : Int},
      (if refused then none
        else exponent?.map fun e => nearestDecimal false digits (e - shift)) = some x →
      ∃ y, (if refused then none
        else exponent?.map fun e => nearestDecimal true digits (e - shift)) = some y ∧
        y.isFinite = x.isFinite := by
    rintro (_ | _) (_ | exponent) digits shift h <;> cases h
    exact ⟨_, rfl, isFinite_nearestDecimal _ _⟩
  exact hsigns h

end Minus

/-- A number with a minus in front is a number. -/
theorem Numeral.exists_ofLiteral?_minus {literal : String} {value : Numeral}
    (hdigit : literal.toList.head?.any Char.isDigit = true)
    (h : Numeral.ofLiteral? literal = some value) :
    ∃ value', Numeral.ofLiteral? ("-" ++ literal) = some value' := by
  have htext : ("-" ++ literal).toList = '-' :: literal.toList := String.toList_append
  have hpoint : ('-' :: literal.toList).contains '.' = literal.toList.contains '.' := rfl
  have hsome := Option.isSome_of_eq_some h
  unfold ofLiteral? at hsome ⊢
  rw [htext, ← Option.isSome_iff_exists]
  dsimp only at hsome ⊢
  rw [Option.isSome_or, Bool.or_eq_true] at hsome ⊢
  rw [hpoint]
  rcases hsome with hexact | hfloat
  · refine .inl ?_
    split at hexact
    · next hcontains =>
      rwa [if_pos hcontains, Option.isSome_map, isSome_readDecimal?_minus hdigit,
        ← Option.isSome_map]
    · next hcontains =>
      rw [Option.isSome_map] at hexact
      obtain ⟨n, hn⟩ := Option.isSome_iff_exists.mp hexact
      obtain ⟨m, hm⟩ := exists_readInt64?_minus hdigit hn
      rw [if_neg hcontains, hm]
      rfl
  · refine .inr ?_
    obtain ⟨n, hn⟩ := Option.isSome_iff_exists.mp hfloat
    obtain ⟨x, hx, hfinite⟩ := Option.bind_eq_some_iff.mp hn
    obtain ⟨y, hy, hsame⟩ := exists_readFloat?_minus hdigit hx
    split at hfinite
    · next hx => simp [hy, hsame, hx]
    · cases hfinite

end Stencil
