import Mathlib.Algebra.Ring.Int.Parity
import Stencil.Proofs.StandardCalls

/-!
# Operators on whole numbers

Each operator is specified by what it gives on two whole numbers, without a bound on them
(`Value.IsWhole`, `Value.IsQuotient`, `Value.IsRemainder`, `Value.IsPower`, `Value.IsShifted`). The
exact result is computed first and then compared with the bounds of 64 bits, so all that remains is
that it is exact. Only for a power this takes an argument. Its exponent is bounded before the power
is computed. Of all powers that a bounded exponent changes, only those of -1, 0 and 1 are numbers of
64 bits, and these depend on nothing but the parity of the exponent (`boundedPower_cases`).

What a shift does to the bits is what multiplication by a power of two and division by one do to the
number (`toInt_shiftLeft`, `toInt_shiftRight`).

Main statement: `operators_on_wholes`.
-/

namespace Stencil

/-! ## Results -/

/-- Whether a number is one of 64 bits. -/
def Fits (n : Int) : Prop :=
  -2 ^ 63 ≤ n ∧ n < 2 ^ 63

namespace Value

/-- What comes of a number: the number where it is one of 64 bits, and some double where not. -/
structure IsWhole (v : Value) (n : Int) : Prop where
  whole : Fits n → ∃ w : Int64, v = .int w ∧ w.toInt = n
  tooLarge : ¬ Fits n → ∃ x, v = .float x

/-- A quotient is a whole number only if the division leaves nothing. -/
structure IsQuotient (v : Value) (a b : Int) : Prop where
  null : b = 0 → v = .null
  exact : b ≠ 0 → ∀ q, a = q * b → v.IsWhole q
  inexact : b ≠ 0 → ¬ b ∣ a → ∃ x, v = .float x

/-- A remainder has the sign of the dividend. -/
structure IsRemainder (v : Value) (a b : Int) : Prop where
  null : b = 0 → v = .null
  whole : b ≠ 0 → ∃ w : Int64, v = .int w ∧ w.toInt.natAbs < b.natAbs ∧
    (w.toInt = 0 ∨ w.toInt.sign = a.sign) ∧ b ∣ a - w.toInt

/-- A power is a whole number only if its exponent is one of 32 bits. -/
structure IsPower (v : Value) (a b : Int) : Prop where
  bounded : 0 ≤ b → b < 2 ^ 32 → v.IsWhole (a ^ b.toNat)
  unbounded : ¬ (0 ≤ b ∧ b < 2 ^ 32) → ∃ x, v = .float x

/-- What comes of a number that is moved by so many bits. -/
structure IsShifted (v : Value) (distance moved : Int) : Prop where
  null : ¬ (0 ≤ distance ∧ distance ≤ 63) → v = .null
  whole : 0 ≤ distance → distance ≤ 63 → ∃ w : Int64, v = .int w ∧ w.toInt = moved

end Value

theorem fits_toInt (a : Int64) : Fits a.toInt :=
  ⟨a.le_toInt, a.toInt_lt⟩

theorem Fits.of_natAbs_lt {n m : Int} (hm : Fits m) (h : n.natAbs < m.natAbs) : Fits n := by
  obtain ⟨hlow, hhigh⟩ := hm
  exact ⟨by omega, by omega⟩

theorem int64?_of_fits {n : Int} (h : Fits n) : ∃ w, int64? n = some w ∧ w.toInt = n := by
  have hrange : (-twoTo 63 ≤ n && n < twoTo 63 : Bool) = true := by
    rw [Bool.and_eq_true, decide_eq_true_eq, decide_eq_true_eq]
    exact h
  exact ⟨.ofInt n, if_pos hrange, Int64.toInt_ofInt_of_le h.1 h.2⟩

theorem int64?_of_not_fits {n : Int} (h : ¬ Fits n) : int64? n = none := by
  refine if_neg fun hrange => h ?_
  rwa [Bool.and_eq_true, decide_eq_true_eq, decide_eq_true_eq] at hrange

/-! ## Arithmetic -/

namespace Arithmetic

variable {op : Arithmetic} {a b : Int64}

theorem onWholes_zero (h : op.divides = true) (a : Int64) : op.onWholes a 0 = .null := by
  rw [onWholes, h]
  rfl

theorem onWholes_of_nonzero (h : op.divides = true → b ≠ 0) :
    op.onWholes a b = match (op.exactResult a.toInt b.toInt).bind int64? with
      | some n => .int n
      | none => .float (op.floatResult a.toFloat b.toFloat) := by
  refine if_neg fun hzero => ?_
  obtain ⟨hdivides, hb⟩ := Bool.and_eq_true_iff.mp hzero
  exact h hdivides (eq_of_beq hb)

/-- An exact result is compared with the bounds of 64 bits. -/
theorem onWholes_exact {n : Int} (h : op.divides = true → b ≠ 0)
    (hexact : op.exactResult a.toInt b.toInt = some n) : (op.onWholes a b).IsWhole n := by
  rw [onWholes_of_nonzero h, hexact, Option.bind_some]
  refine ⟨fun hfits => ?_, fun hfits => ?_⟩
  · obtain ⟨w, hw, rfl⟩ := int64?_of_fits hfits
    exact ⟨w, by rw [hw], rfl⟩
  · rw [int64?_of_not_fits hfits]
    exact ⟨_, rfl⟩

theorem onWholes_inexact (h : op.divides = true → b ≠ 0)
    (hexact : op.exactResult a.toInt b.toInt = none) : ∃ x, op.onWholes a b = .float x := by
  rw [onWholes_of_nonzero h, hexact]
  exact ⟨_, rfl⟩

theorem ne_zero_of_toInt (h : b.toInt ≠ 0) : b ≠ 0 := by
  rintro rfl
  exact h rfl

theorem divide_isQuotient (a b : Int64) : (divide.onWholes a b).IsQuotient a.toInt b.toInt := by
  refine ⟨fun hb => ?null, fun hb q hq => ?exact, fun hb hdvd => ?inexact⟩
  case null =>
    obtain rfl : b = 0 := Int64.toInt_inj.mp hb
    exact onWholes_zero rfl a
  case exact =>
    refine onWholes_exact (fun _ => ne_zero_of_toInt hb) ?_
    rw [hq]
    exact (if_pos ⟨hb, Int.mul_tmod_left q b.toInt⟩).trans (by rw [Int.mul_tdiv_cancel q hb])
  case inexact =>
    exact onWholes_inexact (fun _ => ne_zero_of_toInt hb)
      (if_neg fun h => hdvd (Int.dvd_iff_tmod_eq_zero.mpr h.2))

/-- A remainder is less than a number of 64 bits, and so it is one. -/
theorem modulus_isRemainder (a b : Int64) :
    (modulus.onWholes a b).IsRemainder a.toInt b.toInt := by
  refine ⟨fun hb => ?null, fun hb => ?whole⟩
  case null =>
    obtain rfl : b = 0 := Int64.toInt_inj.mp hb
    exact onWholes_zero rfl a
  case whole =>
    have hless : (a.toInt.tmod b.toInt).natAbs < b.toInt.natAbs := by
      rw [Int.natAbs_tmod]
      exact Nat.mod_lt _ (Int.natAbs_pos.mpr hb)
    have hwhole : (modulus.onWholes a b).IsWhole (a.toInt.tmod b.toInt) :=
      onWholes_exact (fun _ => ne_zero_of_toInt hb) (if_pos hb)
    obtain ⟨w, hvalue, hw⟩ := hwhole.whole ((fits_toInt b).of_natAbs_lt hless)
    refine ⟨w, hvalue, hw ▸ hless, ?_, hw ▸ Int.dvd_self_sub_tmod⟩
    rw [hw, Int.sign_tmod]
    by_cases hdvd : b.toInt ∣ a.toInt
    · exact .inl (Int.tmod_eq_zero_of_dvd hdvd)
    · exact .inr (if_neg hdvd)

example : modulus.onWholes .minValue (-1) = .int 0 := rfl

theorem not_fits_pow {a : Int} {n : Nat} (ha : 2 ≤ a.natAbs) (hn : 64 ≤ n) : ¬ Fits (a ^ n) := by
  have hlarge : 2 ^ 64 ≤ (a ^ n).natAbs :=
    calc 2 ^ 64 ≤ 2 ^ n := Nat.pow_le_pow_right (by decide) hn
      _ ≤ a.natAbs ^ n := Nat.pow_le_pow_left ha n
      _ = (a ^ n).natAbs := (Int.natAbs_pow a n).symm
  rintro ⟨hlow, hhigh⟩
  omega

/-- To bound the exponent makes no difference among the numbers of 64 bits. -/
theorem boundedPower_cases (a : Int) (n : Nat) :
    boundedPower a n = a ^ n ∨ ¬ Fits (boundedPower a n) ∧ ¬ Fits (a ^ n) := by
  by_cases hn : n < 64
  · exact .inl (by rw [boundedPower, if_pos hn]; rfl)
  have hbounded : boundedPower a n = a ^ (64 + n % 2) := by
    rw [boundedPower, if_neg hn]
    rfl
  rw [hbounded]
  by_cases ha : 2 ≤ a.natAbs
  · exact .inr ⟨not_fits_pow ha (Nat.le_add_right 64 _), not_fits_pow ha (Nat.not_lt.mp hn)⟩
  -- The powers of these three depend on the parity of the exponent, which is kept.
  obtain rfl | rfl | rfl : a = -1 ∨ a = 0 ∨ a = 1 := by omega
  · have hparity : (64 + n % 2) % 2 = n % 2 := by omega
    rw [neg_one_pow_eq_pow_mod_two (64 + n % 2), hparity, ← neg_one_pow_eq_pow_mod_two n]
    exact .inl rfl
  · have hpositive : n ≠ 0 := by omega
    rw [zero_pow hpositive, zero_pow (by omega)]
    exact .inl rfl
  · rw [one_pow, one_pow]
    exact .inl rfl

example : boundedPower (-1) 4294967295 = -1 := by decide

theorem power_isPower (a b : Int64) : (power.onWholes a b).IsPower a.toInt b.toInt := by
  refine ⟨fun hnonneg hsmall => ?_, fun hrange => ?_⟩
  · have hwhole : (power.onWholes a b).IsWhole (boundedPower a.toInt b.toInt.toNat) :=
      onWholes_exact nofun (if_pos ⟨hnonneg, hsmall⟩)
    rcases boundedPower_cases a.toInt b.toInt.toNat with heq | ⟨hbounded, hpower⟩
    · exact heq ▸ hwhole
    · exact ⟨fun hfits => absurd hfits hpower, fun _ => hwhole.tooLarge hbounded⟩
  · exact onWholes_inexact nofun (if_neg hrange)

end Arithmetic

/-! ## Shifts -/

section Shifts

variable {a b : Int64} (hnonneg : 0 ≤ b.toInt) (hsmall : b.toInt ≤ 63)

include hnonneg hsmall

/-- Up to 63, a distance is what it is modulo 64. -/
theorem toNat_smod_sixtyFour : (b.toBitVec.smod 64).toNat = b.toInt.toNat := by
  have hmod : (b.toBitVec.smod 64).toInt = b.toInt := by
    rw [BitVec.toInt_smod]
    exact Int.fmod_eq_of_lt hnonneg (Int.lt_add_one_of_le hsmall)
  rw [← hmod] at hnonneg ⊢
  rw [BitVec.toInt_eq_toNat_cond] at hnonneg ⊢
  split at hnonneg
  · next h => rw [if_pos h, Int.toNat_natCast]
  · omega

theorem toInt_shiftLeft :
    (a <<< b).toInt = (a.toInt * 2 ^ b.toInt.toNat).bmod (2 ^ 64) := by
  rw [← Int64.toInt_toBitVec, Int64.toBitVec_shiftLeft, BitVec.shiftLeft_eq',
    toNat_smod_sixtyFour hnonneg hsmall, BitVec.toInt_shiftLeft, ← Int64.toInt_toBitVec a,
    BitVec.toInt_eq_toNat_bmod, Int.bmod_mul_bmod, Nat.shiftLeft_eq, Int.natCast_mul,
    Int.natCast_pow]
  rfl

theorem toInt_shiftRight : (a >>> b).toInt = a.toInt.fdiv (2 ^ b.toInt.toNat) := by
  rw [← Int64.toInt_toBitVec, Int64.toBitVec_shiftRight, BitVec.sshiftRight_eq',
    toNat_smod_sixtyFour hnonneg hsmall, BitVec.toInt_sshiftRight, Int.shiftRight_eq_div_pow,
    Int.fdiv_eq_ediv_of_nonneg _ (Int.pow_nonneg (by decide)), Int.natCast_pow]
  rfl

end Shifts

theorem shiftBits_isShifted {toLeft : Bool} {a b : Int64} {moved : Int}
    (hmoved : 0 ≤ b.toInt → b.toInt ≤ 63 →
      (if toLeft then a <<< b else a >>> b).toInt = moved) :
    (shiftBits toLeft a b).IsShifted b.toInt moved where
  null hrange := if_neg (by omega)
  whole hnonneg hsmall := ⟨_, if_pos (by omega), hmoved hnonneg hsmall⟩

/-! ## Calls -/

/-- Whether an operator gives something that is as described, wherever it is called on two whole
numbers. -/
def Operator.Yields (op : Operator) (a b : Int64) (described : Value → Prop) : Prop :=
  ∃ v, Gives op.formatterName (.int a) (.int b) v ∧ described v

namespace Builtin

/-- The operators that have one overload only, with its position. -/
theorem positions_single : ∀ p ∈ [(Operator.subtract, 3), (.multiply, 4), (.divide, 5),
    (.modulus, 6), (.power, 7), (.shiftLeft, 8), (.shiftRight, 9)],
    Registry.standard.positions p.1.formatterName = [p.2] := by
  decide +kernel

section Single

variable {op : Operator} {i : Nat} {described : Value → Prop} {a b : Int64}

/-- An operator for a type that all whole numbers have. -/
theorem yields_binary {type : ParamType} {f : Value → Value → Value}
    (hposition : Registry.standard.positions op.formatterName = [i])
    (hsignature : Builtin.all[i]? = some (binary op type fun _ => f))
    (htype : ∀ w : Value, w.type = .integer → type.IsTypeOf [] w)
    (hdescribed : described (f (.int a) (.int b))) : op.Yields a b described := by
  refine ⟨_, gives_of_only ?_ hposition hsignature (by cases op <;> decide) rfl ?_ ?_, hdescribed⟩
  · rintro ⟨v, arguments, _, _, _, _⟩ rfl rfl
    rfl
  · exact fun w hw => htype w (congrArg Shape.type hw)
  · exact fun w hw => htype w (congrArg Shape.type hw)

theorem yields_arithmetic {computed : Arithmetic}
    (hposition : Registry.standard.positions op.formatterName = [i])
    (hsignature : Builtin.all[i]? = some (arithmetic op computed))
    (hdescribed : described (computed.onWholes a b)) : op.Yields a b described :=
  yields_binary hposition hsignature (fun _ => .inl) hdescribed

theorem yields_shift {toLeft : Bool}
    (hposition : Registry.standard.positions op.formatterName = [i])
    (hsignature : Builtin.all[i]? = some (shift op toLeft))
    (hdescribed : described (shiftBits toLeft a b)) : op.Yields a b described :=
  yields_binary hposition hsignature (fun _ h => h) hdescribed

end Single

/-- Sums are also those of strings and of arrays, but not of whole numbers. -/
theorem gives_add (a b : Int64) : Gives Operator.add.formatterName (.int a) (.int b)
    (Arithmetic.add.onWholes a b) := by
  have hresolve (matching : NameMatching) (w x : Value) (hw : w.shape = (Value.int a).shape)
      (hx : x.shape = (Value.int b).shape) : ∃ shape,
      Registry.standard.resolve matching Operator.add.formatterName w [⟨none, x⟩] =
        some ⟨arithmetic .add .add, .keep, [.argument 0 .keep], [], shape⟩ := by
    have hleft : w.type = .integer := congrArg Shape.type hw
    have hright : x.type = .integer := congrArg Shape.type hx
    cases w <;> cases hleft
    cases x <;> cases hright
    cases matching <;> exact ⟨_, rfl⟩
  refine gives_of_resolve ?_ hresolve
  rintro ⟨v, arguments, _, _, _, _⟩ rfl rfl
  rfl

end Builtin

/-- Sums, differences, products, quotients without a remainder, and powers whose exponent is one of
32 bits are the exact whole numbers where these are numbers of 64 bits, and doubles where not. Other
quotients and powers are doubles, and remainders are exact always. Nothing is divided by zero, and
nothing is moved by less than 0 or more than 63 bits: these give null. What is moved out on the left
is lost, and what is moved to the right is rounded down. -/
theorem operators_on_wholes (a b : Int64) :
    Operator.add.Yields a b (·.IsWhole (a.toInt + b.toInt)) ∧
    Operator.subtract.Yields a b (·.IsWhole (a.toInt - b.toInt)) ∧
    Operator.multiply.Yields a b (·.IsWhole (a.toInt * b.toInt)) ∧
    Operator.divide.Yields a b (·.IsQuotient a.toInt b.toInt) ∧
    Operator.modulus.Yields a b (·.IsRemainder a.toInt b.toInt) ∧
    Operator.power.Yields a b (·.IsPower a.toInt b.toInt) ∧
    Operator.shiftLeft.Yields a b
      (·.IsShifted b.toInt ((a.toInt * 2 ^ b.toInt.toNat).bmod (2 ^ 64))) ∧
    Operator.shiftRight.Yields a b (·.IsShifted b.toInt (a.toInt.fdiv (2 ^ b.toInt.toNat))) := by
  have hposition := Builtin.positions_single
  simp only [List.forall_mem_cons, List.not_mem_nil, false_imp_iff, implies_true, and_true]
    at hposition
  obtain ⟨hsubtract, hmultiply, hdivide, hmodulus, hpower, hleft, hright⟩ := hposition
  refine ⟨?add, ?subtract, ?multiply, ?divide, ?modulus, ?power, ?shiftLeft, ?shiftRight⟩
  case add => exact ⟨_, Builtin.gives_add a b, Arithmetic.onWholes_exact nofun rfl⟩
  case subtract =>
    exact Builtin.yields_arithmetic hsubtract rfl (Arithmetic.onWholes_exact nofun rfl)
  case multiply =>
    exact Builtin.yields_arithmetic hmultiply rfl (Arithmetic.onWholes_exact nofun rfl)
  case divide => exact Builtin.yields_arithmetic hdivide rfl (Arithmetic.divide_isQuotient a b)
  case modulus =>
    exact Builtin.yields_arithmetic hmodulus rfl (Arithmetic.modulus_isRemainder a b)
  case power => exact Builtin.yields_arithmetic hpower rfl (Arithmetic.power_isPower a b)
  case shiftLeft => exact Builtin.yields_shift hleft rfl (shiftBits_isShifted toInt_shiftLeft)
  case shiftRight => exact Builtin.yields_shift hright rfl (shiftBits_isShifted toInt_shiftRight)

end Stencil
