import MetricRates.Proofs.Number.Rounding

/-!
# Quotients by one and by a billion

Dividing a number by one gives the number back, whatever it is.  A whole number
of nanoseconds above zero is above zero in seconds as well: however it is
rounded on the way, neither the conversion nor the division can lose it.
-/

namespace MetricRates.Number

open Float.Model (Format totalExponent UnpackedFloat)
open Float.Model.UnpackedFloat

/-! ## One -/

/-- The number one. -/
def unpackedOne : UnpackedFloat :=
  .finite .positive (2 ^ 52) (-52) (by decide)

theorem unpack_one : (1.0 : Float).toModel.unpack = unpackedOne := by
  rfl

theorem sign_div_positive (sign : Sign) : sign / .positive = sign := by
  cases sign <;> rfl

theorem sign_mul_positive (sign : Sign) : sign * .positive = sign := by
  cases sign <;> rfl

/-- The quotient by one is computed with one digit more, or none where the
exponent cannot be lowered, and the rest is zero. -/
theorem divCore_one {mantissa : Nat} {exponent : Int}
    (rounded : Format.binary64.targetExponent (totalExponent mantissa exponent) = exponent) :
    ∃ k : Nat, divCore Format.binary64 mantissa exponent (2 ^ 52) (-52) =
      (mantissa * 2 ^ k, exponent - k, .exact) := by
  have unit : totalExponent (2 ^ 52) (-52) = 1 := by
    rw [totalExponent, Nat.log2_two_pow]
    rfl
  refine ⟨(exponent - Format.binary64.targetExponent
    (totalExponent mantissa exponent - 1)).toNat, ?_⟩
  generalize lengthened : (exponent - Format.binary64.targetExponent
    (totalExponent mantissa exponent - 1)).toNat = k
  rw [targetExponent_eq] at rounded lengthened
  have lowered : min (exponent - -52) (Format.binary64.targetExponent
      (totalExponent mantissa exponent - 1)) = exponent - k := by
    rw [targetExponent_eq]
    omega
  have shift : (exponent - -52 - (exponent - k)).toNat = k + 52 := by omega
  rw [divCore, unit]
  simp only [lowered, shift, Nat.shiftLeft_eq, Nat.pow_add, ← Nat.mul_assoc]
  rw [Nat.mul_div_cancel _ (by decide), Nat.mul_mod_left]
  rfl

theorem div_unpackedOne {x : UnpackedFloat} (rounded : Rounded x) :
    UnpackedFloat.div Format.binary64 x unpackedOne = x := by
  cases x with
  | notANumber => rfl
  | infinity sign => exact congrArg UnpackedFloat.infinity (sign_div_positive sign)
  | zero sign => exact congrArg UnpackedFloat.zero (sign_div_positive sign)
  | finite sign mantissa exponent positive =>
      obtain ⟨k, core⟩ := divCore_one rounded
      rw [unpackedOne, UnpackedFloat.div]
      simp only [core, sign_div_positive]
      exact roundWithAccuracy_exact rounded k

theorem mul_unpackedOne {x : UnpackedFloat} (rounded : Rounded x) :
    UnpackedFloat.mul Format.binary64 x unpackedOne = x := by
  cases x with
  | notANumber => rfl
  | infinity sign => exact congrArg UnpackedFloat.infinity (sign_mul_positive sign)
  | zero sign => exact congrArg UnpackedFloat.zero (sign_mul_positive sign)
  | finite sign mantissa exponent positive =>
      rw [unpackedOne, UnpackedFloat.mul, sign_mul_positive]
      exact roundWithAccuracy_exact rounded 52

/-- A number divided by one is the same number. -/
theorem float_div_one (x : Float) : x / 1.0 = x := by
  change Float.ofModel (Float.Model.pack (UnpackedFloat.div Format.binary64 x.toModel.unpack
    (1.0 : Float).toModel.unpack)) = x
  rw [unpack_one, div_unpackedOne (rounded_unpack x.toModel), pack_unpack_model]

/-! ## Whole numbers -/

theorem hasSize_unpackedOfNat {n : Nat} (positive : 0 < n) :
    let converted := UnpackedFloat.ofNat Format.binary64 n
    Rounded converted ∧ HasSize (n.log2 + 1) converted := by
  have above : compare (n : Int) 0 = .gt := Int.compare_eq_gt.mpr (by omega)
  simp only [UnpackedFloat.ofNat, UnpackedFloat.ofInt, UnpackedFloat.normalize, above,
    Int.toNat_natCast]
  apply hasSize_round positive (by omega)
  rw [totalExponent]
  omega

theorem hasSize_ofScientific {n : Nat} (positive : 0 < n) :
    let converted := UnpackedFloat.ofScientific Format.binary64 n 0
    Rounded converted ∧ HasSize (n.log2 + 1) converted := by
  have nonzero : n ≠ 0 := Nat.ne_of_gt positive
  have notHuge : ¬ (0 : Int) > 2 ^ Format.binary64.exponentBits := by decide
  have notTiny : ¬ (0 : Int) < -((2 ^ Format.binary64.exponentBits : Int) + n.log2) := by
    change ¬ (0 : Int) < -(2048 + n.log2)
    omega
  have written : UnpackedFloat.ofScientific Format.binary64 n 0 =
      roundWithAccuracy Format.binary64 .positive (n * 2 ^ 53) (0 - (53 : Nat)) .exact := by
    rw [UnpackedFloat.ofScientific, dif_neg nonzero, if_neg notHuge, if_neg notTiny,
      if_pos (Int.le_refl 0), UnpackedFloat.mul, Nat.shiftLeft_eq]
    simp only [Int.toNat_zero, Nat.pow_zero, Nat.mul_one]
    rfl
  have size := totalExponent_mul_pow positive 0 53
  rw [totalExponent] at size
  rw [written]
  apply hasSize_roundWithAccuracy .exact (Nat.mul_pos positive (by decide)) _ (by omega)
  · rw [totalExponent, size, totalExponent]
    omega
  · rw [targetExponent_eq, totalExponent, size, totalExponent]
    omega

/-- A whole number above zero keeps its leading digit when it is converted, whether it
has few digits or is rounded to the digits that fit. -/
theorem hasSize_ofNat {n : Nat} (positive : 0 < n) :
    HasSize (n.log2 + 1) (Float.ofNat n).toModel.unpack := by
  by_cases short : n < 2 ^ 53 ∧ 0 ≤ 22
  · have word : n.toUInt64.toNat = n := Nat.mod_eq_of_lt (by omega)
    have factor : (Float.ofBits 0x3FF0000000000000).toModel.unpack = unpackedOne := by rfl
    have converted : (Float.ofNat n).toModel = Float.Model.pack (UnpackedFloat.mul
        Format.binary64 n.toUInt64.toFloat.toModel.unpack unpackedOne) := by
      change (Float.ofScientific n false 0).toModel = _
      rw [Float.ofScientific, dif_pos short, ← factor]
      rfl
    obtain ⟨rounded, hasSize⟩ := hasSize_unpackedOfNat positive
    rw [converted, mul_unpackedOne (rounded_unpack _), pack_unpack_model]
    change HasSize (n.log2 + 1) (unpack Format.binary64 (pack Format.binary64
      (UnpackedFloat.ofNat Format.binary64 n.toUInt64.toNat)))
    rw [word]
    exact hasSize_unpack_pack rounded hasSize
  · have converted : (Float.ofNat n).toModel =
        Float.Model.pack (UnpackedFloat.ofScientific Format.binary64 n 0) := by
      change (Float.ofScientific n false 0).toModel = _
      rw [Float.ofScientific, dif_neg short]
      rfl
    obtain ⟨rounded, hasSize⟩ := hasSize_ofScientific positive
    rw [converted]
    exact hasSize_unpack_pack rounded hasSize

/-! ## Seconds -/

theorem unpack_billion : (1000000000.0 : Float).toModel.unpack =
    .finite .positive 8388608000000000 (-23) (by decide) := by
  rfl

theorem unpack_zero : (0.0 : Float).toModel.unpack = .zero .positive := by
  rfl

theorem hasSize_div_billion {x : UnpackedFloat} (hasSize : HasSize 1 x) :
    let quotient := UnpackedFloat.div Format.binary64 x (1000000000.0 : Float).toModel.unpack
    Rounded quotient ∧ HasSize (-29) quotient := by
  rw [unpack_billion]
  rcases hasSize.cases with rfl | ⟨mantissa, exponent, positive, rfl, least⟩
  · exact ⟨trivial, trivial⟩
  · have billion : totalExponent 8388608000000000 (-23) = 30 := by decide
    apply hasSize_div positive (by decide) (by decide)
    rw [billion]
    omega

theorem not_le_zero_of_hasSize {x : Float} {size : Int} (hasSize : HasSize size x.toModel.unpack) :
    ¬ x ≤ 0.0 := by
  intro le
  have le : x.toModel.unpack.le (0.0 : Float).toModel.unpack = true := of_decide_eq_true le
  rw [unpack_zero] at le
  rcases hasSize.cases with infinite | ⟨_, _, _, finite, _⟩
  · simp [infinite, UnpackedFloat.le, UnpackedFloat.compare] at le
  · simp [finite, UnpackedFloat.le, UnpackedFloat.compare] at le

/-- Nanoseconds above zero are above zero in seconds. -/
theorem not_seconds_le_zero {nanos : Int} (positive : 0 < nanos) :
    ¬ Float.ofInt nanos / 1000000000.0 ≤ 0.0 := by
  obtain ⟨n, rfl⟩ := Int.eq_ofNat_of_zero_le (Int.le_of_lt positive)
  have atLeastOne : HasSize 1 (Float.ofNat n).toModel.unpack :=
    (hasSize_ofNat (by omega)).mono (by omega)
  obtain ⟨rounded, hasSize⟩ := hasSize_div_billion atLeastOne
  exact not_le_zero_of_hasSize (hasSize_unpack_pack rounded hasSize)

end MetricRates.Number
