import MetricRates.Proofs.Number.Packed

/-!
# Rounding keeps sizes and exact values

A positive number is at least the power of two of its leading digit.  Rounding
never loses that digit as long as it stands above the smallest exponent, and a
number that is rounded already is rounded to itself, however many zeros its
mantissa is written with.
-/

namespace MetricRates.Number

open Float.Model (Format totalExponent UnpackedFloat)
open Float.Model.UnpackedFloat

/-! ## Leading digits -/

theorem log2_div_pow (n k : Nat) : (n / 2 ^ k).log2 = n.log2 - k := by
  rw [Nat.log2_eq_log_two, Nat.log2_eq_log_two, Nat.log_div_base_pow]

theorem log2_mul_pow {n : Nat} (positive : 0 < n) (k : Nat) :
    (n * 2 ^ k).log2 = n.log2 + k := by
  have nonzero : n * 2 ^ k ≠ 0 := Nat.ne_of_gt (Nat.mul_pos positive (Nat.two_pow_pos k))
  have reaches : k ≤ (n * 2 ^ k).log2 :=
    (Nat.le_log2 nonzero).mpr (Nat.le_mul_of_pos_left _ positive)
  have divided := log2_div_pow (n * 2 ^ k) k
  rw [Nat.mul_div_cancel n (Nat.two_pow_pos k)] at divided
  omega

theorem log2_mono {a b : Nat} (positive : 0 < a) (le : a ≤ b) : a.log2 ≤ b.log2 := by
  rw [Nat.le_log2 (Nat.ne_of_gt (Nat.lt_of_lt_of_le positive le))]
  exact (Nat.log2_self_le (Nat.ne_of_gt positive)).trans le

/-- A quotient loses at most one digit more than its divisor has. -/
theorem log2_div {a b : Nat} (positive : 0 < b) (longer : b.log2 < a.log2) :
    0 < a / b ∧ a.log2 ≤ (a / b).log2 + b.log2 + 1 := by
  have nonzero : a ≠ 0 := by
    rintro rfl
    exact absurd longer (by simp)
  have fits : 2 ^ (a.log2 - b.log2 - 1) ≤ a / b := by
    rw [Nat.le_div_iff_mul_le positive]
    calc
      2 ^ (a.log2 - b.log2 - 1) * b ≤ 2 ^ (a.log2 - b.log2 - 1) * 2 ^ (b.log2 + 1) :=
        Nat.mul_le_mul_left _ (Nat.le_of_lt Nat.lt_log2_self)
      _ = 2 ^ a.log2 := by
        rw [← Nat.pow_add]
        congr 1
        omega
      _ ≤ a := Nat.log2_self_le nonzero
  have quotient : 0 < a / b := Nat.lt_of_lt_of_le (Nat.two_pow_pos _) fits
  have leading := (Nat.le_log2 (Nat.ne_of_gt quotient)).mpr fits
  exact ⟨quotient, by omega⟩

theorem totalExponent_mul_pow {mantissa : Nat} (positive : 0 < mantissa) (exponent : Int)
    (k : Nat) :
    totalExponent (mantissa * 2 ^ k) (exponent - k) = totalExponent mantissa exponent := by
  rw [totalExponent, log2_mul_pow positive, totalExponent]
  omega

/-! ## Shifting -/

theorem mantissa_shiftRight (extended : ExtendedMantissa) (k : Nat) :
    (extended >>> k).mantissa = extended.mantissa / 2 ^ k := by
  change (k.repeat ExtendedMantissa.shiftRightOne extended).mantissa = _
  induction k with
  | zero =>
      rw [Nat.pow_zero, Nat.div_one]
      rfl
  | succ k ih =>
      rw [Nat.repeat, ExtendedMantissa.shiftRightOne, ih, Nat.div_div_eq_div_mul, Nat.pow_succ]

@[simp]
theorem mantissa_ofMantissaAndAccuracy (mantissa : Nat) (accuracy : Accuracy) :
    (ExtendedMantissa.ofMantissaAndAccuracy mantissa accuracy).mantissa = mantissa := by
  cases accuracy with
  | exact => rfl
  | inexact order => cases order <;> rfl

theorem mantissa_le_roundedMantissa (extended : ExtendedMantissa) :
    extended.mantissa ≤ extended.roundedMantissa := by
  rcases extended with ⟨mantissa, roundBit, stickyBit⟩
  cases roundBit <;> cases stickyBit <;>
    simp [ExtendedMantissa.roundedMantissa, ExtendedMantissa.accuracy,
      Accuracy.roundToNearestEven]

/-- Zeros at the end of a mantissa leave no trace when they are shifted out. -/
theorem shiftRight_exact (mantissa k : Nat) :
    ExtendedMantissa.ofMantissaAndAccuracy (mantissa * 2 ^ k) .exact >>> k =
      ExtendedMantissa.ofMantissaAndAccuracy mantissa .exact := by
  change k.repeat ExtendedMantissa.shiftRightOne _ = _
  induction k generalizing mantissa with
  | zero =>
      rw [Nat.pow_zero, Nat.mul_one]
      rfl
  | succ k ih =>
      have doubled : mantissa * 2 ^ (k + 1) = mantissa * 2 * 2 ^ k := by
        rw [Nat.pow_succ, Nat.mul_assoc, Nat.mul_comm 2]
      rw [Nat.repeat, doubled, ih]
      simp [ExtendedMantissa.shiftRightOne, ExtendedMantissa.ofMantissaAndAccuracy]

section Size

variable {mantissa : Nat} {exponent size : Int}

/-- Shifting to the target exponent keeps the leading digit of a number that is
not too small for the format. -/
theorem shiftToTargetExponent_size (accuracy : Accuracy) (positive : 0 < mantissa)
    (fine : exponent ≤ Format.binary64.targetExponent (totalExponent mantissa exponent))
    (normal : -1073 ≤ totalExponent mantissa exponent) :
    let shifted := shiftToTargetExponent Format.binary64 mantissa exponent accuracy
    0 < shifted.1.mantissa ∧
      shifted.2 = Format.binary64.targetExponent (totalExponent mantissa exponent) ∧
      totalExponent shifted.1.mantissa shifted.2 = totalExponent mantissa exponent := by
  simp only [shiftToTargetExponent, shiftToExponent, mantissa_shiftRight,
    mantissa_ofMantissaAndAccuracy]
  generalize dropped : (Format.binary64.targetExponent (totalExponent mantissa exponent) -
    exponent).toNat = k
  have within : k ≤ mantissa.log2 := by
    rw [targetExponent_eq, totalExponent] at *
    omega
  have kept : 0 < mantissa / 2 ^ k := by
    apply Nat.div_pos _ (Nat.two_pow_pos k)
    exact (Nat.le_log2 (Nat.ne_of_gt positive)).mp within
  refine ⟨kept, by omega, ?_⟩
  rw [totalExponent, log2_div_pow, totalExponent]
  omega

/-- A positive number has a size when it is infinite or its leading digit stands
at least that high. -/
def HasSize (size : Int) : UnpackedFloat → Prop
  | .infinity .positive => True
  | .finite .positive mantissa exponent _ => size ≤ totalExponent mantissa exponent
  | _ => False

theorem HasSize.cases {x : UnpackedFloat} (hasSize : HasSize size x) :
    x = .infinity .positive ∨
      ∃ mantissa exponent positive, x = .finite .positive mantissa exponent positive ∧
        size ≤ totalExponent mantissa exponent := by
  rcases x with sign | _ | _ | ⟨sign, mantissa, exponent, positive⟩
  · cases sign with
    | negative => exact hasSize.elim
    | positive => exact .inl rfl
  · exact hasSize.elim
  · exact hasSize.elim
  · cases sign with
    | negative => exact hasSize.elim
    | positive => exact .inr ⟨mantissa, exponent, positive, rfl, hasSize⟩

theorem HasSize.mono {smaller : Int} {x : UnpackedFloat} (hasSize : HasSize size x)
    (le : smaller ≤ size) : HasSize smaller x := by
  rcases hasSize.cases with rfl | ⟨_, _, _, rfl, reaches⟩
  · trivial
  · exact le.trans reaches

/-- Rounding gives a rounded number of the same size. -/
theorem hasSize_roundWithAccuracy (accuracy : Accuracy) (positive : 0 < mantissa)
    (fine : exponent ≤ Format.binary64.targetExponent (totalExponent mantissa exponent))
    (normal : -1073 ≤ size) (reaches : size ≤ totalExponent mantissa exponent) :
    let rounded := roundWithAccuracy Format.binary64 .positive mantissa exponent accuracy
    Rounded rounded ∧ HasSize size rounded := by
  obtain ⟨firstPositive, firstExponent, firstSize⟩ :=
    shiftToTargetExponent_size accuracy positive fine (normal.trans reaches)
  simp only [roundWithAccuracy]
  generalize shiftToTargetExponent Format.binary64 mantissa exponent accuracy = first at *
  have notBelow := mantissa_le_roundedMantissa first.1
  generalize first.1.roundedMantissa = carried at *
  have grows := log2_mono firstPositive notBelow
  have carriedSize : totalExponent mantissa exponent ≤ totalExponent carried first.2 := by
    rw [← firstSize, totalExponent, totalExponent]
    omega
  -- Rounding up may have made the mantissa one digit longer, so it is shifted once more.
  have carriedFine : first.2 ≤ Format.binary64.targetExponent (totalExponent carried first.2) := by
    rw [targetExponent_eq] at *
    omega
  obtain ⟨secondPositive, secondExponent, secondSize⟩ :=
    shiftToTargetExponent_size .exact (Nat.lt_of_lt_of_le firstPositive notBelow) carriedFine
      (normal.trans (reaches.trans carriedSize))
  rw [dif_neg (Nat.ne_of_gt secondPositive)]
  constructor
  · exact (congrArg Format.binary64.targetExponent secondSize).trans secondExponent.symm
  · rw [HasSize, secondSize]
    exact reaches.trans carriedSize

theorem hasSize_round (positive : 0 < mantissa) (normal : -1073 ≤ size)
    (reaches : size ≤ totalExponent mantissa exponent) :
    let rounded := UnpackedFloat.round Format.binary64 .positive mantissa exponent
    Rounded rounded ∧ HasSize size rounded := by
  simp only [UnpackedFloat.round, decreaseExponent, Nat.shiftLeft_eq]
  generalize lengthened : (exponent -
    Format.binary64.targetExponent (totalExponent mantissa exponent)).toNat = k
  have same := totalExponent_mul_pow positive exponent k
  apply hasSize_roundWithAccuracy .exact (Nat.mul_pos positive (Nat.two_pow_pos k)) _ normal
  · rw [same]
    exact reaches
  · rw [same]
    omega

theorem hasSize_unpack_pack {x : UnpackedFloat} (rounded : Rounded x) (hasSize : HasSize size x) :
    HasSize size (unpack Format.binary64 (pack Format.binary64 x)) := by
  rcases hasSize.cases with rfl | ⟨mantissa, exponent, positive, rfl, _⟩
  · exact (unpack_packedInfinity .positive).symm ▸ hasSize
  · rcases unpack_pack_finite rounded with same | overflow
    · exact same.symm ▸ hasSize
    · rw [overflow]
      trivial

/-- The quotient of two positive numbers has the size that their sizes leave. -/
theorem hasSize_div {first second : Nat} {firstExponent secondExponent : Int}
    (firstPositive : 0 < first) (secondPositive : 0 < second) (normal : -1021 ≤ size)
    (reaches : size ≤ totalExponent first firstExponent - totalExponent second secondExponent) :
    let quotient := UnpackedFloat.div Format.binary64
      (.finite .positive first firstExponent firstPositive)
      (.finite .positive second secondExponent secondPositive)
    Rounded quotient ∧ HasSize size quotient := by
  simp only [UnpackedFloat.div, divCore, Nat.shiftLeft_eq]
  generalize atTarget : min (firstExponent - secondExponent) (Format.binary64.targetExponent
    (totalExponent first firstExponent - totalExponent second secondExponent)) = exponent
  generalize lengthened : (firstExponent - secondExponent - exponent).toNat = k
  have leading := log2_mul_pow firstPositive k
  rw [targetExponent_eq] at atTarget
  rw [totalExponent, totalExponent] at atTarget reaches
  obtain ⟨quotientPositive, quotientLeading⟩ :=
    log2_div (a := first * 2 ^ k) secondPositive (by omega)
  have total : size ≤ totalExponent (first * 2 ^ k / second) exponent := by
    rw [totalExponent]
    omega
  apply hasSize_roundWithAccuracy _ quotientPositive _ (by omega) total
  rw [targetExponent_eq, totalExponent]
  omega

end Size

/-! ## Exact values -/

/-- A rounded number is rounded to itself when its mantissa is written with more
digits. -/
theorem roundWithAccuracy_exact {sign : Sign} {mantissa : Nat} {exponent : Int}
    {positive : 0 < mantissa} (rounded : Rounded (.finite sign mantissa exponent positive))
    (k : Nat) :
    roundWithAccuracy Format.binary64 sign (mantissa * 2 ^ k) (exponent - k) .exact =
      .finite sign mantissa exponent positive := by
  have target : Format.binary64.targetExponent (totalExponent mantissa exponent) = exponent :=
    rounded
  have size := totalExponent_mul_pow positive exponent k
  have first : shiftToTargetExponent Format.binary64 (mantissa * 2 ^ k) (exponent - k) .exact =
      (.ofMantissaAndAccuracy mantissa .exact, exponent) := by
    have dropped : (exponent - (exponent - k)).toNat = k := by omega
    have back : exponent - k + k = exponent := by omega
    simp only [shiftToTargetExponent, shiftToExponent, size, target, dropped, shiftRight_exact,
      back]
  have second : shiftToTargetExponent Format.binary64 mantissa exponent .exact =
      (.ofMantissaAndAccuracy mantissa .exact, exponent) := by
    have unshifted := shiftRight_exact mantissa 0
    rw [Nat.pow_zero, Nat.mul_one] at unshifted
    simp only [shiftToTargetExponent, shiftToExponent, target, Int.sub_self, Int.toNat_zero,
      unshifted, Int.natCast_zero, Int.add_zero]
  have kept : (ExtendedMantissa.ofMantissaAndAccuracy mantissa .exact).roundedMantissa =
      mantissa := rfl
  rw [roundWithAccuracy]
  simp only [first, kept, second, mantissa_ofMantissaAndAccuracy]
  rw [dif_neg (Nat.ne_of_gt positive)]

end MetricRates.Number
