import MetricRates.Number.Decimal
import MetricRates.Proofs.Number.Quotient

/-!
# Numbers that are too large

A whole number of at least `2 ^ 63` is not below `9.2e18` when it is read as a floating
point number, with either sign: rounding keeps the leading digit, and so do negation and
the absolute value.
-/

namespace MetricRates.Number

open Float.Model (Format totalExponent UnpackedFloat)
open Float.Model.UnpackedFloat

/-! ## Signs -/

theorem Rounded.abs {x : UnpackedFloat} (rounded : Rounded x) : Rounded x.abs := by
  cases x <;> exact rounded

/-- A number without its sign has the size of its magnitude. -/
theorem hasSize_abs {size : Int} {x : Float} (hasSize : HasSize size x.toModel.unpack.abs) :
    HasSize size x.abs.toModel.unpack :=
  hasSize_unpack_pack (rounded_unpack x.toModel).abs hasSize

theorem HasSize.abs {size : Int} {x : UnpackedFloat} (hasSize : HasSize size x) :
    HasSize size x.abs := by
  rcases hasSize.cases with rfl | ⟨_, _, _, rfl, reaches⟩
  · trivial
  · exact reaches

/-- Negation keeps the magnitude of a number. -/
theorem hasSize_abs_neg {size : Int} {x : Float} (hasSize : HasSize size x.toModel.unpack) :
    HasSize size (-x).toModel.unpack.abs := by
  have rounded := rounded_unpack x.toModel
  change HasSize size (unpack Format.binary64 (pack Format.binary64 x.toModel.unpack.neg)).abs
  rcases hasSize.cases with infinite | ⟨mantissa, exponent, positive, finite, reaches⟩
  · rw [infinite]
    trivial
  · rw [finite] at rounded ⊢
    have negated : Rounded (.finite .negative mantissa exponent positive) := rounded
    change HasSize size (unpack Format.binary64 (pack Format.binary64
      (.finite .negative mantissa exponent positive))).abs
    rcases unpack_pack_finite negated with same | overflow
    · rw [same]
      exact reaches
    · rw [overflow]
      trivial

/-! ## The bound -/

theorem unpack_bound : (9.2e18 : Float).toModel.unpack =
    .finite .positive 8984375000000000 10 (by decide) := by
  rfl

/-- A number with a leading digit worth `2 ^ 63` has a larger exponent than the bound. -/
theorem not_lt_bound_of_hasSize {x : Float} (hasSize : HasSize 64 x.toModel.unpack) :
    ¬ x < 9.2e18 := by
  intro lt
  have lt : x.toModel.unpack.lt (9.2e18 : Float).toModel.unpack = true := of_decide_eq_true lt
  have rounded := rounded_unpack x.toModel
  rw [unpack_bound] at lt
  rcases hasSize.cases with infinite | ⟨mantissa, exponent, positive, finite, reaches⟩
  · simp [infinite, UnpackedFloat.lt, UnpackedFloat.compare] at lt
  · rw [finite, rounded_finite_iff] at rounded
    rw [totalExponent] at reaches
    have larger : compare exponent 10 = .gt := Int.compare_eq_gt.mpr (by omega)
    simp [finite, UnpackedFloat.lt, UnpackedFloat.compare, larger] at lt

/-! ## Whole numbers past the bound -/

theorem hasSize_toFloat {n : Nat} (large : 2 ^ 63 ≤ n) :
    HasSize 64 (Decimal.toFloat ⟨false, n, 0⟩).toModel.unpack := by
  have nonzero : n ≠ 0 := by omega
  have leading : 63 ≤ n.log2 := (Nat.le_log2 nonzero).mpr large
  have notTiny : ¬ Decimal.magnitude ⟨false, n, 0⟩ < -400 := by
    simp only [Decimal.magnitude]
    omega
  rw [Decimal.toFloat, if_neg Bool.false_ne_true, if_neg nonzero, if_neg notTiny]
  split
  · trivial
  · change HasSize 64 (Float.ofNat n).toModel.unpack
    exact (hasSize_ofNat (Nat.pos_of_ne_zero nonzero)).mono (by omega)

/-- A whole number of at least `2 ^ 63` is read as one that is not below the bound. -/
theorem not_abs_toFloat_lt_bound {n : Nat} (large : 2 ^ 63 ≤ n) (negative : Bool) :
    ¬ (Decimal.toFloat ⟨negative, n, 0⟩).abs < 9.2e18 := by
  apply not_lt_bound_of_hasSize
  apply hasSize_abs
  cases negative with
  | false => exact (hasSize_toFloat large).abs
  | true => exact hasSize_abs_neg (hasSize_toFloat large)

end MetricRates.Number
