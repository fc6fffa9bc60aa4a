import Mathlib

/-!
# Packed numbers

The 64 bits of a floating point number are a sign, an exponent and a fraction.
Unpacking gives every finite number the exponent that belongs to its size.  A
number that was rounded keeps its value when it is packed, unless it is too large
for its exponent field and becomes an infinity of the same sign.
-/

namespace MetricRates.Number

open Float.Model (Format totalExponent UnpackedFloat)
open Float.Model.UnpackedFloat

/-! ## Fields -/

section Unpack

variable (sign : Sign) (biased : BitVec 11) (fraction : BitVec 52)

theorem toNat_append_one : (1#1 ++ fraction).toNat = 2 ^ 52 + fraction.toNat := by
  rw [BitVec.toNat_append, ← Nat.shiftLeft_add_eq_or_of_lt fraction.isLt]
  rfl

theorem append_one_positive : 0 < (1#1 ++ fraction).toNat := by
  rw [toNat_append_one]
  exact Nat.add_pos_left (by decide) _

theorem log2_append_one : (1#1 ++ fraction).toNat.log2 = 52 := by
  have small := fraction.isLt
  rw [toNat_append_one, Nat.log2_eq_iff (by omega)]
  omega

theorem unpack_normal (finite : biased ≠ -1#11) (normal : biased ≠ 0#11) :
    unpack Format.binary64 (packComponents Format.binary64 sign biased fraction) =
      .finite sign (1#1 ++ fraction).toNat ((biased.toNat : Int) - 1075)
        (append_one_positive fraction) := by
  simp only [unpack, unpackExponent_packComponents, unpackMantissa_packComponents,
    unpackSign_packComponents, Sign.ofBitVec_toBitVec, if_neg finite, if_neg normal]
  rfl

theorem unpack_subnormal (positive : 0 < fraction.toNat) :
    unpack Format.binary64 (packComponents Format.binary64 sign 0#11 fraction) =
      .finite sign fraction.toNat (-1074) positive := by
  have nonzero : fraction ≠ 0#52 := by
    rintro rfl
    exact absurd positive (by decide)
  simp only [unpack, unpackExponent_packComponents, unpackMantissa_packComponents,
    unpackSign_packComponents, Sign.ofBitVec_toBitVec, dif_neg nonzero]
  rfl

@[simp]
theorem unpack_packedInfinity :
    unpack Format.binary64 (packedInfinity Format.binary64 sign) = .infinity sign := by
  cases sign <;> rfl

end Unpack

section Pack

variable {sign : Sign} {mantissa : Nat} {exponent : Int} {positive : 0 < mantissa}

theorem pack_huge (huge : 972 ≤ exponent) :
    pack Format.binary64 (.finite sign mantissa exponent positive) =
      packedInfinity Format.binary64 sign := by
  have beyond : 2048 ≤ (exponent + 1023 + 52).toNat + 1 := by omega
  exact if_pos beyond

theorem pack_normal (full : mantissa.log2 = 52) (bounded : exponent < 972) :
    pack Format.binary64 (.finite sign mantissa exponent positive) =
      packComponents Format.binary64 sign (BitVec.ofNat 11 (exponent + 1023 + 52).toNat)
        (BitVec.ofNat 52 mantissa) := by
  have within : ¬ 2048 ≤ (exponent + 1023 + 52).toNat + 1 := by omega
  have implicit : mantissa.log2 + 1 = 53 := by omega
  exact (if_neg within).trans (if_pos implicit)

theorem pack_subnormal (small : mantissa.log2 < 52) :
    pack Format.binary64 (.finite sign mantissa (-1074) positive) =
      packComponents Format.binary64 sign 0#11 (BitVec.ofNat 52 mantissa) := by
  have implicit : ¬ mantissa.log2 + 1 = 53 := by omega
  rw [pack]
  exact (if_neg (by decide)).trans (if_neg implicit)

end Pack

/-! ## Rounded numbers -/

theorem targetExponent_eq (total : Int) :
    Format.binary64.targetExponent total = max (total - 53) (-1074) := rfl

/-- A number is rounded when it has the exponent that the format gives to finite
numbers of its size. -/
def Rounded : UnpackedFloat → Prop
  | .finite _ mantissa exponent _ =>
      Format.binary64.targetExponent (totalExponent mantissa exponent) = exponent
  | _ => True

section Rounded

variable {sign : Sign} {mantissa : Nat} {exponent : Int} {positive : 0 < mantissa}

theorem rounded_finite_iff :
    Rounded (.finite sign mantissa exponent positive) ↔
      mantissa.log2 = 52 ∧ -1074 ≤ exponent ∨ mantissa.log2 < 52 ∧ exponent = -1074 := by
  simp only [Rounded, targetExponent_eq, totalExponent]
  omega

theorem unpack_pack_normal (full : mantissa.log2 = 52) (least : -1074 ≤ exponent)
    (bounded : exponent < 972) :
    unpack Format.binary64 (pack Format.binary64 (.finite sign mantissa exponent positive)) =
      .finite sign mantissa exponent positive := by
  have bounds := (Nat.log2_eq_iff (Nat.ne_of_gt positive)).mp full
  have biased : (BitVec.ofNat 11 (exponent + 1023 + 52).toNat).toNat =
      (exponent + 1075).toNat := by
    rw [BitVec.toNat_ofNat]
    omega
  have fraction : (1#1 ++ BitVec.ofNat 52 mantissa).toNat = mantissa := by
    rw [toNat_append_one, BitVec.toNat_ofNat]
    omega
  have differs {field : BitVec 11} (other : field.toNat ≠ (exponent + 1075).toNat) :
      BitVec.ofNat 11 (exponent + 1023 + 52).toNat ≠ field := by
    rintro rfl
    exact other biased
  have notSpecial : (exponent + 1075).toNat ≠ 2047 := by omega
  have notSmall : (exponent + 1075).toNat ≠ 0 := by omega
  rw [pack_normal full bounded,
    unpack_normal _ _ _ (differs notSpecial.symm) (differs notSmall.symm)]
  simp only [biased, fraction]
  congr 1
  omega

theorem unpack_pack_subnormal (small : mantissa.log2 < 52) :
    unpack Format.binary64 (pack Format.binary64 (.finite sign mantissa (-1074) positive)) =
      .finite sign mantissa (-1074) positive := by
  have bound : mantissa < 2 ^ 52 := (Nat.log2_lt (Nat.ne_of_gt positive)).mp small
  have fraction : (BitVec.ofNat 52 mantissa).toNat = mantissa := by
    rw [BitVec.toNat_ofNat, Nat.mod_eq_of_lt bound]
  rw [pack_subnormal small, unpack_subnormal _ _ (by rw [fraction]; exact positive)]
  simp only [fraction]

/-- A rounded number keeps its value when it is packed, or becomes infinite. -/
theorem unpack_pack_finite (rounded : Rounded (.finite sign mantissa exponent positive)) :
    unpack Format.binary64 (pack Format.binary64 (.finite sign mantissa exponent positive)) =
        .finite sign mantissa exponent positive ∨
      unpack Format.binary64 (pack Format.binary64 (.finite sign mantissa exponent positive)) =
        .infinity sign := by
  rcases rounded_finite_iff.mp rounded with ⟨full, least⟩ | ⟨small, rfl⟩
  · by_cases huge : 972 ≤ exponent
    · right
      rw [pack_huge huge, unpack_packedInfinity]
    · left
      exact unpack_pack_normal full least (by omega)
  · left
    exact unpack_pack_subnormal small

end Rounded

/-! ## Unpacked numbers -/

/-- Bits are unpacked to a rounded number. -/
theorem rounded_unpack_bits (bits : BitVec Format.binary64.numBits) :
    Rounded (unpack Format.binary64 bits) := by
  rw [← packComponents_unpackSign_unpackExponent_unpackMantissa bits]
  generalize Sign.ofBitVec (unpackSign bits) = sign
  generalize (unpackExponent bits : BitVec 11) = biased
  generalize (unpackMantissa bits : BitVec 52) = fraction
  by_cases special : biased = -1#11
  · subst special
    by_cases infinite : fraction = 0#52
    · subst infinite
      cases sign <;> exact trivial
    · have invalid : unpack Format.binary64 (packComponents Format.binary64 sign (-1#11) fraction) =
          .notANumber := by
        simp only [unpack, unpackExponent_packComponents, unpackMantissa_packComponents, if_true,
          if_neg infinite]
      rw [invalid]
      trivial
  · by_cases small : biased = 0#11
    · subst small
      by_cases zero : fraction = 0#52
      · subst zero
        cases sign <;> exact trivial
      · have positive : 0 < fraction.toNat :=
          Nat.pos_of_ne_zero fun same => zero (BitVec.eq_of_toNat_eq same)
        have short : fraction.toNat.log2 < 52 :=
          (Nat.log2_lt (Nat.ne_of_gt positive)).mpr fraction.isLt
        rw [unpack_subnormal sign fraction positive]
        exact rounded_finite_iff.mpr (.inr ⟨short, rfl⟩)
    · have notZero : biased.toNat ≠ 0 := fun same => small (BitVec.eq_of_toNat_eq same)
      rw [unpack_normal sign biased fraction special small]
      exact rounded_finite_iff.mpr (.inl ⟨log2_append_one fraction, by omega⟩)

theorem rounded_unpack (x : Float.Model) : Rounded x.unpack :=
  rounded_unpack_bits _

theorem pack_unpack_model (x : Float.Model) : Float.Model.pack x.unpack = x := by
  obtain ⟨bits, valid⟩ := x
  simp only [Float.Model.pack, Float.Model.unpack, pack_unpack_of_valid valid]

end MetricRates.Number
