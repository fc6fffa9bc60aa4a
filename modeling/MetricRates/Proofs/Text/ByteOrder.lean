/-!
# The order of texts is the order of their bytes

Texts are ordered by their characters.  UTF-8 keeps this order: where two texts
first differ, the bytes of the smaller character come before those of the
greater one.
-/

namespace MetricRates.Text

theorem ofNat_lt_ofNat_iff {a b : Nat} (first : a < 256) (second : b < 256) :
    UInt8.ofNat a < UInt8.ofNat b ↔ a < b := by
  rw [UInt8.lt_iff_toNat_lt, UInt8.toNat_ofNat', UInt8.toNat_ofNat', Nat.mod_eq_of_lt first,
    Nat.mod_eq_of_lt second]

theorem ofNat_eq_ofNat_iff {a b : Nat} (first : a < 256) (second : b < 256) :
    UInt8.ofNat a = UInt8.ofNat b ↔ a = b := by
  rw [← UInt8.toNat_inj, UInt8.toNat_ofNat', UInt8.toNat_ofNat', Nat.mod_eq_of_lt first,
    Nat.mod_eq_of_lt second]

theorem toNat_val_lt (c : Char) : c.val.toNat < 0x110000 := by
  rcases c.valid with low | high
  · have below : c.val.toNat < 0xd800 := low
    omega
  · exact high.2

/-- Whatever follows, the bytes of a smaller character come first. -/
theorem utf8EncodeChar_append_lt {c d : Char} (less : c < d) (first second : List UInt8) :
    String.utf8EncodeChar c ++ first < String.utf8EncodeChar d ++ second := by
  have less : c.val.toNat < d.val.toNat := less
  have bound := toNat_val_lt d
  -- The bytes of a character hold its digits in base 64, the leading one first.
  have middle (v : Nat) : v / 4096 = v / 64 / 64 := (Nat.div_div_eq_div_mul v 64 64).symm
  have leading (v : Nat) : v / 262144 = v / 4096 / 64 :=
    (Nat.div_div_eq_div_mul v 4096 64).symm
  have short {v : Nat} (small : v < 0x110000) : v / 262144 % 8 = v / 262144 :=
    Nat.mod_eq_of_lt (by omega)
  have digits := And.intro (middle c.val.toNat) (middle d.val.toNat)
  have leadings := And.intro (leading c.val.toNat) (leading d.val.toNat)
  have shorts := And.intro (short (Nat.lt_trans less bound)) (short bound)
  unfold String.utf8EncodeChar
  dsimp only
  repeat' split
  all_goals
    simp (disch := omega) only [List.cons_append, List.nil_append, List.cons_lt_cons_iff,
      ofNat_lt_ofNat_iff, ofNat_eq_ofNat_iff]
    omega

theorem flatMap_utf8EncodeChar_lt {first second : List Char} (less : first < second) :
    first.flatMap String.utf8EncodeChar < second.flatMap String.utf8EncodeChar := by
  induction less with
  | nil =>
      rename_i c rest
      rw [List.flatMap_nil, List.flatMap_cons]
      obtain ⟨byte, bytes, written⟩ :=
        List.exists_cons_of_ne_nil (String.utf8EncodeChar_ne_nil (c := c))
      rw [written]
      exact List.nil_lt_cons _ _
  | rel differs => exact utf8EncodeChar_append_lt differs _ _
  | cons _ ih => exact List.append_left_lt ih

theorem toList_toUTF8 (text : String) :
    text.toUTF8.data.toList = text.toList.flatMap String.utf8EncodeChar := by
  rw [String.toUTF8_eq_toByteArray, ← String.utf8Encode_toList, List.utf8Encode,
    List.toList_data_toByteArray]

/-- The bytes of a text come before those of another one. -/
def ByteLess (first second : String) : Prop :=
  first.toUTF8.data.toList < second.toUTF8.data.toList

theorem byteLess_of_lt {first second : String} (less : first < second) :
    ByteLess first second := by
  rw [ByteLess, toList_toUTF8, toList_toUTF8]
  exact flatMap_utf8EncodeChar_lt less

/-- A text comes before another one exactly when its bytes do. -/
theorem lt_iff_byteLess {first second : String} : first < second ↔ ByteLess first second := by
  refine ⟨byteLess_of_lt, fun less => Decidable.byContradiction fun notLess => ?_⟩
  by_cases same : first = second
  · subst same
    exact List.lt_irrefl _ less
  · have greater : second < first :=
      String.not_le.mp fun le => same (String.le_antisymm le (String.not_lt.mp notLess))
    exact List.lt_asymm less (byteLess_of_lt greater)

end MetricRates.Text
