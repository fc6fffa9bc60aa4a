import Mathlib.Data.List.Forall2
import MetricRates.Text.Utf8

/-!
# The bytes of a character

The bytes of a character are a lead byte and a tail that lies one by one in the
ranges after this lead byte, and their code point is that of the character.
Conversely such a sequence is the bytes of the character with its code point.  Both
are shown for each length of a sequence: the ranges after a lead byte leave out the
longer forms of smaller code points, the surrogates, and what is no code point.
-/

namespace MetricRates.Text

/-! ## The bytes of a code point -/

/-- The bytes of a code point. -/
def encodeCodePoint (n : Nat) : List UInt8 :=
  if n ≤ 0x7F then [UInt8.ofNat n]
  else if n ≤ 0x7FF then [UInt8.ofNat (n / 64 % 32 + 0xC0), UInt8.ofNat (n % 64 + 0x80)]
  else if n ≤ 0xFFFF then
    [UInt8.ofNat (n / 4096 % 16 + 0xE0), UInt8.ofNat (n / 64 % 64 + 0x80),
      UInt8.ofNat (n % 64 + 0x80)]
  else
    [UInt8.ofNat (n / 262144 % 8 + 0xF0), UInt8.ofNat (n / 4096 % 64 + 0x80),
      UInt8.ofNat (n / 64 % 64 + 0x80), UInt8.ofNat (n % 64 + 0x80)]

theorem utf8EncodeChar_eq_encodeCodePoint (c : Char) :
    String.utf8EncodeChar c = encodeCodePoint c.toNat :=
  rfl

theorem toNat_char_ofNat {n : Nat} (valid : n.isValidChar) : (Char.ofNat n).toNat = n := by
  rw [Char.ofNat, dif_pos valid]
  rfl

theorem toNat_ofNat_of_lt {n : Nat} (small : n < 256) : (UInt8.ofNat n).toNat = n := by
  rw [UInt8.toNat_ofNat', Nat.mod_eq_of_lt small]

theorem ofNat_eq_iff {n : Nat} {byte : UInt8} : UInt8.ofNat n = byte ↔ n % 256 = byte.toNat := by
  rw [← UInt8.toNat_inj, UInt8.toNat_ofNat']

/-! ## Sequences -/

/-- Bytes lie one by one in closed ranges. -/
def InRanges (ranges : List (UInt8 × UInt8)) (bytes : List UInt8) : Prop :=
  List.Forall₂ (fun range byte => range.1 ≤ byte ∧ byte ≤ range.2) ranges bytes

/-- A lead byte and the tail of one character. -/
def IsSequence (lead : UInt8) (tail : List UInt8) : Prop :=
  ∃ ranges, tailRanges lead = some ranges ∧ InRanges ranges tail

/-- A lead byte and a tail that stand for a code point. -/
structure Denotes (lead : UInt8) (tail : List UInt8) (n : Nat) : Prop where
  isSequence : IsSequence lead tail
  value : codePoint lead tail = n

/-! ## From code points to sequences -/

section Encoding

variable {n : Nat}

theorem denotes_one (small : n ≤ 0x7F) : Denotes (UInt8.ofNat n) [] n := by
  have value : (UInt8.ofNat n).toNat = n := toNat_ofNat_of_lt (by omega)
  refine ⟨⟨[], if_pos ?_, .nil⟩, value⟩
  simp only [UInt8.lt_iff_toNat_lt, value, UInt8.reduceToNat]
  omega

theorem denotes_two (large : 0x7F < n) (small : n ≤ 0x7FF) :
    Denotes (UInt8.ofNat (n / 64 % 32 + 0xC0)) [UInt8.ofNat (n % 64 + 0x80)] n := by
  have lead := toNat_ofNat_of_lt (n := n / 64 % 32 + 0xC0) (by omega)
  have last := toNat_ofNat_of_lt (n := n % 64 + 0x80) (by omega)
  refine ⟨⟨[(0x80, 0xBF)], ?_, ?_⟩, ?_⟩
  · simp (disch := omega) only [tailRanges, UInt8.lt_iff_toNat_lt, lead, UInt8.reduceToNat, if_neg,
      if_pos]
  · simp only [InRanges, List.forall₂_cons, UInt8.le_iff_toNat_le, last, UInt8.reduceToNat]
    exact ⟨by omega, .nil⟩
  · simp only [codePoint, List.length_singleton, List.foldl_cons, List.foldl_nil, lead, last]
    omega

theorem denotes_three (valid : n.isValidChar) (large : 0x7FF < n) (small : n ≤ 0xFFFF) :
    Denotes (UInt8.ofNat (n / 4096 % 16 + 0xE0))
      [UInt8.ofNat (n / 64 % 64 + 0x80), UInt8.ofNat (n % 64 + 0x80)] n := by
  have lead := toNat_ofNat_of_lt (n := n / 4096 % 16 + 0xE0) (by omega)
  have middle := toNat_ofNat_of_lt (n := n / 64 % 64 + 0x80) (by omega)
  have last := toNat_ofNat_of_lt (n := n % 64 + 0x80) (by omega)
  unfold Nat.isValidChar at valid
  constructor
  · simp only [IsSequence, tailRanges, UInt8.lt_iff_toNat_lt, ← UInt8.toNat_inj, lead,
      UInt8.reduceToNat]
    simp (disch := omega) only [if_neg]
    -- The first tail byte is bounded by `large` after 0xE0 and by `valid` after 0xED.
    split_ifs
    all_goals
      simp only [InRanges, Option.some.injEq, exists_eq_left', List.forall₂_cons,
        UInt8.le_iff_toNat_le, middle, last, UInt8.reduceToNat, List.Forall₂.nil, and_true]
      omega
  · simp only [codePoint, List.length_cons, List.length_nil, List.foldl_cons, List.foldl_nil,
      lead, middle, last]
    omega

theorem denotes_four (valid : n.isValidChar) (large : 0xFFFF < n) :
    Denotes (UInt8.ofNat (n / 262144 % 8 + 0xF0)) [UInt8.ofNat (n / 4096 % 64 + 0x80),
      UInt8.ofNat (n / 64 % 64 + 0x80), UInt8.ofNat (n % 64 + 0x80)] n := by
  have lead := toNat_ofNat_of_lt (n := n / 262144 % 8 + 0xF0) (by omega)
  have second := toNat_ofNat_of_lt (n := n / 4096 % 64 + 0x80) (by omega)
  have third := toNat_ofNat_of_lt (n := n / 64 % 64 + 0x80) (by omega)
  have last := toNat_ofNat_of_lt (n := n % 64 + 0x80) (by omega)
  unfold Nat.isValidChar at valid
  constructor
  · simp only [IsSequence, tailRanges, UInt8.lt_iff_toNat_lt, ← UInt8.toNat_inj, lead,
      UInt8.reduceToNat]
    simp (disch := omega) only [if_neg]
    -- The first tail byte is bounded by `large` after 0xF0 and by `valid` after 0xF4.
    split_ifs
    all_goals
      simp only [InRanges, Option.some.injEq, exists_eq_left', List.forall₂_cons,
        UInt8.le_iff_toNat_le, second, third, last, UInt8.reduceToNat, List.Forall₂.nil, and_true,
        false_and, exists_false]
      omega
  · simp only [codePoint, List.length_cons, List.length_nil, List.foldl_cons, List.foldl_nil,
      lead, second, third, last]
    omega

/-- The bytes of a code point are a sequence that stands for it. -/
theorem exists_denotes_encodeCodePoint (valid : n.isValidChar) :
    ∃ lead tail, encodeCodePoint n = lead :: tail ∧ Denotes lead tail n := by
  unfold encodeCodePoint
  split_ifs with one two three
  · exact ⟨_, _, rfl, denotes_one one⟩
  · exact ⟨_, _, rfl, denotes_two (by omega) two⟩
  · exact ⟨_, _, rfl, denotes_three valid (by omega) three⟩
  · exact ⟨_, _, rfl, denotes_four valid (by omega)⟩

end Encoding

/-! ## From sequences to code points -/

section Decoding

variable {lead second third last : UInt8}

/-- A byte that may stand in a tail. -/
def IsTail (byte : UInt8) : Prop := 0x80 ≤ byte.toNat ∧ byte.toNat ≤ 0xBF

theorem codePoint_two (low : 0xC2 ≤ lead.toNat) (high : lead.toNat < 0xE0) (tail : IsTail last) :
    (codePoint lead [last]).isValidChar ∧
      encodeCodePoint (codePoint lead [last]) = [lead, last] := by
  unfold IsTail at tail
  simp only [codePoint, List.length_cons, List.length_nil, List.foldl_cons, List.foldl_nil]
  refine ⟨.inl (by omega), ?_⟩
  rw [encodeCodePoint, if_neg (by omega), if_pos (by omega)]
  simp only [List.cons.injEq, ofNat_eq_iff, and_true]
  omega

theorem codePoint_three (low : 0xE0 ≤ lead.toNat) (high : lead.toNat < 0xF0)
    (tail : IsTail second ∧ IsTail last)
    (smallest : lead.toNat = 0xE0 → 0xA0 ≤ second.toNat)
    (surrogate : lead.toNat = 0xED → second.toNat ≤ 0x9F) :
    (codePoint lead [second, last]).isValidChar ∧
      encodeCodePoint (codePoint lead [second, last]) = [lead, second, last] := by
  unfold IsTail at tail
  simp only [codePoint, List.length_cons, List.length_nil, List.foldl_cons, List.foldl_nil]
  refine ⟨by unfold Nat.isValidChar; omega, ?_⟩
  rw [encodeCodePoint, if_neg (by omega), if_neg (by omega), if_pos (by omega)]
  simp only [List.cons.injEq, ofNat_eq_iff, and_true]
  omega

theorem codePoint_four (low : 0xF0 ≤ lead.toNat) (high : lead.toNat < 0xF5)
    (tail : IsTail second ∧ IsTail third ∧ IsTail last)
    (smallest : lead.toNat = 0xF0 → 0x90 ≤ second.toNat)
    (greatest : lead.toNat = 0xF4 → second.toNat ≤ 0x8F) :
    (codePoint lead [second, third, last]).isValidChar ∧
      encodeCodePoint (codePoint lead [second, third, last]) = [lead, second, third, last] := by
  unfold IsTail at tail
  simp only [codePoint, List.length_cons, List.length_nil, List.foldl_cons, List.foldl_nil]
  refine ⟨by unfold Nat.isValidChar; omega, ?_⟩
  rw [encodeCodePoint, if_neg (by omega), if_neg (by omega), if_neg (by omega)]
  simp only [List.cons.injEq, ofNat_eq_iff, and_true]
  omega

end Decoding

/-- A sequence is the bytes of its code point. -/
theorem encodeCodePoint_codePoint {lead : UInt8} {tail : List UInt8}
    (isSequence : IsSequence lead tail) :
    (codePoint lead tail).isValidChar ∧ encodeCodePoint (codePoint lead tail) = lead :: tail := by
  obtain ⟨ranges, follows, inRanges⟩ := isSequence
  unfold tailRanges at follows
  simp only [UInt8.lt_iff_toNat_lt, ← UInt8.toNat_inj, UInt8.reduceToNat] at follows
  unfold InRanges at inRanges
  split_ifs at follows
  all_goals
    cases follows
    simp only [List.forall₂_cons_left_iff, List.forall₂_nil_left_iff, UInt8.le_iff_toNat_le,
      UInt8.reduceToNat] at inRanges
  · subst inRanges
    change lead.toNat.isValidChar ∧ encodeCodePoint lead.toNat = [lead]
    rw [encodeCodePoint, if_pos (by omega), UInt8.ofNat_toNat]
    exact ⟨.inl (by omega), rfl⟩
  · obtain ⟨last, _, bounds, rfl, rfl⟩ := inRanges
    exact codePoint_two (by omega) (by omega) bounds
  -- The first tail byte has ranges of its own after 0xE0 and 0xED, and after 0xF0 and 0xF4.
  iterate 3
    obtain ⟨second, _, bounds, ⟨last, _, boundsToo, rfl, rfl⟩, rfl⟩ := inRanges
    exact codePoint_three (by omega) (by omega) (by unfold IsTail; omega) (by omega) (by omega)
  iterate 3
    obtain ⟨second, _, bounds, ⟨third, _, boundsToo, ⟨last, _, boundsThree, rfl, rfl⟩, rfl⟩, rfl⟩ :=
      inRanges
    exact codePoint_four (by omega) (by omega) (by unfold IsTail; omega) (by omega) (by omega)

/-! ## Characters -/

/-- The bytes of a character are a sequence that stands for its code point. -/
theorem exists_denotes_utf8EncodeChar (c : Char) :
    ∃ lead tail, String.utf8EncodeChar c = lead :: tail ∧ Denotes lead tail c.toNat := by
  rw [utf8EncodeChar_eq_encodeCodePoint]
  exact exists_denotes_encodeCodePoint c.valid

/-- A sequence is the bytes of the character with its code point. -/
theorem utf8EncodeChar_codePoint {lead : UInt8} {tail : List UInt8}
    (isSequence : IsSequence lead tail) :
    String.utf8EncodeChar (Char.ofNat (codePoint lead tail)) = lead :: tail := by
  obtain ⟨valid, encoded⟩ := encodeCodePoint_codePoint isSequence
  rw [utf8EncodeChar_eq_encodeCodePoint, toNat_char_ofNat valid, encoded]

end MetricRates.Text
