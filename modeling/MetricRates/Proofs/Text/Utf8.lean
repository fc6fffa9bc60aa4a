import MetricRates.Proofs.Text.Sequence

/-!
# Strict and lossy reading

Strict reading accepts exactly the bytes of texts.  Lossy reading gives a text for
all bytes; it holds a replacement character for each ill-formed part.  A newline
byte stands in no longer sequence, so the bytes before it are read in the same way
with and without it.
-/

namespace MetricRates.Text

variable {lead : UInt8} {tail rest bytes : List UInt8}

/-! ## The first chunk -/

theorem matchTail_append {ranges : List (UInt8 × UInt8)} (inRanges : InRanges ranges tail)
    (after : List UInt8) : matchTail ranges (tail ++ after) = tail := by
  induction inRanges with
  | nil => simp [matchTail]
  | cons inRange _ ih => simp [matchTail, inRange, ih]

theorem inRanges_matchTail {ranges : List (UInt8 × UInt8)}
    (full : (matchTail ranges bytes).length = ranges.length) :
    InRanges ranges (matchTail ranges bytes) := by
  fun_induction matchTail ranges bytes with
  | case1 low high ranges byte bytes inRange ih =>
      simp only [Bool.and_eq_true, decide_eq_true_eq] at inRange
      exact .cons inRange (ih (by simpa using full))
  | case2 => simp at full
  | case3 ranges bytes =>
      cases ranges with
      | nil => exact .nil
      | cons => simp at full

/-- What follows the ranges comes first. -/
theorem matchTail_isPrefix (ranges : List (UInt8 × UInt8)) (bytes : List UInt8) :
    matchTail ranges bytes <+: bytes := by
  fun_induction matchTail ranges bytes with
  | case1 low high ranges byte bytes inRange ih => exact List.cons_prefix_cons.mpr ⟨rfl, ih⟩
  | case2 => exact List.nil_prefix
  | case3 => exact List.nil_prefix

/-- A sequence is read as a character, whatever follows. -/
theorem firstChunk_append (isSequence : IsSequence lead tail) (after : List UInt8) :
    firstChunk lead (tail ++ after) =
      .char (Char.ofNat (codePoint lead tail)) (1 + tail.length) := by
  obtain ⟨ranges, follows, inRanges⟩ := isSequence
  have full : tail.length = ranges.length := (List.Forall₂.length_eq inRanges).symm
  simp [firstChunk, follows, matchTail_append inRanges, full]

/-- A character is read from its bytes only. -/
theorem firstChunk_eq_char {c : Char} {size : Nat} (read : firstChunk lead rest = .char c size) :
    ∃ tail after, rest = tail ++ after ∧ size = 1 + tail.length ∧
      String.utf8EncodeChar c = lead :: tail := by
  unfold firstChunk at read
  split at read
  · cases read
  · rename_i ranges follows
    dsimp only at read
    split_ifs at read with full
    obtain ⟨after, split⟩ := matchTail_isPrefix ranges rest
    cases read
    have isSequence : IsSequence lead (matchTail ranges rest) :=
      ⟨ranges, follows, inRanges_matchTail full⟩
    exact ⟨_, after, split.symm, rfl, utf8EncodeChar_codePoint isSequence⟩

/-! ## Strict reading -/

theorem chunks_cons (lead : UInt8) (rest : List UInt8) :
    chunks (lead :: rest) =
      firstChunk lead rest :: chunks (rest.drop ((firstChunk lead rest).size - 1)) := by
  rw [chunks]

/-- The bytes of a character are one chunk. -/
theorem chunks_utf8EncodeChar_append (c : Char) (rest : List UInt8) :
    chunks (String.utf8EncodeChar c ++ rest) =
      .char c (String.utf8EncodeChar c).length :: chunks rest := by
  obtain ⟨lead, tail, encoded, denotes⟩ := exists_denotes_utf8EncodeChar c
  have read := firstChunk_append denotes.isSequence rest
  rw [denotes.value, Char.ofNat_toNat] at read
  rw [encoded, List.cons_append, chunks_cons, read]
  simp [Chunk.size, Nat.add_comm]

theorem eq_flatMap_of_wellFormedChars (bytes : List UInt8) :
    ∀ cs, wellFormedChars (chunks bytes) = some cs →
      bytes = cs.flatMap String.utf8EncodeChar := by
  fun_induction chunks bytes with
  | case1 =>
      intro cs read
      cases read
      rfl
  | case2 lead rest chunk ih =>
      intro cs read
      cases first : chunk with
      | illFormed size => simp [first, wellFormedChars] at read
      | char c size =>
          obtain ⟨tail, after, rfl, rfl, encoded⟩ := firstChunk_eq_char first
          rw [first] at read ih
          rw [Chunk.size, Nat.add_sub_cancel_left, List.drop_left] at read ih
          obtain ⟨later, readLater, rfl⟩ := Option.map_eq_some_iff.mp read
          rw [List.flatMap_cons, encoded, ← ih later readLater, List.cons_append]

/-- Strict reading accepts exactly the bytes of texts. -/
theorem decodeUtf8?_eq_some_iff {cs : List Char} :
    decodeUtf8? bytes = some cs ↔ bytes = cs.flatMap String.utf8EncodeChar := by
  refine ⟨eq_flatMap_of_wellFormedChars bytes cs, ?_⟩
  rintro rfl
  induction cs with
  | nil => simp
  | cons c cs ih =>
      rw [decodeUtf8?] at ih ⊢
      rw [List.flatMap_cons, chunks_utf8EncodeChar_append, wellFormedChars, ih]
      rfl

/-- Bytes are those of a text. -/
def WellFormed (bytes : List UInt8) : Prop :=
  ∃ cs : List Char, bytes = cs.flatMap String.utf8EncodeChar

theorem wellFormed_iff_isSome : WellFormed bytes ↔ (decodeUtf8? bytes).isSome := by
  simp only [WellFormed, Option.isSome_iff_exists, decodeUtf8?_eq_some_iff]

instance : DecidablePred WellFormed := fun _ => decidable_of_iff _ wellFormed_iff_isSome.symm

/-- Strict reading fails exactly on the bytes of no text. -/
theorem decodeUtf8?_eq_none_iff : decodeUtf8? bytes = none ↔ ¬ WellFormed bytes := by
  rw [wellFormed_iff_isSome, Option.not_isSome_iff_eq_none]

/-! ## Lossy reading -/

@[simp]
theorem decodeUtf8Lossy_nil : decodeUtf8Lossy [] = [] := by
  simp [decodeUtf8Lossy]

theorem decodeUtf8Lossy_ne_nil (nonempty : bytes ≠ []) : decodeUtf8Lossy bytes ≠ [] := by
  obtain ⟨lead, rest, rfl⟩ := List.exists_cons_of_ne_nil nonempty
  simp [decodeUtf8Lossy, chunks_cons]

/-- Where strict reading fails, lossy reading leaves a replacement character. -/
theorem replacement_mem_decodeUtf8Lossy (failed : decodeUtf8? bytes = none) :
    '\uFFFD' ∈ decodeUtf8Lossy bytes := by
  unfold decodeUtf8? at failed
  unfold decodeUtf8Lossy
  generalize chunks bytes = pieces at failed
  induction pieces with
  | nil => simp [wellFormedChars] at failed
  | cons chunk later ih =>
      cases chunk with
      | char c size => exact List.mem_cons_of_mem _ (ih (by simpa [wellFormedChars] using failed))
      | illFormed size => exact List.mem_cons_self

/-! ## Newlines -/

theorem newline_lt_of_mem_tailRanges {ranges : List (UInt8 × UInt8)}
    (follows : tailRanges lead = some ranges) : ∀ range ∈ ranges, 0x0A < range.1 := by
  unfold tailRanges at follows
  split_ifs at follows <;> cases follows <;> simp

theorem matchTail_append_newline {ranges : List (UInt8 × UInt8)}
    (above : ∀ range ∈ ranges, 0x0A < range.1) (bytes rest : List UInt8) :
    matchTail ranges (bytes ++ 0x0A :: rest) = matchTail ranges bytes := by
  fun_induction matchTail ranges bytes with
  | case1 low high ranges byte bytes inRange ih =>
      rw [List.cons_append, matchTail, if_pos inRange,
        ih fun range member => above range (List.mem_cons_of_mem _ member)]
  | case2 low high ranges byte bytes outside => rw [List.cons_append, matchTail, if_neg outside]
  | case3 ranges bytes short =>
      cases ranges with
      | nil => rw [matchTail]; simp
      | cons range ranges =>
          cases bytes with
          | cons byte bytes => exact absurd rfl (short _ _ _ _ _ rfl)
          | nil =>
              have below : ¬ range.1 ≤ 0x0A := UInt8.not_le.mpr (above range List.mem_cons_self)
              rw [List.nil_append, matchTail, if_neg (by simp [below])]

/-- What follows a newline does not change the chunk before it. -/
theorem firstChunk_append_newline (lead : UInt8) (bytes rest : List UInt8) :
    firstChunk lead (bytes ++ 0x0A :: rest) = firstChunk lead bytes := by
  unfold firstChunk
  cases follows : tailRanges lead with
  | none => rfl
  | some ranges =>
      dsimp only
      rw [matchTail_append_newline (newline_lt_of_mem_tailRanges follows)]

/-- The first chunk takes the lead byte and none beyond the end. -/
theorem firstChunk_size_le (lead : UInt8) (rest : List UInt8) :
    (firstChunk lead rest).size - 1 ≤ rest.length := by
  unfold firstChunk
  cases tailRanges lead with
  | none => simp [Chunk.size]
  | some ranges =>
      have shorter := (matchTail_isPrefix ranges rest).length_le
      dsimp only
      split_ifs <;> simpa [Chunk.size] using shorter

theorem chunks_newline_cons (rest : List UInt8) :
    chunks (0x0A :: rest) = .char '\n' 1 :: chunks rest :=
  chunks_utf8EncodeChar_append '\n' rest

/-- The chunks before a newline are those of the bytes before it. -/
theorem chunks_append_newline (bytes rest : List UInt8) :
    chunks (bytes ++ 0x0A :: rest) = chunks bytes ++ .char '\n' 1 :: chunks rest := by
  fun_induction chunks bytes with
  | case1 => exact chunks_newline_cons rest
  | case2 lead bytes chunk ih =>
      have within : chunk.size - 1 ≤ bytes.length := firstChunk_size_le lead bytes
      rw [List.cons_append, chunks_cons, firstChunk_append_newline,
        List.drop_append_of_le_length within, ih, List.cons_append]

theorem wellFormedChars_append (first second : List Chunk) :
    wellFormedChars (first ++ second) =
      (wellFormedChars first).bind fun cs => (wellFormedChars second).map (cs ++ ·) := by
  induction first with
  | nil => simp [wellFormedChars]
  | cons chunk first ih =>
      cases chunk with
      | illFormed size => rfl
      | char c size =>
          rw [List.cons_append, wellFormedChars, wellFormedChars, ih]
          cases wellFormedChars first <;> cases wellFormedChars second <;> rfl

/-- A newline at the end is read as one. -/
theorem decodeUtf8?_append_newline (bytes : List UInt8) :
    decodeUtf8? (bytes ++ [0x0A]) = (decodeUtf8? bytes).map (· ++ ['\n']) := by
  rw [decodeUtf8?, decodeUtf8?, chunks_append_newline, wellFormedChars_append, chunks_nil]
  cases wellFormedChars (chunks bytes) <;> rfl

theorem decodeUtf8Lossy_append_newline (bytes rest : List UInt8) :
    decodeUtf8Lossy (bytes ++ 0x0A :: rest) =
      decodeUtf8Lossy bytes ++ '\n' :: decodeUtf8Lossy rest := by
  simp [decodeUtf8Lossy, chunks_append_newline]

/-- A newline at the end does not change where reading fails. -/
theorem validUpTo_append_newline (failed : decodeUtf8? bytes = none) :
    validUpTo (bytes ++ [0x0A]) = validUpTo bytes := by
  unfold decodeUtf8? at failed
  rw [validUpTo, validUpTo, chunks_append_newline]
  generalize chunks bytes = pieces at failed
  induction pieces with
  | nil => simp [wellFormedChars] at failed
  | cons chunk later ih =>
      cases chunk with
      | illFormed size => rfl
      | char c size =>
          rw [List.cons_append, wellFormedLength, wellFormedLength,
            ih (by simpa [wellFormedChars] using failed)]

/-- A newline is read from a newline byte only. -/
theorem newline_mem_decodeUtf8Lossy_iff : '\n' ∈ decodeUtf8Lossy bytes ↔ 0x0A ∈ bytes := by
  constructor
  · unfold decodeUtf8Lossy
    fun_induction chunks bytes with
    | case1 => simp
    | case2 lead rest chunk ih =>
        intro member
        rcases List.mem_cons.mp member with here | later
        · cases first : chunk with
          | illFormed size => simp [first] at here
          | char c size =>
              obtain ⟨tail, after, -, -, encoded⟩ := firstChunk_eq_char first
              simp only [first] at here
              subst here
              have same : lead = 0x0A := (List.cons.inj encoded).1.symm
              exact same ▸ List.mem_cons_self
        · exact List.mem_cons_of_mem _ (List.mem_of_mem_drop (ih later))
  · intro member
    obtain ⟨before, after, rfl⟩ := List.append_of_mem member
    simp [decodeUtf8Lossy_append_newline]

end MetricRates.Text
