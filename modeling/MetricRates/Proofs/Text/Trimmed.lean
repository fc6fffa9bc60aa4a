import Mathlib.Data.List.Basic
import Mathlib.Data.List.TakeWhile
import MetricRates.Text.Blank

/-!
# Blanks around a text

Dropping the characters of a kind at both ends of a text leaves none of them there, and it
leaves a text as it is that has none there.  So does trimming with blanks, and it does not
see blanks that stand around a text.
-/

namespace MetricRates.Text

variable {before cs after : List Char}

/-! ## Dropping at both ends -/

section

variable {test : Char → Bool} {c : Char}

theorem dropEndWhile_append (passes : ∀ c ∈ after, test c) :
    dropEndWhile test (cs ++ after) = dropEndWhile test cs := by
  rw [dropEndWhile, List.reverse_append, List.dropWhile_append_of_pos (by simpa using passes)]
  rfl

theorem first_of_dropWhile (first : c ∈ (cs.dropWhile test).head?) : test c = false := by
  have stopped := List.head?_dropWhile_not test cs
  rw [Option.mem_def.mp first] at stopped
  exact stopped

theorem last_of_dropEndWhile (last : c ∈ (dropEndWhile test cs).getLast?) : test c = false := by
  rw [dropEndWhile, List.getLast?_reverse] at last
  exact first_of_dropWhile last

/-- Dropping at the end brings no other character to the front. -/
theorem head?_of_dropEndWhile (first : c ∈ (dropEndWhile test cs).head?) : c ∈ cs.head? := by
  obtain ⟨dropped, parts⟩ := dropEndWhile_isPrefix test cs
  rw [← parts, List.head?_append, Option.mem_def.mp first]
  rfl

theorem mem_of_mem_dropped (member : c ∈ dropEndWhile test (cs.dropWhile test)) : c ∈ cs :=
  (List.dropWhile_sublist test).mem ((dropEndWhile_isPrefix test _).mem member)

theorem dropWhile_of_first (first : ∀ c ∈ cs.head?, test c = false) : cs.dropWhile test = cs := by
  cases cs with
  | nil => rfl
  | cons c rest => simp [first c rfl]

/-- Nothing is dropped from a text that has nothing to drop at its ends. -/
theorem dropped_of_ends (first : ∀ c ∈ cs.head?, test c = false)
    (last : ∀ c ∈ cs.getLast?, test c = false) :
    dropEndWhile test (cs.dropWhile test) = cs := by
  have stops : cs.reverse.dropWhile test = cs.reverse :=
    dropWhile_of_first (by simpa using last)
  rw [dropWhile_of_first first, dropEndWhile, stops, List.reverse_reverse]

end

/-! ## Trimming -/

theorem trimStart_append (blank : allBlank before) : trimStart (before ++ cs) = trimStart cs :=
  List.dropWhile_append_of_pos (List.all_eq_true.mp blank)

theorem mem_of_mem_trimChars {c : Char} (member : c ∈ trimChars cs) : c ∈ cs :=
  mem_of_mem_dropped member

/-- Blanks around a text do not count when it is trimmed. -/
theorem trimChars_surrounded (blankBefore : allBlank before) (blankAfter : allBlank after) :
    trimChars (before ++ cs ++ after) = trimChars cs := by
  have blanks : ∀ c ∈ after, isBlank c := List.all_eq_true.mp blankAfter
  rw [List.append_assoc, trimChars, trimStart_append blankBefore, trimStart, List.dropWhile_append]
  by_cases nothing : cs.dropWhile isBlank = []
  · rw [if_pos (by simpa using nothing), List.dropWhile_eq_nil_iff.mpr blanks, trimChars,
      trimStart, nothing]
  · rw [if_neg (by simpa using nothing), dropEndWhile_append blanks]
    rfl

/-- A text neither starts nor ends with a blank. -/
structure SolidEnds (cs : List Char) : Prop where
  first : ∀ c ∈ cs.head?, isBlank c = false
  last : ∀ c ∈ cs.getLast?, isBlank c = false

/-- A text without blanks at its ends is trimmed to itself. -/
theorem SolidEnds.trimChars_eq (solid : SolidEnds cs) : trimChars cs = cs :=
  dropped_of_ends solid.first solid.last

/-- A trimmed text has no blanks at its ends. -/
theorem solidEnds_trimChars (cs : List Char) : SolidEnds (trimChars cs) where
  first _ first := first_of_dropWhile (head?_of_dropEndWhile first)
  last _ last := last_of_dropEndWhile last

theorem solidEnds_of_solid (solid : ∀ c ∈ cs, isBlank c = false) : SolidEnds cs where
  first c member := solid c (List.mem_of_mem_head? member)
  last c member := solid c (List.mem_of_mem_getLast? member)

/-- What stands between two texts leaves their ends solid. -/
theorem SolidEnds.append {first last : List Char} (solidFirst : SolidEnds first)
    (solidLast : SolidEnds last) (someFirst : first ≠ []) (someLast : last ≠ [])
    (middle : List Char) : SolidEnds (first ++ middle ++ last) where
  first := by
    rw [List.append_assoc, List.head?_append_of_ne_nil _ someFirst]
    exact solidFirst.first
  last := by
    rw [List.getLast?_append_of_ne_nil _ someLast]
    exact solidLast.last

/-- A digit is not blank. -/
theorem isBlank_of_isDigit {c : Char} (digit : c.isDigit) : isBlank c = false := by
  simp only [Char.isDigit, Bool.and_eq_true, decide_eq_true_eq, UInt32.le_iff_toNat_le] at digit
  have low : 48 ≤ c.toNat := digit.1
  have high : c.toNat ≤ 57 := digit.2
  simp only [isBlank, blankRanges, List.any_cons, List.any_nil, Bool.or_false, Bool.or_eq_false_iff,
    Bool.and_eq_false_iff, decide_eq_false_iff_not]
  omega

end MetricRates.Text
