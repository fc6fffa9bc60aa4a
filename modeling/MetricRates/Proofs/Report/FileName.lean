import MetricRates.Proofs.Text.Trimmed
import MetricRates.Report.FileName

/-!
# Names that are kept as file names

A file name is never empty, is made of characters that may stand in one, and has no dot at
either end.  The names that have this form already are exactly those that are kept.
-/

namespace MetricRates.Report

open Text

/-- The characters of file names, class by class. -/
theorem isFileNameChar_iff {c : Char} :
    isFileNameChar c ↔ ('A' ≤ c ∧ c ≤ 'Z') ∨ ('a' ≤ c ∧ c ≤ 'z') ∨ ('0' ≤ c ∧ c ≤ '9') ∨
      c = '-' ∨ c = '_' ∨ c = '.' := by
  have parts : isFileNameChar c =
      (c.isUpper || c.isLower || c.isDigit || c == '-' || c == '_' || c == '.') := rfl
  have upper : c.isUpper = true ↔ 'A' ≤ c ∧ c ≤ 'Z' := by
    rw [show c.isUpper = decide ('A' ≤ c ∧ c ≤ 'Z') from rfl, decide_eq_true_iff]
  have lower : c.isLower = true ↔ 'a' ≤ c ∧ c ≤ 'z' := by
    rw [show c.isLower = (decide ('a' ≤ c) && decide (c ≤ 'z')) from rfl, Bool.and_eq_true,
      decide_eq_true_iff, decide_eq_true_iff]
  have digit : c.isDigit = true ↔ '0' ≤ c ∧ c ≤ '9' := by
    rw [show c.isDigit = (decide ('0' ≤ c) && decide (c ≤ '9')) from rfl, Bool.and_eq_true,
      decide_eq_true_iff, decide_eq_true_iff]
  simp only [parts, upper, lower, digit, Bool.or_eq_true, beq_iff_eq, or_assoc]

theorem isFileNameChar_fileNameChar (c : Char) : isFileNameChar (fileNameChar c) := by
  unfold fileNameChar
  split
  · assumption
  · decide

theorem mem_of_mem_trimDots {c : Char} {cs : List Char} (member : c ∈ trimDots cs) : c ∈ cs :=
  mem_of_mem_dropped member

/-- A file name has only characters that may stand in one. -/
theorem isFileNameChar_of_mem_fileStem {family : String} {c : Char}
    (member : c ∈ (fileStem family).toList) : isFileNameChar c := by
  rw [fileStem, String.toList_ofList, fileStemChars] at member
  split at member
  · have named : "family".toList.all isFileNameChar = true := by decide
    exact List.all_eq_true.mp named c member
  · obtain ⟨given, -, rfl⟩ := List.mem_map.mp (mem_of_mem_trimDots member)
    exact isFileNameChar_fileNameChar given

/-! ## Dots at the ends -/

theorem isDot_eq_false_iff {c : Char} : isDot c = false ↔ c ≠ '.' := by
  simp [isDot]

theorem getLast?_trimDots (cs : List Char) : (trimDots cs).getLast? ≠ some '.' :=
  fun dot => isDot_eq_false_iff.mp (last_of_dropEndWhile dot) rfl

theorem head?_trimDots (cs : List Char) : (trimDots cs).head? ≠ some '.' :=
  fun dot => isDot_eq_false_iff.mp (first_of_dropWhile (head?_of_dropEndWhile dot)) rfl

/-! ## Plain names -/

/-- A name that can be a file name: it is not empty, has only characters of file names,
and no dot at either end. -/
structure IsPlainName (name : String) : Prop where
  ne_nil : name.toList ≠ []
  chars : ∀ c ∈ name.toList, isFileNameChar c
  head : name.toList.head? ≠ some '.'
  last : name.toList.getLast? ≠ some '.'

instance (name : String) : Decidable (IsPlainName name) :=
  decidable_of_iff
    (name.toList ≠ [] ∧ name.toList.all isFileNameChar = true ∧ name.toList.head? ≠ some '.' ∧
      name.toList.getLast? ≠ some '.')
    ⟨fun ⟨ne_nil, chars, head, last⟩ => ⟨ne_nil, List.all_eq_true.mp chars, head, last⟩,
      fun plain => ⟨plain.ne_nil, List.all_eq_true.mpr plain.chars, plain.head, plain.last⟩⟩

/-- Every file name is plain, whatever it is made from. -/
theorem isPlainName_fileStem (family : String) : IsPlainName (fileStem family) := by
  have chars : (fileStem family).toList = fileStemChars family.toList := String.toList_ofList
  cases trimmed : trimDots (family.toList.map fileNameChar) with
  | nil =>
      have named : fileStem family = "family" := by
        rw [fileStem, fileStemChars, trimmed]
        rfl
      rw [named]
      decide
  | cons c rest =>
      have kept : (fileStem family).toList = trimDots (family.toList.map fileNameChar) := by
        rw [chars, fileStemChars, trimmed]
      constructor
      · rw [kept, trimmed]
        exact List.cons_ne_nil c rest
      · intro c
        exact isFileNameChar_of_mem_fileStem
      · rw [kept]
        exact head?_trimDots _
      · rw [kept]
        exact getLast?_trimDots _

/-- A plain name has no dots to drop. -/
theorem IsPlainName.trimDots_eq {name : String} (plain : IsPlainName name) :
    trimDots name.toList = name.toList := by
  apply dropped_of_ends
  · rintro c first
    exact isDot_eq_false_iff.mpr fun dot => plain.head (dot ▸ first)
  · rintro c last
    exact isDot_eq_false_iff.mpr fun dot => plain.last (dot ▸ last)

/-- A plain name is its own file name. -/
theorem IsPlainName.fileStem_eq {name : String} (plain : IsPlainName name) :
    fileStem name = name := by
  have same : name.toList.map fileNameChar = name.toList.map id :=
    List.map_congr_left fun c member => if_pos (plain.chars c member)
  rw [fileStem, fileStemChars, same, List.map_id, plain.trimDots_eq]
  split
  · rename_i empty
    exact absurd empty plain.ne_nil
  · exact String.ofList_toList

theorem fileStem_eq_iff {name : String} : fileStem name = name ↔ IsPlainName name := by
  constructor
  · intro kept
    rw [← kept]
    exact isPlainName_fileStem name
  · exact IsPlainName.fileStem_eq

end MetricRates.Report
