import Mathlib.Data.List.DropRight
import MetricRates.Proofs.Sample.Accounting
import MetricRates.Proofs.Text.Utf8

/-!
# Lines and their ends

What is read from a line does not depend on the carriage returns and newlines that
end it, and a blank line at the end counts for nothing.  So a text, or a file, may be
cut into lines at its newlines or after them, and whether or not a carriage return
goes with its newline makes no difference either.
-/

namespace MetricRates

open Text

/-! ## Lines without their ends -/

/-- A line without its line end. -/
def InputLine.stripped : InputLine → InputLine
  | .text line => .text (stripLineEnd line)
  | .illFormed validBytes lossy => .illFormed validBytes (stripLineEnd lossy)

theorem stripLineEnd_stripLineEnd (line : List Char) :
    stripLineEnd (stripLineEnd line) = stripLineEnd line := by
  simp only [stripLineEnd, dropEndWhile, List.reverse_reverse, List.dropWhile_idempotent _ _]

theorem stripLineEnd_append_newline (line : List Char) :
    stripLineEnd (line ++ ['\n']) = stripLineEnd line := by
  simp [stripLineEnd, dropEndWhile]

theorem allBlank_dropEndWhile {test : Char → Bool} (blank : ∀ c, test c → isBlank c)
    (cs : List Char) : allBlank (dropEndWhile test cs) = allBlank cs := by
  rw [allBlank, allBlank, dropEndWhile, List.all_reverse, ← List.all_reverse (l := cs)]
  induction cs.reverse with
  | nil => rfl
  | cons c rest ih => by_cases dropped : test c <;> simp [dropped, blank, ih]

/-- The end of a line is blank. -/
theorem allBlank_stripLineEnd (line : List Char) :
    allBlank (stripLineEnd line) = allBlank line := by
  refine allBlank_dropEndWhile (fun c ends => ?_) line
  simp only [Bool.or_eq_true, beq_iff_eq] at ends
  rcases ends with rfl | rfl <;> decide

theorem InputLine.isBlank_stripped (line : InputLine) : line.stripped.isBlank = line.isBlank := by
  cases line with
  | text line => simp [stripped, isBlank, stripLineEnd_stripLineEnd]
  | illFormed validBytes lossy => rfl

theorem InputLine.lineFields_headerText_stripped (line : InputLine) :
    lineFields line.stripped.headerText = lineFields line.headerText := by
  cases line <;> simp [stripped, headerText, lineFields, stripLineEnd_stripLineEnd]

theorem Header.readLine_stripped (header : Header) (line : InputLine) :
    header.readLine line.stripped = header.readLine line := by
  cases line <;> simp [InputLine.stripped, readLine, lineFields, stripLineEnd_stripLineEnd]

theorem readRows_map_stripped (header : Header) (lines : List (InputLine × Nat)) :
    readRows header (lines.map fun line => (line.1.stripped, line.2)) = readRows header lines := by
  simp only [readRows, List.filter_map, List.map_map, Function.comp_def,
    InputLine.isBlank_stripped, Header.readLine_stripped]

theorem readNumberedLines_map_stripped (lines : List (InputLine × Nat)) :
    readNumberedLines (lines.map fun line => (line.1.stripped, line.2)) =
      readNumberedLines lines := by
  induction lines with
  | nil => rfl
  | cons line rest ih =>
      rw [List.map_cons, readNumberedLines, readNumberedLines, ih, line.1.isBlank_stripped,
        line.1.lineFields_headerText_stripped]
      simp only [readRows_map_stripped]

/-- What is read does not depend on the ends of the lines. -/
theorem readLines_map_stripped (lines : List InputLine) :
    readLines (lines.map InputLine.stripped) = readLines lines := by
  rw [readLines, List.zipIdx_map]
  exact readNumberedLines_map_stripped _

/-! ## A blank line at the end -/

theorem readRows_concat_of_isBlank (header : Header) (lines : List (InputLine × Nat))
    {last : InputLine × Nat} (blank : last.1.isBlank) :
    readRows header (lines ++ [last]) = readRows header lines := by
  simp [readRows, blank]

theorem readNumberedLines_concat_of_isBlank (lines : List (InputLine × Nat))
    {last : InputLine × Nat} (blank : last.1.isBlank) :
    readNumberedLines (lines ++ [last]) = readNumberedLines lines := by
  induction lines with
  | nil => exact if_pos blank
  | cons line rest ih =>
      rw [List.cons_append, readNumberedLines, readNumberedLines, ih]
      simp only [readRows_concat_of_isBlank _ rest blank]

theorem readLines_concat_of_isBlank (lines : List InputLine) {last : InputLine}
    (blank : last.isBlank) : readLines (lines ++ [last]) = readLines lines := by
  rw [readLines, List.zipIdx_append]
  exact readNumberedLines_concat_of_isBlank _ blank

/-! ## Lines with their ends -/

/-- Lines may be cut after their ends as well as at them. -/
theorem readLines_cutAfter {α : Type} [DecidableEq α] {separator : α}
    {value : List α → InputLine} (empty : (value []).isBlank)
    (ended : ∀ piece, (value (piece ++ [separator])).stripped = (value piece).stripped)
    (list : List α) :
    readLines ((cutAfter separator list).map value) =
      readLines ((cutAt separator list).map value) := by
  rw [← readLines_map_stripped, ← readLines_map_stripped ((cutAt separator list).map value),
    List.map_map, List.map_map]
  rcases map_cutAt_cases (InputLine.stripped ∘ value) ended list with same | oneMore
  · rw [same]
  · rw [oneMore]
    exact (readLines_concat_of_isBlank _ ((value []).isBlank_stripped.trans empty)).symm

theorem stripped_ofBytes_append_newline (bytes : List UInt8) :
    (InputLine.ofBytes (bytes ++ [0x0A])).stripped = (InputLine.ofBytes bytes).stripped := by
  unfold InputLine.ofBytes
  rw [decodeUtf8?_append_newline]
  cases decoded : decodeUtf8? bytes with
  | some line => simp [InputLine.stripped, stripLineEnd_append_newline]
  | none =>
      have ended : decodeUtf8Lossy (bytes ++ [0x0A]) = decodeUtf8Lossy bytes ++ ['\n'] := by
        simp [decodeUtf8Lossy_append_newline]
      simp [InputLine.stripped, validUpTo_append_newline decoded, ended,
        stripLineEnd_append_newline]

theorem ofBytes_nil : InputLine.ofBytes [] = .text [] := by
  simp [InputLine.ofBytes]

/-- The lines of a file may be cut after their newlines. -/
theorem readBytes_eq_readLines_cutAfter (bytes : List UInt8) :
    readBytes bytes = readLines ((cutAfter 0x0A bytes).map InputLine.ofBytes) := by
  have empty : (InputLine.ofBytes []).isBlank := by
    rw [ofBytes_nil]
    rfl
  exact (readLines_cutAfter empty stripped_ofBytes_append_newline bytes).symm

/-- The lines of a text may be cut after their newlines. -/
theorem readText_eq_readLines_cutAfter (text : String) :
    readText text = readLines ((cutAfter '\n' text.toList).map .text) := by
  rw [readLines_cutAfter rfl]
  · rfl
  · intro piece
    simp [InputLine.stripped, stripLineEnd_append_newline]

/-! ## Lines without their endings -/

/-- A line without its ending, which is a newline or a carriage return and a newline.  A
carriage return by itself ends no line. -/
def dropEnding (line : List Char) : List Char :=
  if ['\r', '\n'] <:+ line then line.dropLast.dropLast
  else if ['\n'] <:+ line then line.dropLast
  else line

/-- The lines of a text without their endings; nothing follows the last ending. -/
def endedLines (text : String) : List (List Char) :=
  (cutAfter '\n' text.toList).map dropEnding

theorem stripLineEnd_append_return (line : List Char) :
    stripLineEnd (line ++ ['\r']) = stripLineEnd line := by
  simp [stripLineEnd, dropEndWhile]

theorem stripLineEnd_dropEnding (line : List Char) :
    stripLineEnd (dropEnding line) = stripLineEnd line := by
  unfold dropEnding
  split
  · rename_i ended
    obtain ⟨before, rfl⟩ := ended
    rw [List.append_cons, stripLineEnd_append_newline, stripLineEnd_append_return]
    simp
  · split
    · rename_i ended
      obtain ⟨before, rfl⟩ := ended
      rw [stripLineEnd_append_newline, List.dropLast_concat]
    · rfl

/-- Reading a text is reading its lines without their endings. -/
theorem readText_eq_readLines_endedLines (text : String) :
    readText text = readLines ((endedLines text).map .text) := by
  rw [readText_eq_readLines_cutAfter, ← readLines_map_stripped,
    ← readLines_map_stripped ((endedLines text).map .text), endedLines]
  simp only [List.map_map, Function.comp_def, InputLine.stripped, stripLineEnd_dropEnding]

end MetricRates
