import MetricRates.Proofs.Csv.Quoting
import MetricRates.Proofs.Sample.Written
import MetricRates.Proofs.Table.Positions
import MetricRates.Proofs.Text.Cut
import MetricRates.Proofs.Time.Written
import MetricRates.Report.Export

/-!
# The exported lines hold the table

A table is stored by column and exported by row.  No instant and no number needs quotes,
so an exported line is the written line of its fields, and only an absent cell leaves a
field empty.  As long as no column has a newline in its name, cutting the text at
newlines gives the lines, and cutting the lines into fields gives the table back.
-/

namespace MetricRates.Report

open Csv Number Text Time

/-! ## Plain numbers -/

/-- A digit, a point, a sign, or a letter of a number that is not finite. -/
def IsNumberChar (c : Char) : Prop :=
  c.isDigit ∨ c ∈ ['-', '.', 'N', 'a', 'i', 'n', 'f']

/-- A text that is not empty and has the characters of a number. -/
structure IsNumberText (cs : List Char) : Prop where
  ne_nil : cs ≠ []
  chars : ∀ c ∈ cs, IsNumberChar c

theorem isNumberChar_zeros (count : Nat) : ∀ c ∈ zeros count, IsNumberChar c := by
  intro c zero
  rw [List.eq_of_mem_replicate zero]
  exact .inl (by decide)

theorem isNumberText_natDigits (n : Nat) : IsNumberText (natDigits n) where
  ne_nil := Nat.toDigits_ne_nil
  chars _ digit := .inl (Nat.isDigit_of_mem_toDigits (by decide) (by decide) digit)

namespace IsNumberText

variable {digits : List Char}

theorem cons {c : Char} (first : IsNumberChar c) (isText : IsNumberText digits) :
    IsNumberText (c :: digits) where
  ne_nil := List.cons_ne_nil c digits
  chars := List.forall_mem_cons.mpr ⟨first, isText.chars⟩

/-- Placing the point keeps the text of a number. -/
theorem positionalForm (isText : IsNumberText digits) (point : Int) :
    IsNumberText (positionalForm plainStyle digits point) := by
  have dot : IsNumberChar '.' := .inr (by decide)
  unfold Number.positionalForm
  split
  · refine .cons (.inl (by decide)) ⟨List.cons_ne_nil _ _, ?_⟩
    exact List.forall_mem_cons.mpr
      ⟨dot, List.forall_mem_append.mpr ⟨isNumberChar_zeros _, isText.chars⟩⟩
  · split
    · simp only [plainStyle, String.toList_empty, List.append_nil]
      exact ⟨List.append_ne_nil_of_left_ne_nil isText.ne_nil _,
        List.forall_mem_append.mpr ⟨isText.chars, isNumberChar_zeros _⟩⟩
    · refine ⟨by simp, List.forall_mem_append.mpr ⟨fun c early => ?_, ?_⟩⟩
      · exact isText.chars c (List.mem_of_mem_take early)
      · exact List.forall_mem_cons.mpr
          ⟨dot, fun c late => isText.chars c (List.mem_of_mem_drop late)⟩

end IsNumberText

/-- The digits of a finite number, without its sign. -/
theorem isNumberText_layout (mantissa : Nat) (exponent : Int) (narrowBelow : Bool) :
    let decimal := shortest plainStyle.tie mantissa exponent narrowBelow
    IsNumberText (if mantissa = 0 then '0' :: plainStyle.wholeMark.toList
      else plainStyle.layout (natDigits decimal.1) ((natDigits decimal.1).length + decimal.2)) := by
  intro decimal
  split
  · exact ⟨List.cons_ne_nil _ _, by simp [plainStyle, IsNumberChar]⟩
  · exact (isNumberText_natDigits decimal.1).positionalForm _

/-- Every number has a text, with the characters of a number only. -/
theorem isNumberText_writePlain (x : Float) : IsNumberText (writePlain x).toList := by
  have minus : IsNumberChar '-' := .inr (by decide)
  rw [writePlain, NumberStyle.write]
  cases Binary64.ofFloat x with
  | nan => exact ⟨by decide, by simp [IsNumberChar]⟩
  | infinity negative => cases negative <;> exact ⟨by decide, by simp [IsNumberChar]⟩
  | finite negative mantissa exponent narrowBelow =>
      have size := isNumberText_layout mantissa exponent narrowBelow
      simp only [String.toList_ofList]
      cases negative with
      | true => exact .cons minus size
      | false => exact size

/-! ## Bare fields -/

/-- The characters for which a field is quoted. -/
def quotedChars : List Char := [',', '"', '\n', '\r']

/-- Marks that need no quotes. -/
def areBare (marks : List Char) : Bool :=
  marks.all fun mark => !quotedChars.contains mark

/-- A field is written as it stands when it has none of them. -/
theorem quoteField_of_bare {field : String} (bare : ∀ c ∈ field.toList, c ∉ quotedChars) :
    quoteField field = field := by
  have unquoted : needsQuotes field.toList = false := by
    simpa [needsQuotes, quotedChars, and_assoc] using bare
  simp [quoteField, quoteChars, unquoted]

/-- Digits need no quotes, nor do bare marks. -/
theorem not_mem_quotedChars {c : Char} {marks : List Char} (bare : areBare marks = true)
    (plain : c.isDigit ∨ c ∈ marks) : c ∉ quotedChars := by
  rcases plain with digit | mark
  · have noDigit : quotedChars.all (fun quoted => !quoted.isDigit) = true := by decide
    intro quoted
    simpa [digit] using List.all_eq_true.mp noDigit c quoted
  · simpa using List.all_eq_true.mp bare c mark

theorem bare_text (time : Timestamp) : ∀ c ∈ time.text.toList, c ∉ quotedChars :=
  fun c member => not_mem_quotedChars (by decide) (isInstantChar_text time c member)

theorem bare_csvCell (cell : Option Float) : ∀ c ∈ (csvCell cell).toList, c ∉ quotedChars := by
  cases cell with
  | none => exact nofun
  | some value =>
      exact fun c member =>
        not_mem_quotedChars (by decide) ((isNumberText_writePlain value).chars c member)

/-! ## The lines of a table -/

/-- The fields of the line of a row. -/
def rowFields (row : Row Float) : List String :=
  row.time.text :: row.cells.map csvCell

theorem bare_rowFields (row : Row Float) :
    ∀ field ∈ rowFields row, ∀ c ∈ field.toList, c ∉ quotedChars := by
  rw [rowFields, List.forall_mem_cons, List.forall_mem_map]
  exact ⟨bare_text row.time, fun cell _ => bare_csvCell cell⟩

theorem csvRow_eq_writeLine (row : Row Float) : csvRow row = writeLine (rowFields row) := by
  have unquoted : (rowFields row).map quoteField = (rowFields row).map id :=
    List.map_congr_left fun field listed => quoteField_of_bare (bare_rowFields row field listed)
  rw [writeLine, unquoted, List.map_id]
  rfl

/-- A table is exported as its names below `time`, and then its rows. -/
theorem csvText_eq_writeText (table : Table Float) :
    csvText table = Csv.writeText (("time" :: table.names) :: table.rows.map rowFields) := by
  have header : csvHeader table.names = writeLine ("time" :: table.names) := rfl
  rw [csvText, Csv.writeText, header, List.map_cons, List.map_cons, List.map_map, List.map_map]
  simp only [Function.comp_def, csvRow_eq_writeLine]

/-- No field of an exported line has a newline, as long as no name has one. -/
theorem unbroken_fields {table : Table Float}
    (unbroken : ∀ name ∈ table.names, '\n' ∉ name.toList) :
    ∀ fields ∈ ("time" :: table.names) :: table.rows.map rowFields, Unbroken fields := by
  rw [List.forall_mem_cons, List.forall_mem_map]
  refine ⟨List.forall_mem_cons.mpr ⟨by decide, unbroken⟩, fun row _ field listed newline => ?_⟩
  exact bare_rowFields row field listed '\n' newline (by decide)

/-! ## Reading the lines back -/

/-- A field holds a cell: it is empty exactly when the cell is absent, and otherwise the
text of the value. -/
def HoldsCell (cell : Option Float) (field : String) : Prop :=
  (field = "" ↔ cell = none) ∧ ∀ value ∈ cell, field = writePlain value

theorem holdsCell_csvCell (cell : Option Float) : HoldsCell cell (csvCell cell) := by
  cases cell with
  | none => simp [HoldsCell, csvCell]
  | some value =>
      have shown : writePlain value ≠ "" := fun empty =>
        (isNumberText_writePlain value).ne_nil (String.toList_eq_nil_iff.mpr empty)
      simp [HoldsCell, csvCell, shown]

/-- A line holds a row of a table: its first field is the text of the instant, which is
read back, and below each name stands the cell of that column. -/
structure HoldsRow (table : Table Float) (row : Nat) (line : String) : Prop where
  width : (splitFields line).length = table.columnCount + 1
  time : (splitFields line).head? = some (table.timeAt row).text
  readBack : (splitFields line).head?.bind Timestamp.ofText? = some (table.timeAt row)
  cells : List.Forall₂ (fun column field => HoldsCell (column.value? row) field)
    table.columns (splitFields line).tail

theorem holdsRow_writeLine (table : Table Float) (row : Nat) :
    HoldsRow table row (writeLine (rowFields (table.rowAt row))) := by
  have fields : splitFields (writeLine (rowFields (table.rowAt row))) =
      (table.timeAt row).text ::
        table.columns.map fun column => csvCell (column.value? row) := by
    have nonempty : rowFields (table.rowAt row) ≠ [] := List.cons_ne_nil _ _
    rw [splitFields_writeLine nonempty, rowFields, Table.rowAt, List.map_map]
    rfl
  constructor
  · rw [fields, List.length_cons, List.length_map, Table.columnCount]
  · rw [fields, List.head?_cons]
  · have utc := ofText?_localText (table.timeAt row) (by decide) isZone_utc
      (by simp [IsInstantChar])
    rw [Int.zero_mul, Int.add_zero] at utc
    rw [fields, List.head?_cons, Option.bind_some]
    exact utc
  · rw [fields, List.tail_cons, List.forall₂_map_right_iff, List.forall₂_same]
    exact fun column _ => holdsCell_csvCell (column.value? row)

/-- The exported text of a table is its header and one line for each row, each ended by a
newline: cutting at newlines leaves an empty piece behind the last one.  The fields of the
header are `time` and the names, and the line of a row holds that row. -/
theorem csvText_holds_table {table : Table Float}
    (unbroken : ∀ name ∈ table.names, '\n' ∉ name.toList) :
    ∃ header lines,
      (cutAt '\n' (csvText table).toList).map String.ofList = header :: lines ++ [""] ∧
        lines.length = table.rowCount ∧ splitFields header = "time" :: table.names ∧
          ∀ row < table.rowCount, ∃ line ∈ lines[row]?, HoldsRow table row line := by
  refine ⟨_, (table.rows.map rowFields).map writeLine, ?_, ?_,
    splitFields_writeLine (List.cons_ne_nil "time" table.names), ?_⟩
  · rw [csvText_eq_writeText, cutAt_writeText (unbroken_fields unbroken)]
    simp [String.ofList_toList]
  · rw [List.length_map, List.length_map, Table.length_rows]
  · intro row inTable
    refine ⟨_, ?_, holdsRow_writeLine table row⟩
    rw [List.getElem?_map, List.getElem?_map, Table.getElem?_rows,
      Table.row?_eq_some_rowAt inTable]
    rfl

/-- Names with a comma, a quote or nothing in them, and a row without values. -/
theorem csvText_holds_table_quoted :
    let table : Table Float :=
      { index := [.clamp 0, .clamp (-1)]
        columns := [⟨"a,b", [some 1.5, none]⟩, ⟨"\"", [none, none]⟩, ⟨"", [some (-0.0), none]⟩]
        rectangular := by decide }
    (∀ name ∈ table.names, '\n' ∉ name.toList) ∧
      ∃ header lines,
        (cutAt '\n' (csvText table).toList).map String.ofList = header :: lines ++ [""] ∧
          lines.length = 2 ∧ splitFields header = ["time", "a,b", "\"", ""] ∧
            ∀ row < 2, ∃ line ∈ lines[row]?, HoldsRow table row line := by
  intro table
  have unbroken : ∀ name ∈ table.names, '\n' ∉ name.toList := by decide
  exact ⟨unbroken, csvText_holds_table unbroken⟩

end MetricRates.Report
