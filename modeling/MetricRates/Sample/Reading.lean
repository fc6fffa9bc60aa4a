import MetricRates.Csv.Fields
import MetricRates.Error
import MetricRates.Event
import MetricRates.Sample
import MetricRates.Text.Cut
import MetricRates.Text.Utf8
import MetricRates.Time.Reading

/-!
# Reading samples

Samples come as comma-separated lines.  The first line that is not blank is the
header; it says in which fields the time, the metric name, the label and the
value stand.  Each later line that is not blank is a row, and each row has one
outcome: a sample, an unparseable time, or malformed.  Everything that is
reported about a reading follows from the outcomes of its rows.
-/

namespace MetricRates

open Text Time Number

/-! ## Header -/

/-- Where the parts of a sample stand among the fields of a row. -/
structure Header where
  time : Nat
  name : Nat
  value : Nat
  label : Option Nat
  deriving DecidableEq, Repr

/-- Whether a header field names a column; blank ends and the case of ASCII
letters do not count. -/
def namesColumn (column field : String) : Bool :=
  (trimChars field.toList).map Char.toLower == column.toList

/-- The position of the first field that names a column. -/
def columnPosition? (column : String) (fields : List String) : Option Nat :=
  fields.findIdx? (namesColumn column)

/-- The position of a column that has to be there. -/
def requiredColumn (column : String) (fields : List String) : Except InputError Nat :=
  match columnPosition? column fields with
  | some position => .ok position
  | none => .error (.missingColumn column)

/-- Read the fields of a header. -/
def Header.ofFields (fields : List String) : Except InputError Header := do
  let time ← requiredColumn "time" fields
  let name ← requiredColumn "name" fields
  let value ← requiredColumn "value" fields
  return { time, name, value, label := columnPosition? "label" fields }

/-! ## Rows -/

/-- What becomes of a row. -/
inductive RowOutcome where
  | accepted (sample : Sample)
  | unparseableTime
  | malformed
  | illFormedText (validBytes : Nat)
  deriving DecidableEq

/-- The trimmed name of a row, if it has one that is not blank. -/
def Header.nameOf? (header : Header) (fields : List String) : Option String :=
  match fields[header.name]? with
  | some field => if allBlank field.toList then none else some (trim field)
  | none => none

/-- The trimmed label of a row; without a label column every label is empty. -/
def Header.labelOf? (header : Header) (fields : List String) : Option String :=
  match header.label with
  | some position => fields[position]?.map trim
  | none => some ""

/-- The value of a row, if it is a finite number. -/
def Header.valueOf? (header : Header) (fields : List String) : Option Float :=
  match (fields[header.value]?).bind fun field => readFloat? (trimChars field.toList) with
  | some value => if value.isFinite then some value else none
  | none => none

/-- Read the fields of a row.  The name and the label are looked at before the
time, and the time before the value. -/
def Header.readRow (header : Header) (fields : List String) : RowOutcome :=
  match header.nameOf? fields, header.labelOf? fields, fields[header.time]? with
  | some metric, some label, some timeText =>
      match Timestamp.ofText? timeText with
      | none => .unparseableTime
      | some time =>
          match header.valueOf? fields with
          | some value => .accepted { metric, label, time, value }
          | none => .malformed
  | _, _, _ => .malformed

/-! ## Lines -/

/-- A line of the input: a text, or bytes that are not well-formed UTF-8 with
their lossy reading. -/
inductive InputLine where
  | text (line : List Char)
  | illFormed (validBytes : Nat) (lossy : List Char)
  deriving DecidableEq, Repr

/-- Drop the carriage returns and newlines that end a line. -/
def stripLineEnd (line : List Char) : List Char :=
  dropEndWhile (fun c => c == '\r' || c == '\n') line

/-- Whether a line counts for nothing. -/
def InputLine.isBlank : InputLine → Bool
  | .text line => allBlank (stripLineEnd line)
  | .illFormed _ _ => false

/-- The text in which a line is read as a header. -/
def InputLine.headerText : InputLine → List Char
  | .text line => line
  | .illFormed _ lossy => lossy

/-- The fields of a line without its line end. -/
def lineFields (line : List Char) : List String :=
  Csv.splitFields (String.ofList (stripLineEnd line))

/-- The outcome of a line as a row. -/
def Header.readLine (header : Header) : InputLine → RowOutcome
  | .text line => header.readRow (lineFields line)
  | .illFormed validBytes _ => .illFormedText validBytes

/-- The lines of a text, as they stand between its newlines: what else belongs to
a line end is dropped when the line is read. -/
def linesOfText (text : String) : List InputLine :=
  (cutAt '\n' text.toList).map .text

/-- Read the bytes of one line. -/
def InputLine.ofBytes (bytes : List UInt8) : InputLine :=
  match decodeUtf8? bytes with
  | some line => .text line
  | none => .illFormed (validUpTo bytes) (decodeUtf8Lossy bytes)

/-- The lines of a file. -/
def linesOfBytes (bytes : List UInt8) : List InputLine :=
  (cutAt 0x0A bytes).map InputLine.ofBytes

/-! ## Readings -/

/-- A row with the number of its line. -/
structure NumberedRow where
  line : Nat
  outcome : RowOutcome
  deriving DecidableEq

/-- The rows of a reading, in line order. -/
structure Reading where
  rows : List NumberedRow
  deriving DecidableEq

/-- Read the rows after a header. -/
def readRows (header : Header) (lines : List (InputLine × Nat)) : Reading where
  rows := (lines.filter fun line => !line.1.isBlank).map fun line =>
    { line := line.2, outcome := header.readLine line.1 }

/-- Read numbered lines: the first one that is not blank is the header. -/
def readNumberedLines : List (InputLine × Nat) → Except InputError Reading
  | [] => .error .missingHeader
  | line :: rest =>
      if line.1.isBlank then readNumberedLines rest
      else
        match Header.ofFields (lineFields line.1.headerText) with
        | .ok header => .ok (readRows header rest)
        | .error cause => .error cause

/-- Read lines, numbered from one. -/
def readLines (lines : List InputLine) : Except InputError Reading :=
  readNumberedLines (lines.zipIdx 1)

/-- Read samples from a text. -/
def readText (text : String) : Except InputError Reading :=
  readLines (linesOfText text)

/-- Read samples from the bytes of a file. -/
def readBytes (bytes : List UInt8) : Except InputError Reading :=
  readLines (linesOfBytes bytes)

/-! ## What a reading reports -/

/-- The sample of a row, if it has one. -/
def RowOutcome.sample? : RowOutcome → Option Sample
  | .accepted sample => some sample
  | _ => none

/-- Whether a row is dropped for its form. -/
def RowOutcome.isMalformed : RowOutcome → Bool
  | .malformed | .illFormedText _ => true
  | _ => false

/-- The accepted samples, in line order. -/
def Reading.samples (reading : Reading) : List Sample :=
  reading.rows.filterMap fun row => row.outcome.sample?

/-- How many rows were read and what became of them. -/
structure ReadReport where
  rows : Nat
  accepted : Nat
  unparseableTimes : Nat
  malformedRows : Nat
  deriving DecidableEq, Repr

/-- The counts of a reading. -/
def Reading.report (reading : Reading) : ReadReport where
  rows := reading.rows.length
  accepted := reading.samples.length
  unparseableTimes := reading.rows.countP fun row => row.outcome == .unparseableTime
  malformedRows := reading.rows.countP fun row => row.outcome.isMalformed

/-- The event for a dropped row. -/
def NumberedRow.event? (row : NumberedRow) : Option Event :=
  let place := "Line " ++ toString row.line ++ ": "
  match row.outcome with
  | .accepted _ => none
  | .unparseableTime => some (.debug (place ++ "unparseable time, row dropped"))
  | .malformed => some (.debug (place ++ "malformed row dropped"))
  | .illFormedText validBytes =>
      some (.debug (place ++ "invalid UTF-8 at byte " ++ toString validBytes ++ ", row dropped"))

/-- The events of a reading: one for each dropped row, then the totals. -/
def Reading.events (reading : Reading) : List Event :=
  let report := reading.report
  reading.rows.filterMap NumberedRow.event? ++
    (if report.unparseableTimes = 0 then [] else
      [.warn ("Dropped " ++ toString report.unparseableTimes ++
        " rows with unparseable time values")]) ++
    (if report.malformedRows = 0 then [] else
      [.warn ("Dropped " ++ toString report.malformedRows ++ " malformed rows")])

end MetricRates
