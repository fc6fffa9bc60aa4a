import MetricRates.Csv.Fields
import MetricRates.Family.Output

/-!
# Exported tables

A table is exported as comma-separated lines or as one indented JSON document.
-/

namespace MetricRates.Report

open Number

/-! ## Comma-separated lines -/

/-- The header line of a table. -/
def csvHeader (names : List String) : String :=
  Csv.joinFields ("time" :: names.map Csv.quoteField)

/-- A cell as a field; an absent cell is an empty field. -/
def csvCell : Option Float → String
  | some value => writePlain value
  | none => ""

/-- The line of a row. -/
def csvRow (row : Row Float) : String :=
  Csv.joinFields (row.time.text :: row.cells.map csvCell)

/-- The text of a table as comma-separated lines. -/
def csvText (table : Table Float) : String :=
  String.join ((csvHeader table.names :: table.rows.map csvRow).map (· ++ "\n"))

/-! ## JSON -/

/-- Numbers in JSON: with an exponent below `1e-5` and from `1e16` on, whole
numbers with `.0`, and a half going to the even digit. -/
def jsonStyle : NumberStyle :=
  { tie := .even, wholeMark := ".0", positional := some (-5, 16) }

/-- A number in JSON; what is not finite is null. -/
def jsonNumber (x : Float) : String :=
  if x.isFinite then jsonStyle.write x else "null"

/-- One of the sixteen hexadecimal digits. -/
def hexDigit (n : Nat) : Char :=
  Nat.digitChar n

/-- A character of a JSON string. -/
def jsonChar (c : Char) : List Char :=
  if c = '"' then ['\\', '"']
  else if c = '\\' then ['\\', '\\']
  else if c = '\n' then ['\\', 'n']
  else if c = '\r' then ['\\', 'r']
  else if c = '\t' then ['\\', 't']
  else if c.toNat = 0x08 then ['\\', 'b']
  else if c.toNat = 0x0C then ['\\', 'f']
  else if c.toNat < 0x20 then
    ['\\', 'u', '0', '0', hexDigit (c.toNat / 16), hexDigit (c.toNat % 16)]
  else [c]

/-- A text as a JSON string. -/
def jsonString (text : String) : String :=
  String.ofList ('"' :: (text.toList.flatMap jsonChar ++ ['"']))

/-- A JSON value with the form of an exported table. -/
inductive JsonNode where
  | text (value : String)
  | number (value : Option Float)
  | array (items : List JsonNode)
  | object (fields : List (String × JsonNode))

/-- The line break before an item that is nested to a depth. -/
def lineBreak (depth : Nat) : String :=
  String.ofList ('\n' :: List.replicate (2 * depth) ' ')

/-- Items between brackets, one on each line, or nothing between them. -/
def bracketed (opening closing : String) (depth : Nat) (items : List String) : String :=
  if items.isEmpty then opening ++ closing
  else
    opening ++ lineBreak (depth + 1) ++
      String.intercalate ("," ++ lineBreak (depth + 1)) items ++ lineBreak depth ++ closing

mutual

/-- Write a node that is nested to a depth. -/
def JsonNode.write (depth : Nat) : JsonNode → String
  | .text value => jsonString value
  | .number (some value) => jsonNumber value
  | .number none => "null"
  | .array items => bracketed "[" "]" depth (writeItems (depth + 1) items)
  | .object fields => bracketed "\x7b" "\x7d" depth (writeFields (depth + 1) fields)

/-- Write the items of an array. -/
def writeItems (depth : Nat) : List JsonNode → List String
  | [] => []
  | item :: items => item.write depth :: writeItems depth items

/-- Write the fields of an object. -/
def writeFields (depth : Nat) : List (String × JsonNode) → List String
  | [] => []
  | (key, value) :: fields =>
      (jsonString key ++ ": " ++ value.write depth) :: writeFields depth fields

end

/-- The node of a row. -/
def rowNode (row : Row Float) : JsonNode :=
  .object [("time", .text row.time.text), ("values", .array (row.cells.map .number))]

/-- The node of an output. -/
def outputNode (output : FamilyOutput) (unit : String) : JsonNode :=
  let table := output.derived.table
  .object [("family", .text output.name), ("metric", .text output.metric),
    ("kind", .text (Named.name output.derived.kind)), ("unit", .text unit),
    ("columns", .array (table.names.map .text)), ("rows", .array (table.rows.map rowNode))]

/-- The text of an output as a JSON document. -/
def jsonText (output : FamilyOutput) (unit : String) : String :=
  (outputNode output unit).write 0 ++ "\n"

end MetricRates.Report
