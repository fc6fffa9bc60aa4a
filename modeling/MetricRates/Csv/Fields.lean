/-!
# Fields of a comma-separated line

A line is cut at the commas that stand outside double quotes.  A quote opens or
closes a quoted stretch anywhere in a field and is dropped; inside a quoted
stretch two quotes in a row stand for one.  Writing a field quotes it when it
holds a comma, a quote or a line break.
-/

namespace MetricRates.Csv

/-- Put a character in front of the first field. -/
def consHead (c : Char) : List (List Char) → List (List Char)
  | field :: fields => (c :: field) :: fields
  | [] => [[c]]

/-- Cut a line into fields, starting inside or outside a quoted stretch. -/
def splitFrom : Bool → List Char → List (List Char)
  | _, [] => [[]]
  | true, '"' :: '"' :: rest => consHead '"' (splitFrom true rest)
  | quoted, c :: rest =>
      if c = '"' then splitFrom (!quoted) rest
      else if c = ',' ∧ quoted = false then [] :: splitFrom false rest
      else consHead c (splitFrom quoted rest)

/-- The fields of a line. -/
def splitFields (line : String) : List String :=
  (splitFrom false line.toList).map String.ofList

/-- A field with each quote written twice. -/
def doubleQuotes : List Char → List Char
  | [] => []
  | c :: rest => if c = '"' then '"' :: '"' :: doubleQuotes rest else c :: doubleQuotes rest

/-- Whether a field has to be quoted when it is written. -/
def needsQuotes (field : List Char) : Bool :=
  field.any fun c => c == ',' || c == '"' || c == '\n' || c == '\r'

/-- A field as it is written, in characters. -/
def quoteChars (field : List Char) : List Char :=
  if needsQuotes field then '"' :: (doubleQuotes field ++ ['"']) else field

/-- A field as it is written. -/
def quoteField (field : String) : String :=
  String.ofList (quoteChars field.toList)

/-- The line of the given written fields. -/
def joinFields (fields : List String) : String :=
  String.intercalate "," fields

theorem consHead_ne_nil (c : Char) (fields : List (List Char)) : consHead c fields ≠ [] := by
  cases fields <;> simp [consHead]

/-- A line always has at least one field. -/
theorem splitFrom_ne_nil (quoted : Bool) (cs : List Char) : splitFrom quoted cs ≠ [] := by
  fun_induction splitFrom quoted cs <;> simp_all [consHead_ne_nil]

end MetricRates.Csv
