import MetricRates.Settings.Json.Token
import MetricRates.Text.Reader

/-!
# JSON documents

A document is one value.  Nesting is not limited; the number of tokens bounds
it.
-/

namespace MetricRates.Settings.Json

open Text Text.Reader

/-- Read a mark. -/
def readMark (wanted : Char) : Reader Token Unit
  | .mark c :: rest => if c = wanted then some ((), rest) else none
  | _ => none

/-- Read a string. -/
def readString : Reader Token (Option String)
  | .string value :: rest => some (value, rest)
  | _ => none

/-- Read a string or a word as a value. -/
def readScalar : Reader Token Value
  | .string (some value) :: rest => some (.text value, rest)
  | .string none :: rest => some (.unusable, rest)
  | .scalar value :: rest => some (value, rest)
  | _ => none

/-- The table of some fields, unless a name denotes no text. -/
def tableOf (fields : List (Option String × Value)) : Value :=
  match fields.mapM fun field => field.1.map fun name => (name, field.2) with
  | some fields => .table fields
  | none => .unusable

/-- Read a value that is nested to at most a depth. -/
def readValue : Nat → Reader Token Value
  | 0 => readScalar
  | depth + 1 =>
      readScalar <|>
      (do
        readMark '['
        let items ← separated (readValue depth) (readMark ',')
        readMark ']'
        return .array items) <|>
      (do
        readMark '\x7b'
        let fields ← separated
          (do
            let name ← readString
            readMark ':'
            return (name, ← readValue depth))
          (readMark ',')
        readMark '\x7d'
        return tableOf fields)

/-- Read a document. -/
def readDocument? (text : String) : Option Value := do
  let tokens ← tokens? text.toList
  readAll (readValue tokens.length) tokens

end MetricRates.Settings.Json
