import MetricRates.Number.Hexadecimal
import MetricRates.Text.Reader

/-!
# Texts of a TOML document

Gaps, comments, line ends, and the four kinds of strings.  Basic strings have
escapes, literal ones have none; strings between triple quotes may hold line
breaks and up to two quotes in a row.
-/

namespace MetricRates.Settings.Toml

open Number Text Text.Reader

/-! ## Between values -/

/-- Whether a character is a space or a tab. -/
def isSpace (c : Char) : Bool :=
  c == ' ' || c == '\t'

/-- Whether a character may stand in a comment or a string without further
ado: a tab, or anything that is no control character. -/
def isPlain (c : Char) : Bool :=
  c == '\t' || (0x20 ≤ c.toNat && c.toNat != 0x7F)

/-- Read spaces and tabs. -/
def spaces : Reader Char Unit := do
  let _ ← run isSpace

/-- Read a line break. -/
def lineBreak : Reader Char Unit :=
  symbol '\n' <|> word ['\r', '\n']

/-- Read a comment up to the end of its line. -/
def comment : Reader Char Unit := do
  symbol '#'
  let _ ← run isPlain

/-- Read the rest of a line after a value or a header. -/
def lineEnd : Reader Char Unit := do
  spaces
  let _ ← optional comment
  lineBreak <|> atEnd

/-- Read the gap between the items of an array: spaces, line breaks, and
comments with their line breaks. -/
def gap : Reader Char Unit := do
  let _ ← many ((do let _ ← satisfying isSpace) <|> lineBreak <|> (do comment; lineBreak))

/-! ## Escapes -/

/-- Read a number of hexadecimal digits as a character. -/
def hexChar (count : Nat) : Reader Char Char := do
  let digits ← times next count
  match hexNumber? digits with
  | some code => if code.isValidChar then return Char.ofNat code else failure
  | none => failure

/-- Read an escape. -/
def escape : Reader Char Char := do
  symbol '\\'
  match ← next with
  | 'b' => return '\x08'
  | 't' => return '\t'
  | 'n' => return '\n'
  | 'f' => return '\x0c'
  | 'r' => return '\r'
  | '"' => return '"'
  | '\\' => return '\\'
  | 'u' => hexChar 4
  | 'U' => hexChar 8
  | _ => failure

/-! ## Strings on one line -/

/-- Read a basic string. -/
def basicString : Reader Char String := do
  symbol '"'
  let cs ← many (satisfying (fun c => isPlain c && c != '"' && c != '\\') <|> escape)
  symbol '"'
  return String.ofList cs

/-- Read a literal string. -/
def literalString : Reader Char String := do
  symbol '\''
  let cs ← run fun c => isPlain c && c != '\''
  symbol '\''
  return String.ofList cs

/-! ## Strings on several lines -/

/-- Read a line break as the newline that it stands for. -/
def newline : Reader Char (List Char) := do
  lineBreak
  return ['\n']

/-- Read a backslash at the end of a line with all gaps after it. -/
def joinedLines : Reader Char (List Char) := do
  symbol '\\'
  spaces
  lineBreak
  let _ ← many ((do let _ ← satisfying isSpace) <|> lineBreak)
  return []

/-- Read one or two quotes that do not start the closing quotes. -/
def innerQuotes (quote : Char) : Reader Char (List Char) := fun input =>
  let quotes := input.takeWhile (· == quote)
  if quotes.length = 1 ∨ quotes.length = 2 then some (quotes, input.drop quotes.length)
  else none

/-- Read the closing quotes with up to two quotes before them. -/
def closingQuotes (quote : Char) : Reader Char (List Char) := fun input =>
  let count := (input.takeWhile (· == quote)).length
  if 3 ≤ count then
    let inner := min (count - 3) 2
    some (List.replicate inner quote, input.drop (inner + 3))
  else none

/-- Read a string between triple quotes from the pieces of its content. -/
def tripleQuoted (quote : Char) (piece : Reader Char (List Char)) : Reader Char String := do
  word [quote, quote, quote]
  let _ ← optional lineBreak
  let pieces ← many (piece <|> newline <|> innerQuotes quote)
  let quotes ← closingQuotes quote
  return String.ofList (pieces.flatten ++ quotes)

/-- Read a piece of a basic string on several lines. -/
def basicPiece : Reader Char (List Char) :=
  (do return [← satisfying fun c => isPlain c && c != '"' && c != '\\']) <|> joinedLines <|>
    (do return [← escape])

/-- Read a piece of a literal string on several lines. -/
def literalPiece : Reader Char (List Char) := do
  return [← satisfying fun c => isPlain c && c != '\'']

/-- Read a string of any kind. -/
def anyString : Reader Char String :=
  tripleQuoted '"' basicPiece <|> tripleQuoted '\'' literalPiece <|> basicString <|>
    literalString

/-! ## Keys -/

/-- Whether a character may stand in a key without quotes. -/
def isBareKeyChar (c : Char) : Bool :=
  c.isAlphanum || c == '-' || c == '_'

/-- Read a key without quotes. -/
def bareKey : Reader Char String := do
  let cs ← run isBareKeyChar
  if cs.isEmpty then failure else return String.ofList cs

/-- Read a part of a key. -/
def keyPart : Reader Char String := do
  spaces
  let part ← basicString <|> literalString <|> bareKey
  spaces
  return part

/-- The number of parts from which a key is refused, and the depth from which
nesting is. -/
def nestingLimit : Nat := 80

/-- Read a key as the path to a table and the name in it. -/
def keyPath : Reader Char (List String × String) := do
  let parts ← separated1 keyPart (symbol '.')
  match parts.getLast? with
  | some name => if parts.length < nestingLimit then return (parts.dropLast, name) else failure
  | none => failure

end MetricRates.Settings.Toml
