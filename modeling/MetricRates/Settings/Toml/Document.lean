import MetricRates.Settings.Toml.Body
import MetricRates.Settings.Toml.Scalar

/-!
# TOML documents

A document is a list of sections.  The first section has no header; each later
one has a header that names a table, or an array of tables to which it adds an
element.  Sections are put into the table of the document one after another.
-/

namespace MetricRates.Settings.Toml

open Text Text.Reader

/-! ## Values -/

/-- A key with its value. -/
abbrev Pair := (List String × String) × Value

/-- The value of a table between braces. -/
def inlineTable? (pairs : List Pair) : Option Value :=
  (pairs.foldlM Body.insert Body.empty).map Body.toValue

/-- Read an array with the given reader of items. -/
def arrayOf (item : Reader Char Value) : Reader Char Value := do
  symbol '['
  let items ← separated (do gap; let value ← item; gap; return value) (symbol ',')
  if !items.isEmpty then
    let _ ← optional (symbol ',')
  gap
  symbol ']'
  return .array items

/-- Read a table between braces with the given reader of values. -/
def tableOf (value : Reader Char Value) : Reader Char Value := do
  symbol '\x7b'
  let pairs ← separated
    (do
      let key ← keyPath
      symbol '='
      spaces
      let value ← value
      spaces
      return (key, value))
    (symbol ',')
  spaces
  symbol '\x7d'
  match inlineTable? pairs with
  | some table => return table
  | none => failure

/-- Read a value that is nested to at most a depth. -/
def value : Nat → Reader Char Value
  | 0 => scalar
  | depth + 1 => scalar <|> arrayOf (value depth) <|> tableOf (value depth)

/-! ## Sections -/

/-- Where the pairs of a section go. -/
inductive Header where
  | root
  | table (path : List String) (name : String)
  | element (path : List String) (name : String)
  deriving DecidableEq, Repr

/-- A header with the pairs after it. -/
structure Section where
  header : Header
  pairs : List Pair

/-- Read lines that hold nothing but a comment. -/
def emptyLines : Reader Char Unit := do
  let _ ← many do
    spaces
    (do comment; lineBreak <|> atEnd) <|> lineBreak
  spaces

/-- Read a key and its value on a line. -/
def pairLine : Reader Char Pair := do
  let key ← keyPath
  symbol '='
  spaces
  let value ← value (nestingLimit - 1)
  lineEnd
  return (key, value)

/-- Read the pairs of a section. -/
def sectionPairs : Reader Char (List Pair) := do
  emptyLines
  many do
    let pair ← pairLine
    emptyLines
    return pair

/-- Read a header. -/
def header : Reader Char Header :=
  (do
    word ['[', '[']
    let (path, name) ← keyPath
    word [']', ']']
    lineEnd
    return .element path name) <|>
  (do
    symbol '['
    let (path, name) ← keyPath
    symbol ']'
    lineEnd
    return .table path name)

/-- Read the sections of a document; a byte order mark may stand first. -/
def sections : Reader Char (List Section) := do
  let _ ← optional (symbol '\uFEFF')
  let pairs ← sectionPairs
  let more ← many do
    let header ← header
    return { header, pairs := ← sectionPairs }
  return { header := .root, pairs } :: more

/-! ## Putting sections together -/

/-- Put the pairs of a section into a table. -/
def fill (pairs : List Pair) (body : Body) : Option Body :=
  pairs.foldlM Body.insert body

/-- The table that a section with a header fills: a new one, or one that was so
far only implied by the header of a deeper table. -/
def sectionBase? : Option Item → Option Body
  | none => some .empty
  | some (.table body) =>
      if body.isImplied && !body.isDotted then some (.mk false false body.entries) else none
  | some _ => none

/-- The elements to which a section adds one. -/
def elementsSoFar? : Option Item → Option (List Body)
  | none => some []
  | some (.tables bodies) => some bodies
  | some _ => none

/-- Put a section into the table of a document. -/
def place (root : Body) (part : Section) : Option Body :=
  match part.header with
  | .root => fill part.pairs root
  | .table path name =>
      Body.change false (fun parent => do
        let base ← sectionBase? (parent.find? name)
        some (parent.set name (.table (← fill part.pairs base)))) path root
  | .element path name =>
      Body.change false (fun parent => do
        let bodies ← elementsSoFar? (parent.find? name)
        some (parent.set name (.tables (bodies ++ [← fill part.pairs .empty])))) path root

/-- Read a document. -/
def readDocument? (text : String) : Option Value := do
  let parts ← readAll sections text.toList
  (← parts.foldlM place Body.empty).toValue

end MetricRates.Settings.Toml
