/-!
# Readers

A reader takes a value from the front of a list and passes on what follows, or
it fails.  A reader is repeated at most once for each symbol, so repetition
always ends.
-/

namespace MetricRates.Text

/-- A reader of values of a type from lists of symbols. -/
abbrev Reader (σ α : Type) := StateT (List σ) Option α

namespace Reader

variable {σ α β : Type}

/-- The values that a reader takes one after another, up to a number of them,
and what follows them. -/
def repeatUpTo (read : Reader σ α) : Nat → List σ → List α × List σ
  | 0, input => ([], input)
  | limit + 1, input =>
      match read input with
      | none => ([], input)
      | some (value, rest) =>
          let (values, rest) := repeatUpTo read limit rest
          (value :: values, rest)

/-- Read as many values as there are.  A reader that always takes something
takes no more values than there are symbols. -/
def many (read : Reader σ α) : Reader σ (List α) := fun input =>
  some (repeatUpTo read input.length input)

/-- Read one symbol. -/
def next : Reader σ σ
  | [] => none
  | symbol :: rest => some (symbol, rest)

/-- Read one symbol that satisfies a test. -/
def satisfying (test : σ → Bool) : Reader σ σ
  | [] => none
  | symbol :: rest => if test symbol then some (symbol, rest) else none

/-- Read the longest run of symbols that satisfy a test. -/
def run (test : σ → Bool) : Reader σ (List σ) := fun input =>
  some (input.takeWhile test, input.dropWhile test)

/-- Read a number of values. -/
def times (read : Reader σ α) : Nat → Reader σ (List α)
  | 0 => return []
  | count + 1 => do
      let value ← read
      return value :: (← times read count)

/-- Read the given symbol. -/
def symbol [BEq σ] (wanted : σ) : Reader σ Unit
  | [] => none
  | first :: rest => if first == wanted then some ((), rest) else none

/-- Read the given symbols. -/
def word [BEq σ] : List σ → Reader σ Unit
  | [] => fun input => some ((), input)
  | wanted :: more => do
      symbol wanted
      word more

/-- Read one or more values with separators between them. -/
def separated1 (read : Reader σ α) (separator : Reader σ β) : Reader σ (List α) := do
  let first ← read
  let more ← many do
    let _ ← separator
    read
  return first :: more

/-- Read values with separators between them. -/
def separated (read : Reader σ α) (separator : Reader σ β) : Reader σ (List α) := do
  return (← optional (separated1 read separator)).getD []

/-- Succeed at the end of the input. -/
def atEnd : Reader σ Unit
  | [] => some ((), [])
  | _ :: _ => none

/-- What a reader makes of a whole list. -/
def readAll (read : Reader σ α) (input : List σ) : Option α :=
  match read input with
  | some (value, []) => some value
  | _ => none

end Reader

end MetricRates.Text
