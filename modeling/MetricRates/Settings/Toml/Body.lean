import MetricRates.Settings.Value
import MetricRates.Text.Entries

/-!
# Tables under construction

A table is built up from the pairs and sections of a document.  Which tables
may still be added to depends on how they came about: a table can be implied by
a longer path, or by a dotted key.
-/

namespace MetricRates.Settings.Toml

mutual

/-- What stands under a name in a table. -/
inductive Item where
  | value (value : Value)
  | table (body : Body)
  /-- The elements of an array of tables. -/
  | tables (bodies : List Body)

/-- A table: whether it is only implied, whether by a dotted key, and its
entries. -/
inductive Body where
  | mk (implied dotted : Bool) (entries : List (String × Item))

end

namespace Body

/-- The empty table of a section or between braces. -/
def empty : Body := .mk false false []

/-- Whether a table is only implied. -/
def isImplied : Body → Bool
  | .mk implied _ _ => implied

/-- Whether a table is implied by a dotted key. -/
def isDotted : Body → Bool
  | .mk _ dotted _ => dotted

/-- The entries of a table. -/
def entries : Body → List (String × Item)
  | .mk _ _ entries => entries

/-- What stands under a name. -/
def find? (body : Body) (name : String) : Option Item :=
  body.entries.lookup name

/-- The table with an item under a name. -/
def set (name : String) (item : Item) : Body → Body
  | .mk implied dotted entries => .mk implied dotted (Text.putEntry name item entries)

/-- Change the last of some tables. -/
def changeLast (change : Body → Option Body) (bodies : List Body) : Option (List Body) := do
  let last ← bodies.getLast?
  some (bodies.dropLast ++ [← change last])

/-- Change the item under a name so that a table in it is changed: the table
itself, or the last one of an array of tables.  Where nothing stands a table is
implied.  A dotted key only goes through implied tables. -/
def changeItem (dotted : Bool) (change : Body → Option Body) : Option Item → Option Item
  | none => (change (.mk true dotted [])).map .table
  | some (.table body) =>
      if dotted && !body.isImplied then none else (change body).map .table
  | some (.tables bodies) => (changeLast change bodies).map .tables
  | some (.value _) => none

/-- Change the table at the end of a path. -/
def change (dotted : Bool) (last : Body → Option Body) : List String → Body → Option Body
  | [], body => last body
  | name :: path, body =>
      (changeItem dotted (change dotted last path) (body.find? name)).map fun item =>
        body.set name item

/-- Put a value under a name that is still free. -/
def insertNew (path : List String) (name : String) (value : Value) (body : Body) :
    Option Body :=
  if body.isDotted == path.isEmpty || (body.find? name).isSome then none
  else some (body.set name (.value value))

/-- Put a value under a key. -/
def insert (body : Body) (pair : (List String × String) × Value) : Option Body :=
  change true (insertNew pair.1.1 pair.1.2 pair.2) pair.1.1 body

end Body

mutual

/-- The value of an item. -/
def Item.toValue : Item → Value
  | .value value => value
  | .table body => body.toValue
  | .tables bodies => .array (bodyValues bodies)

/-- The value of a table. -/
def Body.toValue : Body → Value
  | .mk _ _ entries => .table (entryFields entries)

/-- The values of some tables. -/
def bodyValues : List Body → List Value
  | [] => []
  | body :: rest => body.toValue :: bodyValues rest

/-- The fields of some entries. -/
def entryFields : List (String × Item) → List (String × Value)
  | [] => []
  | (name, item) :: rest => (name, item.toValue) :: entryFields rest

end

end MetricRates.Settings.Toml
