import MetricRates.Event
import MetricRates.Table.Basic
import MetricRates.Text.Named

/-!
# Arranging columns

The columns of a table are arranged by a list of labels: each listed label
takes the first column of its name, and the columns that are left over follow
in their own order.  The strict policy accepts neither a listed label without a
column nor a column that is left over.
-/

namespace MetricRates

variable {α : Type}

/-- What becomes of a difference between a column order and the data. -/
inductive OrderPolicy where
  /-- Columns that are not listed follow the listed ones. -/
  | append
  /-- A difference is an error. -/
  | strict
  deriving DecidableEq, Repr

instance : Named OrderPolicy where
  values := [.append, .strict]
  name
    | .append => "append"
    | .strict => "strict"

/-- The first column with a name. -/
def firstNamed? (columns : List (Column α)) (name : String) : Option (Column α) :=
  columns.find? fun column => column.name == name

/-- The columns that some labels without repeats take, in the order of the
labels. -/
def placedColumns (labels : List String) (columns : List (Column α)) : List (Column α) :=
  labels.filterMap (firstNamed? columns)

/-- The columns that are left over when each label has taken the first column
of its name. -/
def leftColumns : List String → List (Column α) → List (Column α)
  | _, [] => []
  | labels, column :: rest =>
      if column.name ∈ labels then leftColumns (labels.erase column.name) rest
      else column :: leftColumns labels rest

theorem mem_of_mem_leftColumns {labels : List String} {columns : List (Column α)}
    {column : Column α} (member : column ∈ leftColumns labels columns) : column ∈ columns := by
  fun_induction leftColumns labels columns with
  | case1 => exact member
  | case2 labels head rest _ ih => exact List.mem_cons_of_mem _ (ih member)
  | case3 labels head rest _ ih =>
      rcases List.mem_cons.mp member with rfl | member
      · exact List.mem_cons_self
      · exact List.mem_cons_of_mem _ (ih member)

theorem mem_of_mem_placedColumns {labels : List String} {columns : List (Column α)}
    {column : Column α} (member : column ∈ placedColumns labels columns) :
    column ∈ columns := by
  obtain ⟨label, _, found⟩ := List.mem_filterMap.mp member
  exact List.mem_of_find?_eq_some found

/-- The listed labels that no column carries, in the order of listing. -/
def missingLabels (order : List String) (columns : List (Column α)) : List String :=
  order.filter fun label => (firstNamed? columns label).isNone

namespace Table

/-- The table with its columns arranged by a list of labels; every column is
kept. -/
def arrange (order : List String) (table : Table α) : Table α where
  index := table.index
  columns := placedColumns order.eraseDups table.columns ++
    leftColumns order.eraseDups table.columns
  rectangular := by
    intro column member
    refine table.rectangular column ?_
    rcases List.mem_append.mp member with placed | left
    · exact mem_of_mem_placedColumns placed
    · exact mem_of_mem_leftColumns left

/-- The difference between a list of labels and the columns that comes first:
listed labels without a column come before columns that are left over. -/
def orderFault? (order : List String) (metric : String) (table : Table α) :
    Option EngineError :=
  match missingLabels order table.columns with
  | label :: _ => some (.missingFromData metric label)
  | [] =>
      match leftColumns order.eraseDups table.columns with
      | column :: _ => some (.unlistedInOrder metric column.name)
      | [] => none

/-- Arrange the columns under a policy. -/
def arrangeUnder (order : List String) (policy : OrderPolicy) (metric : String)
    (table : Table α) : Except EngineError (Table α) :=
  match policy, table.orderFault? order metric with
  | .strict, some fault => .error fault
  | _, _ => .ok (table.arrange order)

/-- The events of arranging: under the append policy one for each listed label
without a column. -/
def arrangeEvents (order : List String) (policy : OrderPolicy) (metric : String)
    (table : Table α) : List Event :=
  match policy with
  | .strict => []
  | .append =>
      (missingLabels order table.columns).map fun label =>
        .debug ("Canonical label '" ++ label ++ "' never seen in '" ++ metric ++ "'; skipped")

@[simp]
theorem index_arrange (order : List String) (table : Table α) :
    (table.arrange order).index = table.index := rfl

/-- Appending what is not listed never fails. -/
@[simp]
theorem arrangeUnder_append (order : List String) (metric : String) (table : Table α) :
    table.arrangeUnder order .append metric = .ok (table.arrange order) := rfl

end Table

end MetricRates
