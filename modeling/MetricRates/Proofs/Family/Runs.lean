import Mathlib.Data.List.Induction
import MetricRates.Proofs.Family.AlignedTable
import MetricRates.Proofs.Results
import MetricRates.Proofs.Table.Shape

/-!
# Runs of operations on tables

Tables are built from parts, aligned from samples, arranged, scaled and made
into rates, in any order and any number of times.  What each operation does to
one table is enough to know what holds of every table that a run reaches.
-/

namespace MetricRates

open Time

/-! ## Operations -/

/-- What a table goes back to, whatever was done to its columns and its values
since. -/
inductive Origin where
  /-- Given parts. -/
  | parts
  /-- Samples that were aligned. -/
  | samples (leadingFill : LeadingFill)
  /-- The rates of the table at a position. -/
  | rates (source : Nat)

/-- A table that a run reaches. -/
structure Reached where
  origin : Origin
  table : Table Float

/-- An operation; the tables that it is applied to are known by their positions
in the order in which they were reached. -/
inductive Operation where
  | build (index : List Timestamp) (names : List String) (cells : List (List (Option Float)))
  | align (metric : String) (labels : LabelSet) (samples : List Sample)
      (aggregation : Aggregation) (leadingFill : LeadingFill)
  | arrange (source : Nat) (order : List String) (policy : OrderPolicy) (metric : String)
  | scale (source : Nat) (unitScale : Float)
  | rates (source : Nat) (window : Window) (unitScale : Float) (policy : ResetPolicy)
  | derive (source : Nat) (kind : MetricKind) (window : Window) (unitScale : Float)
      (policy : ResetPolicy)
  | realign (source : Nat) (metric : String) (labels : LabelSet) (aggregation : Aggregation)
      (leadingFill : LeadingFill)

/-- The aligned table of the samples of a metric whose labels count. -/
def alignSelected (metric : String) (labels : LabelSet) (samples : List Sample)
    (aggregation : Aggregation) (leadingFill : LeadingFill) : Except EngineError Reached :=
  (select metric labels samples).map fun selection =>
    ⟨.samples leadingFill, selection.align aggregation leadingFill⟩

/-- A derived table, which is the rates of its source or goes back to the same
origin. -/
def Reached.ofDerived (source : Nat) (given : Reached) : DerivedTable → Reached
  | .rates result => ⟨.rates source, result.table⟩
  | .readings table => { given with table }

/-- The table that an operation reaches, if there is a table at the position of
its source and the operation succeeds. -/
def Operation.result? (reached : List Reached) : Operation → Option Reached
  | .build index names cells =>
      (Table.ofParts index names cells).toOption.map fun table => ⟨.parts, table⟩
  | .align metric labels samples aggregation leadingFill =>
      (alignSelected metric labels samples aggregation leadingFill).toOption
  | .arrange source order policy metric =>
      reached[source]?.bind fun given =>
        (given.table.arrangeUnder order policy metric).toOption.map fun table =>
          { given with table }
  | .scale source unitScale =>
      reached[source]?.map fun given =>
        { given with table := scaleReadings unitScale given.table }
  | .rates source window unitScale policy =>
      reached[source]?.map fun given =>
        ⟨.rates source, (deriveRates window unitScale policy given.table).table⟩
  | .derive source kind window unitScale policy =>
      reached[source]?.map fun given =>
        .ofDerived source given (MetricRates.derive kind window unitScale policy given.table)
  | .realign source metric labels aggregation leadingFill =>
      reached[source]?.bind fun given =>
        (alignSelected metric labels (given.table.toSamples metric) aggregation
          leadingFill).toOption

/-- One operation after some tables were reached; an operation that fails reaches
no table. -/
def Operation.perform (reached : List Reached) (operation : Operation) : List Reached :=
  reached ++ (operation.result? reached).toList

/-- The tables that some operations reach, one after another. -/
def Operation.run (operations : List Operation) : List Reached :=
  operations.foldl Operation.perform []

/-! ## What holds of a table by its origin -/

/-- No cell of a table is absent. -/
def Table.Full (table : Table Float) : Prop :=
  ∀ column ∈ table.columns, ∀ cell ∈ column.cells, cell.isSome

/-- What is known of a table by its origin: aligned samples stay well aligned,
and rates are complete and stand at instants of the table that they were derived
from. -/
def Origin.Holds (reached : List Reached) (table : Table Float) : Origin → Prop
  | .parts => True
  | .samples leadingFill => table.WellAligned leadingFill
  | .rates source => table.Full ∧
      ∃ given, reached[source]? = some given ∧ table.index.Sublist given.table.index

namespace Origin.Holds

variable {reached : List Reached} {first second table : Table Float} {origin : Origin}

/-- Further tables do not matter. -/
theorem append (holds : origin.Holds reached table) (more : List Reached) :
    origin.Holds (reached ++ more) table := by
  cases origin with
  | parts => exact holds
  | samples leadingFill => exact holds
  | rates source =>
      obtain ⟨full, given, found, sublist⟩ := holds
      obtain ⟨inBounds, _⟩ := List.getElem?_eq_some_iff.mp found
      exact ⟨full, given, (List.getElem?_append_left inBounds).trans found, sublist⟩

theorem of_sameColumns (holds : origin.Holds reached first) (same : SameColumns second first) :
    origin.Holds reached second := by
  cases origin with
  | parts => trivial
  | samples leadingFill => exact holds.of_sameColumns same
  | rates source =>
      obtain ⟨full, given, found, sublist⟩ := holds
      exact ⟨fun column member => full column (same.columns.mem_iff.mp member), given, found,
        same.index ▸ sublist⟩

theorem mapPresent (holds : origin.Holds reached table) (f : Float → Float) :
    origin.Holds reached (table.mapPresent f) := by
  cases origin with
  | parts => trivial
  | samples leadingFill => exact Table.WellAligned.mapPresent holds f
  | rates source =>
      obtain ⟨full, given, found, sublist⟩ := holds
      refine ⟨?_, given, found, sublist⟩
      intro changed member cell inColumn
      obtain ⟨column, inTable, rfl⟩ := List.mem_map.mp member
      obtain ⟨value, inCells, rfl⟩ := List.mem_map.mp inColumn
      simpa using full column inTable value inCells

theorem deriveRates {source : Nat} {given : Reached} (found : reached[source]? = some given)
    (window : Window) (unitScale : Float) (policy : ResetPolicy) :
    (Origin.rates source).Holds reached
      (deriveRates window unitScale policy given.table).table := by
  refine ⟨?_, given, found, ?_⟩
  · intro column member cell inColumn
    rw [Table.columns_deriveRates] at member
    obtain ⟨old, inTable, rfl⟩ := List.mem_map.mp member
    obtain ⟨row, rated, rfl⟩ := List.mem_map.mp inColumn
    have hasRates := of_decide_eq_true (List.mem_filter.mp rated).2
    simpa [Column.rate?] using (hasRates.complete old inTable).1
  · rw [Table.index_deriveRates, ← Table.map_timeAt_range given.table]
    exact List.filter_sublist.map _

theorem align {metric : String} {labels : LabelSet} {samples : List Sample}
    {aggregation : Aggregation} {leadingFill : LeadingFill} {item : Reached}
    (aligned : (alignSelected metric labels samples aggregation leadingFill).toOption =
      some item) :
    item.origin.Holds reached item.table := by
  unfold alignSelected at aligned
  cases selected : select metric labels samples with
  | error cause =>
      rw [selected] at aligned
      cases aligned
  | ok selection =>
      rw [selected] at aligned
      cases aligned
      exact wellAligned_alignSamples aggregation leadingFill selection.samples_ne_nil

end Origin.Holds

/-! ## Runs -/

/-- Where each table is as its origin says, the table that an operation reaches is
so too. -/
theorem holds_of_result? {reached : List Reached} {operation : Operation} {item : Reached}
    (known : ∀ given ∈ reached, given.origin.Holds reached given.table)
    (result : operation.result? reached = some item) :
    item.origin.Holds reached item.table := by
  cases operation with
  | build index names cells =>
      obtain ⟨table, _, rfl⟩ := Option.map_eq_some_iff.mp result
      trivial
  | align metric labels samples aggregation leadingFill =>
      exact Origin.Holds.align result
  | arrange source order policy metric =>
      obtain ⟨given, found, arranged⟩ := Option.bind_eq_some_iff.mp result
      obtain ⟨table, succeeded, rfl⟩ := Option.map_eq_some_iff.mp arranged
      have same := sameColumns_of_arrangeUnder (toOption_eq_some_iff.mp succeeded)
      exact (known given (List.mem_of_getElem? found)).of_sameColumns same
  | scale source unitScale =>
      obtain ⟨given, found, rfl⟩ := Option.map_eq_some_iff.mp result
      exact (known given (List.mem_of_getElem? found)).mapPresent _
  | rates source window unitScale policy =>
      obtain ⟨given, found, rfl⟩ := Option.map_eq_some_iff.mp result
      exact Origin.Holds.deriveRates found window unitScale policy
  | derive source kind window unitScale policy =>
      obtain ⟨given, found, rfl⟩ := Option.map_eq_some_iff.mp result
      cases kind with
      | cumulative => exact Origin.Holds.deriveRates found window unitScale policy
      | instantaneous => exact (known given (List.mem_of_getElem? found)).mapPresent _
  | realign source metric labels aggregation leadingFill =>
      obtain ⟨given, _, aligned⟩ := Option.bind_eq_some_iff.mp result
      exact Origin.Holds.align aligned

/-- An operation leaves all tables as their origins say. -/
theorem holds_perform {reached : List Reached}
    (known : ∀ given ∈ reached, given.origin.Holds reached given.table)
    (operation : Operation) :
    ∀ item ∈ Operation.perform reached operation,
      item.origin.Holds (Operation.perform reached operation) item.table := by
  intro item member
  rcases List.mem_append.mp member with before | new
  · exact (known item before).append _
  · exact (holds_of_result? known (Option.mem_toList.mp new)).append _

theorem holds_run (operations : List Operation) :
    ∀ item ∈ Operation.run operations, item.origin.Holds (Operation.run operations) item.table := by
  -- A run goes on from what it reached before, so its last operation is taken off.
  induction operations using List.reverseRecOn with
  | nil => exact fun item member => absurd member List.not_mem_nil
  | append_singleton operations operation ih =>
      rw [Operation.run, List.foldl_append]
      exact holds_perform ih operation

/-- Every table that a run reaches is rectangular.  A table that goes back to
aligned samples has a row and a column, ascending instants, names without
repeats, a value in every row and column, and no absent cell after a value, or
none at all under the zero fill.  Rates have no absent cell and stand at instants
of the table that they were derived from, in their order.  Given parts are
refused exactly when they are not rectangular. -/
theorem run_keeps_tables_sound (operations : List Operation) :
    (∀ item ∈ Operation.run operations,
      Rectangular item.table.index item.table.names item.table.cells ∧
        item.origin.Holds (Operation.run operations) item.table) ∧
      ∀ index names (cells : List (List (Option Float))),
        (∃ table, Table.ofParts index names cells = .ok table) ↔
          Rectangular index names cells :=
  ⟨fun item member => ⟨item.table.rectangular_parts, holds_run operations item member⟩,
    fun _ _ _ => Table.exists_ofParts_iff⟩

/-- A run that aligns two samples, scales them, takes rates of the result, and
fails to arrange what is not there. -/
def scaledRates : List Operation :=
  [.align "m" ⟨["a"], by decide⟩ [⟨"m", "a", .clamp 1, 1.0⟩, ⟨"m", "a", .clamp 2, 4.0⟩]
      .last .absent,
    .scale 0 2.0, .rates 1 ⟨1, by decide⟩ 1.0 .skip, .arrange 7 [] .append "m"]

/-- The second table of `scaledRates` is well aligned, and the third one holds
the rates of the second. -/
theorem run_keeps_tables_sound_scaledRates :
    ∃ scaled rates, (Operation.run scaledRates)[1]? = some scaled ∧
      scaled.table.WellAligned .absent ∧
      (Operation.run scaledRates)[2]? = some rates ∧ rates.table.Full ∧
        rates.table.index.Sublist scaled.table.index := by
  have sound := (run_keeps_tables_sound scaledRates).1
  obtain ⟨scaled, rates, atOne, samples, atTwo, ofRates⟩ : ∃ scaled rates,
      (Operation.run scaledRates)[1]? = some scaled ∧ scaled.origin = .samples .absent ∧
        (Operation.run scaledRates)[2]? = some rates ∧ rates.origin = .rates 1 :=
    ⟨_, _, rfl, rfl, rfl, rfl⟩
  have scaledHolds := (sound scaled (List.mem_of_getElem? atOne)).2
  have ratesHold := (sound rates (List.mem_of_getElem? atTwo)).2
  rw [samples] at scaledHolds
  rw [ofRates] at ratesHold
  obtain ⟨full, given, found, sublist⟩ := ratesHold
  rw [atOne] at found
  cases found
  exact ⟨scaled, rates, atOne, scaledHolds, atTwo, full, sublist⟩

end MetricRates
