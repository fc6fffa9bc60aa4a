import Mathlib.Data.List.Forall2
import MetricRates.Proofs.Family.Observations
import MetricRates.Proofs.Text.ByteOrder

/-!
# Aligned cells hold the latest observation

Going through the instants in order and carrying the last observation forward
puts into each cell the latest observation up to its instant, whatever the
instants at which the other labels were sampled.
-/

namespace MetricRates

open Time

/-! ## The latest observation -/

/-- The last of some observations up to an instant. -/
def latestUpTo (observed : List Observation) (time : Timestamp) : Option Observation :=
  (observed.filter fun observation => decide (observation.time ≤ time)).getLast?

theorem latestUpTo_of_later {observed : List Observation} {time : Timestamp}
    (later : ∀ observation ∈ observed, time < observation.time) :
    latestUpTo observed time = none := by
  rw [latestUpTo, List.getLast?_eq_none_iff, List.filter_eq_nil_iff]
  intro observation member upTo
  exact Timestamp.not_le.mpr (later observation member) (of_decide_eq_true upTo)

theorem latestUpTo_cons_of_le {observation : Observation} {time : Timestamp}
    (later : List Observation) (upTo : observation.time ≤ time) :
    latestUpTo (observation :: later) time = (latestUpTo later time).or (some observation) := by
  rw [latestUpTo, List.filter_cons_of_pos (by simpa using upTo), List.getLast?_cons,
    Option.or_some]
  rfl

/-- Instants of later observations stand behind the first instant. -/
theorem inIndex_of_later {time : Timestamp} {index : List Timestamp}
    {observed : List Observation} (later : ∀ observation ∈ observed, time < observation.time)
    (inIndex : ∀ observation ∈ observed, observation.time ∈ time :: index) :
    ∀ observation ∈ observed, observation.time ∈ index := by
  intro observation member
  rcases List.mem_cons.mp (inIndex observation member) with same | found
  · exact absurd same.symm (Timestamp.ne_of_lt (later observation member))
  · exact found

/-- Carrying forward puts the latest observation up to its instant into each
cell, and before the first one what was carried at the start. -/
theorem carryForward_eq_map {carried : Option Float} {index : List Timestamp}
    {observed : List Observation} (indexAscending : index.Pairwise (· < ·))
    (observedAscending : observed.Pairwise fun a b => a.time < b.time)
    (inIndex : ∀ observation ∈ observed, observation.time ∈ index) :
    carryForward carried index observed =
      index.map fun time => ((latestUpTo observed time).map Observation.value).or carried := by
  fun_induction carryForward carried index observed with
  | case1 => rfl
  | case2 carried time index ih =>
      rw [ih indexAscending.of_cons .nil (by simp)]
      rfl
  | case3 carried index observation later ih =>
      obtain ⟨indexLater, indexAscending⟩ := List.pairwise_cons.mp indexAscending
      obtain ⟨observedLater, observedAscending⟩ := List.pairwise_cons.mp observedAscending
      have laterInIndex := inIndex_of_later observedLater fun other member =>
        inIndex other (List.mem_cons_of_mem _ member)
      rw [ih indexAscending observedAscending laterInIndex, List.map_cons,
        latestUpTo_cons_of_le later (Timestamp.le_refl _), latestUpTo_of_later observedLater]
      congr 1
      apply List.map_congr_left
      intro time member
      rw [latestUpTo_cons_of_le later (Timestamp.le_of_lt (indexLater time member))]
      cases latestUpTo later time <;> rfl
  | case4 carried time index observation later differs ih =>
      obtain ⟨indexLater, indexAscending⟩ := List.pairwise_cons.mp indexAscending
      have found : observation.time ∈ index :=
        (List.mem_cons.mp (inIndex observation List.mem_cons_self)).resolve_left differs
      have observedLater : ∀ other ∈ observation :: later, time < other.time := by
        intro other member
        rcases List.mem_cons.mp member with rfl | member
        · exact indexLater _ found
        · exact Timestamp.lt_trans (indexLater _ found)
            ((List.pairwise_cons.mp observedAscending).1 other member)
      rw [ih indexAscending observedAscending (inIndex_of_later observedLater inIndex),
        List.map_cons, latestUpTo_of_later observedLater]
      rfl

theorem time_le_of_getLast? {observed : List Observation} {last observation : Observation}
    (ascending : observed.Pairwise fun a b => a.time < b.time)
    (isLast : observed.getLast? = some last) (member : observation ∈ observed) :
    observation.time ≤ last.time := by
  obtain ⟨before, rfl⟩ := List.getLast?_eq_some_iff.mp isLast
  rcases List.mem_append.mp member with early | atEnd
  · exact Timestamp.le_of_lt
      ((List.pairwise_append.mp ascending).2.2 observation early last (List.mem_singleton_self _))
  · rw [List.mem_singleton.mp atEnd]
    exact Timestamp.le_refl _

/-! ## Cells -/

/-- The latest instant up to a given one at which a label was sampled. -/
structure IsLatest (samples : List Sample) (label : String) (time latest : Timestamp) :
    Prop where
  sampled : ∃ sample ∈ samples, sample.label = label ∧ sample.time = latest
  upTo : latest ≤ time
  greatest : ∀ sample ∈ samples, sample.label = label → sample.time ≤ time →
    sample.time ≤ latest

/-- What an aligned table holds for a label at an instant: what the values of
the label at its latest instant amount to, or where the label has not been
sampled yet nothing or zero, as the leading fill says. -/
inductive AlignedCell (aggregation : Aggregation) (leadingFill : LeadingFill)
    (samples : List Sample) (label : String) (time : Timestamp) : Option Float → Prop
  | observed {latest : Timestamp} (isLatest : IsLatest samples label time latest) :
      AlignedCell aggregation leadingFill samples label time
        (some (aggregation.reduce (valuesAt samples label latest)))
  | leadingAbsent (fill : leadingFill = .absent)
      (unsampled : ∀ sample ∈ samples, sample.label = label → time < sample.time) :
      AlignedCell aggregation leadingFill samples label time none
  | leadingZero (fill : leadingFill = .zero)
      (unsampled : ∀ sample ∈ samples, sample.label = label → time < sample.time) :
      AlignedCell aggregation leadingFill samples label time (some 0.0)

/-- What an aligned table holds for a label at an instant, as it is computed. -/
def cellUpTo (aggregation : Aggregation) (leadingFill : LeadingFill) (samples : List Sample)
    (label : String) (time : Timestamp) : Option Float :=
  ((latestUpTo (observations aggregation label samples) time).map
    Observation.value).or leadingFill.cell

theorem alignedCell_cellUpTo (aggregation : Aggregation) (leadingFill : LeadingFill)
    (samples : List Sample) (label : String) (time : Timestamp) :
    AlignedCell aggregation leadingFill samples label time
      (cellUpTo aggregation leadingFill samples label time) := by
  rw [cellUpTo]
  have observedAt {sample : Sample} (member : sample ∈ samples) (named : sample.label = label) :
      ∃ observation ∈ observations aggregation label samples, observation.time = sample.time :=
    ⟨⟨sample.time, aggregation.reduce (valuesAt samples label sample.time)⟩,
      mem_observations_iff.mpr ⟨⟨sample, member, named, rfl⟩, rfl⟩, rfl⟩
  cases latest : latestUpTo (observations aggregation label samples) time with
  | none =>
      rw [latestUpTo, List.getLast?_eq_none_iff, List.filter_eq_nil_iff] at latest
      have unsampled : ∀ sample ∈ samples, sample.label = label → time < sample.time := by
        intro sample member named
        obtain ⟨observation, found, atTime⟩ := observedAt member named
        have after := latest observation found
        rw [decide_eq_true_eq, Timestamp.not_le, atTime] at after
        exact after
      cases leadingFill with
      | absent => exact .leadingAbsent rfl unsampled
      | zero => exact .leadingZero rfl unsampled
  | some observation =>
      obtain ⟨found, upTo⟩ := List.mem_filter.mp (List.mem_of_getLast? latest)
      obtain ⟨sampled, reduced⟩ := mem_observations_iff.mp found
      have ascending := (observations_ascending aggregation label samples).filter
        fun other => decide (other.time ≤ time)
      rw [Option.map_some, Option.some_or, reduced]
      apply AlignedCell.observed
      refine ⟨sampled, of_decide_eq_true upTo, fun sample member named before => ?_⟩
      obtain ⟨other, otherFound, atTime⟩ := observedAt member named
      rw [← atTime] at before ⊢
      apply time_le_of_getLast? ascending latest
      exact List.mem_filter.mpr ⟨otherFound, decide_eq_true before⟩

/-! ## The aligned table -/

theorem sampledTimes_ascending (samples : List Sample) :
    (sampledTimes samples).Pairwise (· < ·) := by
  have sorted := @List.pairwise_mergeSort Timestamp (fun a b => decide (a ≤ b))
    (by simpa using fun a b c => Timestamp.le_trans)
    (by simpa using Timestamp.le_total) (samples.map Sample.time)
  refine pairwise_dropRepeats (r := fun a b => decide (a ≤ b) = true) ?_ ?_ sorted
  · intro a b le distinct
    exact Timestamp.lt_of_le_of_ne (of_decide_eq_true le) distinct
  · rintro a b c first second distinct rfl
    exact distinct (Timestamp.le_antisymm (of_decide_eq_true first) (of_decide_eq_true second))

theorem mem_sampledTimes {samples : List Sample} {time : Timestamp} :
    time ∈ sampledTimes samples ↔ ∃ sample ∈ samples, sample.time = time := by
  simp [sampledTimes]

theorem mem_sampledLabels {samples : List Sample} {label : String} :
    label ∈ (sampledLabels samples).members ↔ ∃ sample ∈ samples, sample.label = label := by
  simp [sampledLabels, LabelSet.ofList]

theorem carryForward_observations (aggregation : Aggregation) (leadingFill : LeadingFill)
    (samples : List Sample) (label : String) :
    carryForward leadingFill.cell (sampledTimes samples)
        (observations aggregation label samples) =
      (sampledTimes samples).map (cellUpTo aggregation leadingFill samples label) := by
  apply carryForward_eq_map (sampledTimes_ascending samples)
    (observations_ascending aggregation label samples)
  intro observation member
  obtain ⟨sample, inSamples, _, atTime⟩ := (mem_observations_iff.mp member).1
  exact mem_sampledTimes.mpr ⟨sample, inSamples, atTime⟩

/-- The cells of a column of an aligned table are those of its label. -/
theorem alignedCells (aggregation : Aggregation) (leadingFill : LeadingFill)
    (samples : List Sample) (label : String) :
    List.Forall₂ (AlignedCell aggregation leadingFill samples label) (sampledTimes samples)
      (carryForward leadingFill.cell (sampledTimes samples)
        (observations aggregation label samples)) := by
  rw [carryForward_observations, List.forall₂_map_right_iff, List.forall₂_same]
  exact fun time _ => alignedCell_cellUpTo aggregation leadingFill samples label time

/-- An aligned table has one row for each instant of a sample, ascending, and one
column for each label of a sample, in the order of the bytes of the labels; each
cell holds the latest observation of its label up to its instant. -/
theorem align_latest_observations (selection : Selection) (aggregation : Aggregation)
    (leadingFill : LeadingFill) :
    let table := selection.align aggregation leadingFill
    table.index.Pairwise (· < ·) ∧
      (∀ time, time ∈ table.index ↔ ∃ sample ∈ selection.samples, sample.time = time) ∧
      table.names.Pairwise Text.ByteLess ∧
      (∀ label, label ∈ table.names ↔ ∃ sample ∈ selection.samples, sample.label = label) ∧
      ∀ column ∈ table.columns,
        List.Forall₂ (AlignedCell aggregation leadingFill selection.samples column.name)
          table.index column.cells := by
  refine ⟨sampledTimes_ascending _, fun _ => mem_sampledTimes, ?_, ?_, ?_⟩
  · rw [Selection.align, names_alignSamples]
    exact (sampledLabels selection.samples).ascending.imp Text.lt_iff_byteLess.mp
  · intro label
    rw [Selection.align, names_alignSamples]
    exact mem_sampledLabels
  · intro column member
    obtain ⟨label, _, rfl⟩ := List.mem_map.mp member
    exact alignedCells aggregation leadingFill selection.samples label

/-- A label that is not sampled at the first instant, and twice at the second
one. -/
def lateLabel : Selection where
  metric := "m"
  samples :=
    [⟨"m", "a", .clamp 1, 1.0⟩, ⟨"m", "b", .clamp 2, 4.0⟩, ⟨"m", "b", .clamp 2, 8.0⟩]
  ignoredLabels := .ofList []
  samples_ne_nil := List.cons_ne_nil _ _

/-- The label `b` of `lateLabel` has the leading fill and then the mean of its
two values. -/
theorem align_latest_observations_lateLabel :
    (⟨"b", [some 0.0, some 6.0]⟩ : Column Float) ∈ (lateLabel.align .mean .zero).columns ∧
      List.Forall₂ (AlignedCell .mean .zero lateLabel.samples "b")
        (lateLabel.align .mean .zero).index [some 0.0, some 6.0] := by
  have times : sampledTimes lateLabel.samples = [.clamp 1, .clamp 2] := by
    rw [sampledTimes, sortedMembers, List.mergeSort_of_pairwise (by decide)]
    decide
  have observed : observations .mean "b" lateLabel.samples = [⟨.clamp 2, 6.0⟩] := by
    rw [observations, byTime, List.mergeSort_of_pairwise (by decide)]
    decide +kernel
  have labelled : "b" ∈ (sampledLabels lateLabel.samples).members :=
    mem_sampledLabels.mpr ⟨⟨"m", "b", .clamp 2, 4.0⟩, by decide, rfl⟩
  have cells : carryForward LeadingFill.zero.cell (sampledTimes lateLabel.samples)
      (observations .mean "b" lateLabel.samples) = [some 0.0, some 6.0] := by
    rw [times, observed]
    decide
  have member : (⟨"b", [some 0.0, some 6.0]⟩ : Column Float) ∈
      (lateLabel.align .mean .zero).columns :=
    List.mem_map.mpr ⟨"b", labelled, congrArg (Column.mk "b") cells⟩
  exact ⟨member, (align_latest_observations lateLabel .mean .zero).2.2.2.2 _ member⟩

end MetricRates
