import MetricRates.Event
import MetricRates.Error
import MetricRates.Family.Labels
import MetricRates.Sample

/-!
# Selecting the samples of a family

The samples of a metric are sorted into those whose label counts and those
whose label does not.  A family without any sample that counts is an error.
-/

namespace MetricRates

/-- The samples of one metric whose labels count, in input order, and the other
labels of the metric. -/
structure Selection where
  metric : String
  samples : List Sample
  ignoredLabels : LabelSet
  samples_ne_nil : samples ≠ []
  deriving DecidableEq

/-- The samples of a metric. -/
def samplesOf (metric : String) (samples : List Sample) : List Sample :=
  samples.filter fun sample => sample.metric == metric

/-- The samples of a metric whose labels count. -/
def recognizedSamples (metric : String) (labels : LabelSet) (samples : List Sample) :
    List Sample :=
  (samplesOf metric samples).filter fun sample => decide (sample.label ∈ labels)

/-- The labels of a metric that do not count. -/
def foreignLabels (metric : String) (labels : LabelSet) (samples : List Sample) :
    LabelSet :=
  .ofList (((samplesOf metric samples).filter fun sample =>
    !decide (sample.label ∈ labels)).map Sample.label)

/-- Select the samples of a metric by their labels. -/
def select (metric : String) (labels : LabelSet) (samples : List Sample) :
    Except EngineError Selection :=
  if nonempty : recognizedSamples metric labels samples ≠ [] then
    .ok { metric, samples := recognizedSamples metric labels samples,
          ignoredLabels := foreignLabels metric labels samples,
          samples_ne_nil := nonempty }
  else
    .error (.emptyInput metric)

/-- The events of a selection. -/
def selectEvents (metric : String) (labels : LabelSet) (samples : List Sample) :
    List Event :=
  let named := (samplesOf metric samples).length
  let kept := (recognizedSamples metric labels samples).length
  let ignored := foreignLabels metric labels samples
  .debug ("Metric '" ++ metric ++ "': kept " ++ toString kept ++ " of " ++ toString named ++
      " samples by label") ::
    if ignored.isEmpty then []
    else
      [.warn ("Metric '" ++ metric ++ "': ignored " ++ toString (named - kept) ++
        " samples with labels outside the allow-list: " ++
        String.intercalate ", " ignored.members)]

/-- Selecting fails exactly when no sample counts. -/
theorem select_eq_error_iff {metric : String} {labels : LabelSet} {samples : List Sample}
    {cause : EngineError} :
    select metric labels samples = .error cause ↔
      recognizedSamples metric labels samples = [] ∧ cause = .emptyInput metric := by
  unfold select
  split
  · rename_i nonempty
    simp [nonempty]
  · rename_i empty
    rw [Except.error.injEq, eq_comm]
    exact ⟨fun same => ⟨Decidable.not_not.mp empty, same⟩, And.right⟩

end MetricRates
