import MetricRates.Family.Output

/-!
# The stages of a family

A family without a recognized sample is an error.  Otherwise its recognized
samples are aligned, and the output follows from the arranged table, or the
table cannot be arranged.
-/

namespace MetricRates.FamilySpec

variable (spec : FamilySpec)

/-- The samples that count for a family, in input order. -/
def recognized (samples : List Sample) : List Sample :=
  recognizedSamples spec.metric spec.labels samples

/-- The aligned table of a family, before its columns are arranged. -/
def aligned (samples : List Sample) : Table Float :=
  alignSamples spec.aggregation spec.leadingFill (spec.recognized samples)

/-- The output of a family whose aligned table is arranged. -/
def outputOf (samples : List Sample) (arranged : Table Float) : FamilyOutput where
  name := spec.name
  metric := spec.metric
  derived := spec.derive arranged
  filteredSamples := (spec.recognized samples).length
  alignedRows := arranged.rowCount
  ignoredLabels := foreignLabels spec.metric spec.labels samples

variable {spec} {samples : List Sample}

/-- A sample counts when it is one of the metric and its label is listed. -/
theorem mem_recognized {sample : Sample} :
    sample ∈ spec.recognized samples ↔
      sample ∈ samples ∧ sample.metric = spec.metric ∧ sample.label ∈ spec.labels := by
  simp [recognized, recognizedSamples, samplesOf, and_assoc, and_comm]

theorem process_of_unrecognized (unrecognized : spec.recognized samples = []) :
    spec.process samples = .error (.emptyInput spec.metric) := by
  have failed := select_eq_error_iff.mpr ⟨unrecognized, rfl⟩
  rw [process, failed]
  rfl

theorem process_of_recognized (recognized : spec.recognized samples ≠ []) :
    spec.process samples =
      (spec.arrange (spec.aligned samples)).map (spec.outputOf samples) := by
  have selected : select spec.metric spec.labels samples =
      .ok { metric := spec.metric, samples := spec.recognized samples,
            ignoredLabels := foreignLabels spec.metric spec.labels samples,
            samples_ne_nil := recognized } :=
    dif_pos recognized
  rw [process, selected]
  change (spec.arrange (spec.aligned samples) >>= fun arranged =>
    pure (spec.outputOf samples arranged)) = _
  cases spec.arrange (spec.aligned samples) <;> rfl

/-- A family has an output exactly when a sample counts and the aligned table
can be arranged. -/
theorem process_eq_ok_iff {output : FamilyOutput} :
    spec.process samples = .ok output ↔
      spec.recognized samples ≠ [] ∧
        ∃ arranged, spec.arrange (spec.aligned samples) = .ok arranged ∧
          spec.outputOf samples arranged = output := by
  by_cases unrecognized : spec.recognized samples = []
  · simp [process_of_unrecognized unrecognized, unrecognized]
  · rw [process_of_recognized unrecognized]
    cases spec.arrange (spec.aligned samples) with
    | error cause => simp [Except.map]
    | ok arranged => simp [Except.map, unrecognized]

end MetricRates.FamilySpec
