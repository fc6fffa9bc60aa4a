import MetricRates.Proofs.Family.AlignedTable
import MetricRates.Proofs.Table.OrderFault

/-!
# When a family fails

A family fails when none of its samples counts, or when its columns have to be
those of an order and are not.  Otherwise it has an output, with one column for
each of its labels that was observed.
-/

namespace MetricRates

/-! ## Arranging under a policy -/

namespace Table

variable {α : Type} {order : List String} {policy : OrderPolicy} {metric : String}
  {table : Table α}

/-- Only the strict policy fails, and it fails for the fault of the order. -/
theorem arrangeUnder_eq_error_iff {cause : EngineError} :
    table.arrangeUnder order policy metric = .error cause ↔
      policy = .strict ∧ table.orderFault? order metric = some cause := by
  cases policy with
  | append => simp
  | strict => cases fault : table.orderFault? order metric <;> simp [arrangeUnder, fault]

/-- An order has a fault when it lists other labels than the names of the
columns. -/
theorem exists_orderFault_iff (ascending : table.names.Pairwise (· < ·)) :
    (∃ cause, OrderFault (· ∈ table.names) order metric cause) ↔
      ∃ label, ¬ (label ∈ order ↔ label ∈ table.names) := by
  have distinct : table.names.Nodup := nodup_of_ascending (fun _ _ => String.lt_asymm) ascending
  have agrees := @orderFault?_eq_none_iff α order metric table distinct
  simp only [← orderFault?_eq_some_iff ascending, ← Option.isSome_iff_exists, ← not_forall,
    ← agrees, Option.isSome_iff_ne_none, ne_eq]

end Table

namespace FamilySpec

variable {spec : FamilySpec} {samples : List Sample}

/-! ## What counts -/

/-- A sample counts for a family when it is one of the metric and its label is
listed. -/
def Counts (spec : FamilySpec) (sample : Sample) : Prop :=
  sample.metric = spec.metric ∧ sample.label ∈ spec.labels

instance (spec : FamilySpec) (sample : Sample) : Decidable (spec.Counts sample) :=
  inferInstanceAs (Decidable (_ ∧ _))

/-- A label of a family is observed when a sample that counts has it. -/
def Observes (spec : FamilySpec) (samples : List Sample) (label : String) : Prop :=
  ∃ sample ∈ samples, spec.Counts sample ∧ sample.label = label

instance (spec : FamilySpec) (samples : List Sample) (label : String) :
    Decidable (spec.Observes samples label) :=
  inferInstanceAs (Decidable (∃ sample ∈ samples, _))

/-- The columns of a family have to be those of an order. -/
def IsBoundTo (spec : FamilySpec) (order : List String) : Prop :=
  spec.columnOrder = some order ∧ spec.orderPolicy = .strict

theorem recognized_eq_filter (spec : FamilySpec) (samples : List Sample) :
    spec.recognized samples = samples.filter fun sample => decide (spec.Counts sample) := by
  rw [recognized, recognizedSamples, samplesOf, List.filter_filter]
  apply List.filter_congr
  intro sample _
  rw [Bool.eq_iff_iff, decide_eq_true_iff]
  simp [Counts, and_comm]

theorem recognized_eq_nil_iff :
    spec.recognized samples = [] ↔ ¬ ∃ sample ∈ samples, spec.Counts sample := by
  simp [recognized_eq_filter]

theorem ascending_names_aligned (spec : FamilySpec) (samples : List Sample) :
    (spec.aligned samples).names.Pairwise (· < ·) := by
  rw [aligned, names_alignSamples]
  exact (sampledLabels _).ascending

/-- The aligned table has a column for each observed label. -/
theorem mem_names_aligned {label : String} :
    label ∈ (spec.aligned samples).names ↔ spec.Observes samples label := by
  rw [aligned, names_alignSamples, mem_sampledLabels]
  simp only [mem_recognized, Observes, Counts, and_assoc]

theorem observes_eq (spec : FamilySpec) (samples : List Sample) :
    spec.Observes samples = (· ∈ (spec.aligned samples).names) :=
  funext fun _ => propext mem_names_aligned.symm

/-! ## Errors -/

theorem arrange_eq_error_iff {table : Table Float} {cause : EngineError} :
    spec.arrange table = .error cause ↔
      ∃ order, spec.IsBoundTo order ∧ table.orderFault? order spec.metric = some cause := by
  unfold arrange IsBoundTo
  cases spec.columnOrder with
  | none => simp
  | some order => simp [Table.arrangeUnder_eq_error_iff]

/-- The error of a family without a sample that counts, or of one that is bound
to an order that is not met. -/
theorem process_eq_error_iff {cause : EngineError} :
    spec.process samples = .error cause ↔
      (spec.recognized samples = [] ∧ cause = .emptyInput spec.metric) ∨
        (spec.recognized samples ≠ [] ∧ ∃ order, spec.IsBoundTo order ∧
          OrderFault (spec.Observes samples) order spec.metric cause) := by
  by_cases unrecognized : spec.recognized samples = []
  · simp [process_of_unrecognized unrecognized, unrecognized, eq_comm]
  · have arranged := @arrange_eq_error_iff spec (spec.aligned samples) cause
    simp only [Table.orderFault?_eq_some_iff (ascending_names_aligned spec samples),
      ← observes_eq] at arranged
    rw [process_of_recognized unrecognized]
    simp only [unrecognized, false_and, ne_eq, not_false_eq_true, true_and, false_or, ← arranged]
    cases spec.arrange (spec.aligned samples) <;> simp [Except.map]

/-! ## Outputs -/

/-- The output of a family counts the samples that count, and has one column for
each observed label. -/
theorem columns_of_process {output : FamilyOutput}
    (processed : spec.process samples = .ok output) :
    output.filteredSamples = samples.countP (fun sample => decide (spec.Counts sample)) ∧
      output.derived.table.names.Nodup ∧
        ∀ label, label ∈ output.derived.table.names ↔ spec.Observes samples label := by
  obtain ⟨_, arranged, succeeded, rfl⟩ := process_eq_ok_iff.mp processed
  have permuted : arranged.names.Perm (spec.aligned samples).names :=
    (sameColumns_of_arrange succeeded).columns.map Column.name
  have distinct := nodup_of_ascending (fun _ _ => String.lt_asymm)
    (ascending_names_aligned spec samples)
  refine ⟨?_, ?_, fun label => ?_⟩
  · rw [outputOf, recognized_eq_filter, List.countP_eq_length_filter]
  · rw [outputOf, names_derive]
    exact permuted.nodup_iff.mpr distinct
  · rw [outputOf, names_derive, permuted.mem_iff, mem_names_aligned]

/-- A family without a sample that counts fails as empty.  Any other family fails
exactly when it is bound to an order whose labels are not the observed ones: for
the first listed label that was not observed, or, when all listed ones were, for the
least observed one that is not listed.  Otherwise it has an output, which counts
the samples that count and has one column for each observed label. -/
theorem process_outcome (spec : FamilySpec) (samples : List Sample) :
    let counted := ∃ sample ∈ samples, spec.Counts sample
    let differs := ∃ order, spec.IsBoundTo order ∧
      ∃ label, ¬ (label ∈ order ↔ spec.Observes samples label)
    (spec.process samples = .error (.emptyInput spec.metric) ↔ ¬ counted) ∧
      (counted →
        ((∃ label, spec.process samples = .error (.missingFromData spec.metric label)) ∨
            (∃ label, spec.process samples = .error (.unlistedInOrder spec.metric label)) ↔
          differs)) ∧
      (∀ label, spec.process samples = .error (.missingFromData spec.metric label) ↔
        counted ∧ ∃ order, spec.IsBoundTo order ∧
          FirstWithout (spec.Observes samples) order label) ∧
      (∀ label, spec.process samples = .error (.unlistedInOrder spec.metric label) ↔
        counted ∧ ∃ order, spec.IsBoundTo order ∧
          LeastUnlisted (spec.Observes samples) order label) ∧
      (counted → ¬ differs → ∃ output, spec.process samples = .ok output ∧
        output.filteredSamples = samples.countP (fun sample => decide (spec.Counts sample)) ∧
          output.derived.table.names.Nodup ∧
            ∀ label, label ∈ output.derived.table.names ↔ spec.Observes samples label) := by
  intro counted differs
  have recognized : spec.recognized samples ≠ [] ↔ counted := by
    rw [ne_eq, recognized_eq_nil_iff, not_not]
  have faulty : (∃ order, spec.IsBoundTo order ∧
      ∃ cause, OrderFault (spec.Observes samples) order spec.metric cause) ↔ differs := by
    rw [observes_eq]
    simp only [Table.exists_orderFault_iff (ascending_names_aligned spec samples)]
    simp only [differs, mem_names_aligned]
  have missing (label : String) :
      spec.process samples = .error (.missingFromData spec.metric label) ↔
        counted ∧ ∃ order, spec.IsBoundTo order ∧
          FirstWithout (spec.Observes samples) order label := by
    rw [process_eq_error_iff, recognized]
    simp only [reduceCtorEq, and_false, false_or, orderFault_missingFromData_iff]
  have unlisted (label : String) :
      spec.process samples = .error (.unlistedInOrder spec.metric label) ↔
        counted ∧ ∃ order, spec.IsBoundTo order ∧
          LeastUnlisted (spec.Observes samples) order label := by
    rw [process_eq_error_iff, recognized]
    simp only [reduceCtorEq, and_false, false_or, orderFault_unlistedInOrder_iff]
  refine ⟨?_, fun counts => ⟨?_, ?_⟩, missing, unlisted, fun counts agrees => ?_⟩
  · rw [process_eq_error_iff, recognized_eq_nil_iff]
    constructor
    · rintro (⟨uncounted, -⟩ | ⟨-, order, -, fault⟩)
      · exact uncounted
      · cases fault
    · exact fun uncounted => .inl ⟨uncounted, rfl⟩
  · rintro (⟨label, failed⟩ | ⟨label, failed⟩)
    · obtain ⟨-, order, bound, first⟩ := (missing label).mp failed
      exact faulty.mp ⟨order, bound, _, .missing first⟩
    · obtain ⟨-, order, bound, least⟩ := (unlisted label).mp failed
      exact faulty.mp ⟨order, bound, _, .unlisted least⟩
  · intro differ
    obtain ⟨order, bound, cause, fault⟩ := faulty.mpr differ
    cases fault with
    | missing first => exact .inl ⟨_, (missing _).mpr ⟨counts, order, bound, first⟩⟩
    | unlisted least => exact .inr ⟨_, (unlisted _).mpr ⟨counts, order, bound, least⟩⟩
  · cases processed : spec.process samples with
    | ok output => exact ⟨output, rfl, columns_of_process processed⟩
    | error cause =>
        rcases process_eq_error_iff.mp processed with ⟨none, -⟩ | ⟨-, order, bound, fault⟩
        · exact absurd none (recognized.mpr counts)
        · exact absurd (faulty.mp ⟨order, bound, cause, fault⟩) agrees

/-- Of an order that lists one label twice and one that only another metric has, the
latter is told, and the label that is not listed is not. -/
theorem process_outcome_label_of_other_metric :
    let spec : FamilySpec :=
      { FamilySpec.new "m" ⟨["a", "b", "c"], by decide⟩ .cumulative with
        columnOrder := some ["b", "b", "c"]
        orderPolicy := .strict }
    let samples : List Sample :=
      [⟨"m", "a", .clamp 1, 1.0⟩, ⟨"m", "b", .clamp 1, 2.0⟩, ⟨"n", "c", .clamp 1, 3.0⟩]
    (∃ sample ∈ samples, spec.Counts sample) ∧
      FirstWithout (spec.Observes samples) ["b", "b", "c"] "c" ∧
      spec.process samples = .error (.missingFromData "m" "c") := by
  intro spec samples
  have counted : ∃ sample ∈ samples, spec.Counts sample := by decide
  have first : FirstWithout (spec.Observes samples) ["b", "b", "c"] "c" :=
    ⟨by decide, ["b", "b"], [], rfl, by decide⟩
  have missing := (process_outcome spec samples).2.2.1
  exact ⟨counted, first, (missing "c").mpr ⟨counted, _, ⟨rfl, rfl⟩, first⟩⟩

end FamilySpec

end MetricRates
