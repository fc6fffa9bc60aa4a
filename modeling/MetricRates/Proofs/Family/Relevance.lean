import MetricRates.Proofs.Family.LatestObservation
import MetricRates.Proofs.Family.Processing
import MetricRates.Proofs.Family.Sorted

/-!
# What the output of a family depends on

A family depends on its samples only through the values that its labels have at
each instant, in input order.  Samples of other metrics and other labels, and
the order of samples of different labels or instants, make no difference, except
that the labels outside the family are named.
-/

namespace MetricRates

open Time

/-- Two lists of samples agree on some labels of a metric when each label has
the same values at each instant in both, in the same order. -/
def Agree (metric : String) (labels : LabelSet) (first second : List Sample) : Prop :=
  ∀ label ∈ labels, ∀ time,
    valuesAt (samplesOf metric first) label time = valuesAt (samplesOf metric second) label time

/-- Two results of a family are the same up to the ignored labels: they are the
same error, or outputs that are the same in everything else. -/
inductive SameResult : Except EngineError FamilyOutput → Except EngineError FamilyOutput → Prop
  | failed (cause : EngineError) : SameResult (.error cause) (.error cause)
  | succeeded {first second : FamilyOutput} (name : first.name = second.name)
      (metric : first.metric = second.metric) (derived : first.derived = second.derived)
      (filteredSamples : first.filteredSamples = second.filteredSamples)
      (alignedRows : first.alignedRows = second.alignedRows) :
      SameResult (.ok first) (.ok second)

/-! ## Aligning -/

theorem valuesAt_ne_nil_iff {samples : List Sample} {label : String} {time : Timestamp} :
    valuesAt samples label time ≠ [] ↔
      ∃ sample ∈ samples, sample.label = label ∧ sample.time = time := by
  simp [valuesAt]

theorem mem_sampledTimes_iff_valuesAt {samples : List Sample} {time : Timestamp} :
    time ∈ sampledTimes samples ↔ ∃ label, valuesAt samples label time ≠ [] := by
  simp only [mem_sampledTimes, valuesAt_ne_nil_iff]
  constructor
  · rintro ⟨sample, member, atTime⟩
    exact ⟨sample.label, sample, member, rfl, atTime⟩
  · rintro ⟨_, sample, member, _, atTime⟩
    exact ⟨sample, member, atTime⟩

theorem mem_sampledLabels_iff_valuesAt {samples : List Sample} {label : String} :
    label ∈ (sampledLabels samples).members ↔ ∃ time, valuesAt samples label time ≠ [] := by
  simp only [mem_sampledLabels, valuesAt_ne_nil_iff]
  constructor
  · rintro ⟨sample, member, named⟩
    exact ⟨sample.time, sample, member, named, rfl⟩
  · rintro ⟨_, sample, member, named, _⟩
    exact ⟨sample, member, named⟩

section Align

variable {first second : List Sample}
  (same : ∀ label time, valuesAt first label time = valuesAt second label time)

include same

theorem sampledTimes_of_same : sampledTimes first = sampledTimes second := by
  apply eq_of_ascending (fun _ _ => Timestamp.lt_asymm) (sampledTimes_ascending first)
    (sampledTimes_ascending second)
  intro time
  simp only [mem_sampledTimes_iff_valuesAt, same]

theorem sampledLabels_of_same :
    (sampledLabels first).members = (sampledLabels second).members := by
  apply eq_of_ascending (fun _ _ => String.lt_asymm) (sampledLabels first).ascending
    (sampledLabels second).ascending
  intro label
  simp only [mem_sampledLabels_iff_valuesAt, same]

theorem observations_of_same (aggregation : Aggregation) (label : String) :
    observations aggregation label first = observations aggregation label second := by
  apply eq_of_ascending (fun _ _ => Timestamp.lt_asymm)
    (observations_ascending aggregation label first)
    (observations_ascending aggregation label second)
  intro observation
  simp only [mem_observations_iff, ← valuesAt_ne_nil_iff, same]

/-- The aligned table depends on the values of each label at each instant
only. -/
theorem alignSamples_of_same (aggregation : Aggregation) (leadingFill : LeadingFill) :
    alignSamples aggregation leadingFill first = alignSamples aggregation leadingFill second := by
  apply Table.ext_parts
  · exact sampledTimes_of_same same
  · simp only [alignSamples, sampledTimes_of_same same, sampledLabels_of_same same,
      observations_of_same same]

end Align

/-! ## Recognized samples -/

section Recognized

variable {metric : String} {labels : LabelSet} {first second : List Sample}

theorem valuesAt_recognizedSamples (metric : String) (labels : LabelSet)
    (samples : List Sample) (label : String) (time : Timestamp) :
    valuesAt (recognizedSamples metric labels samples) label time =
      if label ∈ labels then valuesAt (samplesOf metric samples) label time else [] := by
  rw [valuesAt, recognizedSamples, List.filter_filter]
  split
  · rename_i listed
    rw [valuesAt]
    congr 1
    apply List.filter_congr
    intro sample _
    by_cases named : sample.label = label <;> simp [named, listed]
  · rename_i unlisted
    rw [List.map_eq_nil_iff, List.filter_eq_nil_iff]
    intro sample _ found
    simp only [Bool.and_eq_true, decide_eq_true_eq] at found
    exact unlisted (found.1.1 ▸ found.2)

theorem Agree.valuesAt_eq (agree : Agree metric labels first second) (label : String)
    (time : Timestamp) :
    valuesAt (recognizedSamples metric labels first) label time =
      valuesAt (recognizedSamples metric labels second) label time := by
  rw [valuesAt_recognizedSamples, valuesAt_recognizedSamples]
  split
  · exact agree label ‹_› time
  · rfl

/-- The samples of a label at an instant are known by their values. -/
theorem filter_key_eq_map (metric : String) (labels : LabelSet) (samples : List Sample)
    (label : String) (time : Timestamp) :
    ((recognizedSamples metric labels samples).filter fun sample =>
        decide (sample.label = label ∧ sample.time = time)) =
      (valuesAt (recognizedSamples metric labels samples) label time).map fun value =>
        { metric, label, time, value } := by
  rw [valuesAt, List.map_map]
  conv => lhs; rw [← List.map_id (List.filter _ _)]
  apply List.map_congr_left
  rintro ⟨sampleMetric, sampleLabel, sampleTime, value⟩ found
  simp only [recognizedSamples, samplesOf, List.mem_filter, decide_eq_true_eq, beq_iff_eq]
    at found
  obtain ⟨⟨⟨_, rfl⟩, _⟩, rfl, rfl⟩ := found
  rfl

/-- Lists that agree have the same recognized samples, up to their order. -/
theorem Agree.recognizedSamples_perm (agree : Agree metric labels first second) :
    (recognizedSamples metric labels first).Perm (recognizedSamples metric labels second) := by
  rw [List.perm_iff_count]
  intro sample
  -- A sample is counted among those of its label and instant.
  have byKey (samples : List Sample) :
      (recognizedSamples metric labels samples).count sample =
        ((recognizedSamples metric labels samples).filter fun other =>
          decide (other.label = sample.label ∧ other.time = sample.time)).count sample :=
    (List.count_filter (by simp)).symm
  rw [byKey, byKey, filter_key_eq_map, filter_key_eq_map, agree.valuesAt_eq]

end Recognized

/-! ## The output of a family -/

namespace FamilySpec

variable {spec : FamilySpec} {first second : List Sample}

/-- Lists that agree on the labels of a family give the same result. -/
theorem sameResult_of_agree (agree : Agree spec.metric spec.labels first second) :
    SameResult (spec.process first) (spec.process second) := by
  have permuted : (spec.recognized first).Perm (spec.recognized second) :=
    agree.recognizedSamples_perm
  have aligned : spec.aligned first = spec.aligned second :=
    alignSamples_of_same agree.valuesAt_eq spec.aggregation spec.leadingFill
  by_cases unrecognized : spec.recognized first = []
  · have unrecognizedToo : spec.recognized second = [] :=
      List.nil_perm.mp (unrecognized ▸ permuted)
    rw [process_of_unrecognized unrecognized, process_of_unrecognized unrecognizedToo]
    exact .failed _
  · have recognizedToo : spec.recognized second ≠ [] := fun empty =>
      unrecognized (List.perm_nil.mp (empty ▸ permuted))
    rw [process_of_recognized unrecognized, process_of_recognized recognizedToo, aligned]
    cases spec.arrange (spec.aligned second) with
    | error cause => exact .failed cause
    | ok arranged => exact .succeeded rfl rfl rfl permuted.length_eq rfl

theorem valuesAt_samplesOf_append (metric : String) (first second : List Sample)
    (label : String) (time : Timestamp) :
    valuesAt (samplesOf metric (first ++ second)) label time =
      valuesAt (samplesOf metric first) label time ++
        valuesAt (samplesOf metric second) label time := by
  simp [valuesAt, samplesOf]

theorem valuesAt_samplesOf_cons (metric : String) (sample : Sample) (samples : List Sample)
    (label : String) (time : Timestamp) :
    valuesAt (samplesOf metric (sample :: samples)) label time =
      valuesAt (samplesOf metric [sample]) label time ++
        valuesAt (samplesOf metric samples) label time :=
  valuesAt_samplesOf_append metric [sample] samples label time

theorem valuesAt_samplesOf_singleton_of_not {metric : String} {sample : Sample}
    {label : String} {time : Timestamp}
    (other : ¬ (sample.metric = metric ∧ sample.label = label ∧ sample.time = time)) :
    valuesAt (samplesOf metric [sample]) label time = [] := by
  rw [valuesAt, List.map_eq_nil_iff, List.filter_eq_nil_iff]
  intro found member key
  obtain ⟨single, ofMetric⟩ := List.mem_filter.mp member
  rw [List.mem_singleton] at single
  subst single
  exact other ⟨eq_of_beq ofMetric, of_decide_eq_true key⟩

/-- A sample that does not count for a family makes no difference. -/
theorem agree_insert {sample : Sample}
    (foreign : sample.metric = spec.metric → sample.label ∉ spec.labels)
    (before after : List Sample) :
    Agree spec.metric spec.labels (before ++ sample :: after) (before ++ after) := by
  intro label listed time
  rw [valuesAt_samplesOf_append, valuesAt_samplesOf_append, valuesAt_samplesOf_cons,
    valuesAt_samplesOf_singleton_of_not, List.nil_append]
  rintro ⟨ofMetric, rfl, _⟩
  exact foreign ofMetric listed

/-- Samples of different labels or instants can change places. -/
theorem agree_swap {a b : Sample} (different : ¬ (a.label = b.label ∧ a.time = b.time))
    (before after : List Sample) :
    Agree spec.metric spec.labels (before ++ a :: b :: after) (before ++ b :: a :: after) := by
  intro label _ time
  rw [valuesAt_samplesOf_append, valuesAt_samplesOf_append,
    valuesAt_samplesOf_cons _ a (b :: after), valuesAt_samplesOf_cons _ b after,
    valuesAt_samplesOf_cons _ b (a :: after), valuesAt_samplesOf_cons _ a after]
  by_cases found : a.metric = spec.metric ∧ a.label = label ∧ a.time = time
  · have other : ¬ (b.metric = spec.metric ∧ b.label = label ∧ b.time = time) :=
      fun ⟨_, named, atTime⟩ =>
        different ⟨found.2.1.trans named.symm, found.2.2.trans atTime.symm⟩
    rw [valuesAt_samplesOf_singleton_of_not other, List.nil_append, List.nil_append]
  · rw [valuesAt_samplesOf_singleton_of_not found, List.nil_append, List.nil_append]

/-- The ignored labels are the labels of the metric that the family does not
list. -/
theorem mem_foreignLabels {metric : String} {labels : LabelSet} {samples : List Sample}
    {label : String} :
    label ∈ foreignLabels metric labels samples ↔
      (∃ sample ∈ samples, sample.metric = metric ∧ sample.label = label) ∧
        label ∉ labels := by
  rw [foreignLabels, LabelSet.mem_ofList]
  simp only [samplesOf, List.mem_map, List.mem_filter, beq_iff_eq, Bool.not_eq_true',
    decide_eq_false_iff_not]
  constructor
  · rintro ⟨sample, ⟨⟨member, ofMetric⟩, unlisted⟩, rfl⟩
    exact ⟨⟨sample, member, ofMetric, rfl⟩, unlisted⟩
  · rintro ⟨⟨sample, member, ofMetric, rfl⟩, unlisted⟩
    exact ⟨sample, ⟨⟨member, ofMetric⟩, unlisted⟩, rfl⟩

theorem ignoredLabels_of_process_eq_ok {samples : List Sample} {output : FamilyOutput}
    (processed : spec.process samples = .ok output) :
    output.ignoredLabels = foreignLabels spec.metric spec.labels samples := by
  obtain ⟨_, arranged, _, rfl⟩ := process_eq_ok_iff.mp processed
  rfl

/-- A family depends on its samples only through the values of its labels at
each instant, in input order.  A sample that does not count can be left out, and
samples of different labels or instants can change places; only the ignored
labels are named, each once and in order. -/
theorem process_depends_on_values (spec : FamilySpec) :
    (∀ first second, Agree spec.metric spec.labels first second →
        SameResult (spec.process first) (spec.process second)) ∧
      (∀ before after sample, (sample.metric = spec.metric → sample.label ∉ spec.labels) →
        SameResult (spec.process (before ++ sample :: after)) (spec.process (before ++ after))) ∧
      (∀ before after a b, ¬ (a.label = b.label ∧ a.time = b.time) →
        SameResult (spec.process (before ++ a :: b :: after))
          (spec.process (before ++ b :: a :: after))) ∧
      ∀ samples output, spec.process samples = .ok output →
        output.ignoredLabels.members.Pairwise Text.ByteLess ∧
          ∀ label, label ∈ output.ignoredLabels ↔
            (∃ sample ∈ samples, sample.metric = spec.metric ∧ sample.label = label) ∧
              label ∉ spec.labels := by
  refine ⟨fun _ _ => sameResult_of_agree, ?_, ?_, ?_⟩
  · intro before after sample foreign
    exact sameResult_of_agree (agree_insert foreign before after)
  · intro before after a b different
    exact sameResult_of_agree (agree_swap different before after)
  · intro samples output processed
    rw [ignoredLabels_of_process_eq_ok processed]
    exact ⟨(foreignLabels spec.metric spec.labels samples).ascending.imp Text.lt_iff_byteLess.mp,
      fun _ => mem_foreignLabels⟩

/-- Two samples of one label at two instants, and one of a label that does not
count. -/
theorem process_depends_on_values_two_instants :
    let spec := FamilySpec.new "m" (.ofList ["a"]) .instantaneous
    let early : Sample := ⟨"m", "a", .clamp 1, 1.0⟩
    let late : Sample := ⟨"m", "a", .clamp 2, 4.0⟩
    let other : Sample := ⟨"m", "b", .clamp 1, 9.0⟩
    Agree spec.metric spec.labels [early, late] [late, early] ∧
      SameResult (spec.process [early, late]) (spec.process [late, early]) ∧
      SameResult (spec.process [early, other, late]) (spec.process [early, late]) ∧
      SameResult (spec.process [early, other]) (spec.process [other, early]) ∧
      ∃ output, spec.process [early, other] = .ok output ∧ "b" ∈ output.ignoredLabels := by
  intro spec early late other
  have depends := process_depends_on_values spec
  have different : ¬ (early.label = late.label ∧ early.time = late.time) := by decide
  have agree : Agree spec.metric spec.labels [early, late] [late, early] :=
    agree_swap different [] []
  have unlisted : "b" ∉ spec.labels := by simp [spec, new]
  have counts : early ∈ spec.recognized [early, other] :=
    mem_recognized.mpr ⟨List.mem_cons_self, rfl, by simp [spec, new, early]⟩
  have processed : spec.process [early, other] =
      .ok (spec.outputOf [early, other] (spec.aligned [early, other])) :=
    process_eq_ok_iff.mpr ⟨List.ne_nil_of_mem counts, _, rfl, rfl⟩
  refine ⟨agree, depends.1 _ _ agree, ?_, ?_, _, processed, ?_⟩
  · exact depends.2.1 [early] [late] other fun _ => unlisted
  · exact depends.2.2.1 [] [] early other (by decide)
  · have ignored := (depends.2.2.2 _ _ processed).2 "b"
    exact ignored.mpr ⟨⟨other, by simp, rfl, rfl⟩, unlisted⟩

end FamilySpec

end MetricRates
