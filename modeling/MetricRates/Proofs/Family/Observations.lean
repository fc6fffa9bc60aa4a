import MetricRates.Family.Alignment
import MetricRates.Proofs.Time.Order

/-!
# Observations of a label

The values of a label at one instant are one observation, and a label is
observed at exactly the instants at which it was sampled.  Sorting by time keeps
the input order of the values of one instant, so gathering neighbours of the
same instant gathers all values of that instant, in input order.
-/

namespace MetricRates

open Time

/-! ## Reducing values -/

/-- The sum of values from left to right. -/
def leftSum : List Float → Float
  | [] => 0.0
  | first :: rest => rest.foldl (· + ·) first

/-- What the values of one label at one instant amount to, in input order. -/
def Aggregation.reduce : Aggregation → List Float → Float
  | .mean, values => leftSum values / Float.ofNat (min values.length (UInt32.size - 1))
  | .last, values => values.getLastD 0.0

theorem combine_eq_reduce (aggregation : Aggregation) (first : Float) (rest : List Float) :
    aggregation.combine first rest = aggregation.reduce (first :: rest) := by
  cases aggregation with
  | mean =>
      rw [Aggregation.combine, Aggregation.reduce, List.length_cons, Nat.add_comm 1]
      rfl
  | last => rw [Aggregation.combine, Aggregation.reduce, List.getLastD_cons]

/-- The values of a label at an instant, in input order. -/
def valuesAt (samples : List Sample) (label : String) (time : Timestamp) : List Float :=
  (samples.filter fun sample => decide (sample.label = label ∧ sample.time = time)).map
    Sample.value

theorem valuesAt_append (first second : List Sample) (label : String) (time : Timestamp) :
    valuesAt (first ++ second) label time =
      valuesAt first label time ++ valuesAt second label time := by
  simp [valuesAt]

/-! ## Gathering samples by time -/

/-- The samples of an instant, in input order. -/
def samplesAt (samples : List Sample) (time : Timestamp) : List Sample :=
  samples.filter fun sample => decide (sample.time = time)

/-- Groups gather some samples when they stand in the order of time, one for
each instant of a sample, and each holds all values of its instant in their
order. -/
structure Gathers (samples : List Sample) (groups : List Group) : Prop where
  ascending : groups.Pairwise fun a b => a.time < b.time
  times : ∀ time, (∃ group ∈ groups, group.time = time) ↔ ∃ sample ∈ samples, sample.time = time
  values : ∀ group ∈ groups,
    group.first :: group.rest = (samplesAt samples group.time).map Sample.value

theorem samplesAt_cons_self (sample : Sample) (samples : List Sample) :
    samplesAt (sample :: samples) sample.time = sample :: samplesAt samples sample.time := by
  simp [samplesAt]

theorem samplesAt_cons_of_ne {sample : Sample} {time : Timestamp} (samples : List Sample)
    (differs : sample.time ≠ time) :
    samplesAt (sample :: samples) time = samplesAt samples time := by
  simp [samplesAt, differs]

theorem samplesAt_eq_nil_iff {samples : List Sample} {time : Timestamp} :
    samplesAt samples time = [] ↔ ∀ sample ∈ samples, sample.time ≠ time := by
  simp [samplesAt]

theorem gathers_nil : Gathers [] [] where
  ascending := .nil
  times := by simp
  values := by simp

namespace Gathers

variable {sample : Sample} {samples : List Sample} {groups : List Group}

/-- A sample before all others makes a group of its own. -/
theorem cons_new (gathers : Gathers samples groups)
    (before : ∀ group ∈ groups, sample.time < group.time) :
    Gathers (sample :: samples)
      ({ time := sample.time, first := sample.value, rest := [] } :: groups) where
  ascending := List.pairwise_cons.mpr ⟨before, gathers.ascending⟩
  times := by
    intro time
    simp [gathers.times time]
  values := by
    have others : samplesAt samples sample.time = [] := by
      rw [samplesAt_eq_nil_iff]
      intro other member same
      obtain ⟨group, inGroups, atTime⟩ := (gathers.times sample.time).mpr ⟨other, member, same⟩
      exact Timestamp.ne_of_lt (before group inGroups) atTime.symm
    intro group member
    rcases List.mem_cons.mp member with rfl | member
    · rw [samplesAt_cons_self, others]
      rfl
    · rw [samplesAt_cons_of_ne samples (Timestamp.ne_of_lt (before group member))]
      exact gathers.values group member

/-- A sample at the instant of the first group joins that group. -/
theorem cons_join {group : Group} (gathers : Gathers samples (group :: groups))
    (same : sample.time = group.time) :
    Gathers (sample :: samples)
      ({ group with first := sample.value, rest := group.first :: group.rest } :: groups) where
  ascending := List.pairwise_cons.mpr (List.pairwise_cons.mp gathers.ascending)
  times := by
    intro time
    have known := gathers.times time
    simp only [List.mem_cons, exists_eq_or_imp] at known ⊢
    rw [← known, same]
    exact ⟨fun found => .inr found, fun found => found.elim .inl id⟩
  values := by
    intro other member
    rcases List.mem_cons.mp member with rfl | member
    · have joined := samplesAt_cons_self sample samples
      rw [same] at joined
      rw [joined, List.map_cons, ← gathers.values group List.mem_cons_self]
    · have later := (List.pairwise_cons.mp gathers.ascending).1 other member
      rw [← same] at later
      rw [samplesAt_cons_of_ne samples (Timestamp.ne_of_lt later)]
      exact gathers.values other (List.mem_cons_of_mem _ member)

/-- Putting a sample in front of groups of later samples keeps them gathered. -/
theorem consGroup (gathers : Gathers samples groups)
    (first : ∀ later ∈ samples, sample.time ≤ later.time) :
    Gathers (sample :: samples) (consGroup sample groups) := by
  cases groups with
  | nil => exact gathers.cons_new (by simp)
  | cons group groups =>
      rw [MetricRates.consGroup]
      split
      · rename_i same
        exact gathers.cons_join same
      · rename_i differs
        apply gathers.cons_new
        obtain ⟨later, inSamples, atGroup⟩ :=
          (gathers.times group.time).mp ⟨group, List.mem_cons_self, rfl⟩
        have notAfter := first later inSamples
        rw [atGroup] at notAfter
        have before : sample.time < group.time := Timestamp.lt_of_le_of_ne notAfter differs
        intro other member
        rcases List.mem_cons.mp member with rfl | member
        · exact before
        · have further := (List.pairwise_cons.mp gathers.ascending).1 other member
          exact Timestamp.lt_trans before further

end Gathers

/-- Samples in the order of their times are gathered by gathering
neighbours. -/
theorem gathers_groupNeighbours {samples : List Sample}
    (ordered : samples.Pairwise fun a b => a.time ≤ b.time) :
    Gathers samples (groupNeighbours samples) := by
  induction samples with
  | nil => exact gathers_nil
  | cons sample samples ih =>
      have parts := List.pairwise_cons.mp ordered
      exact (ih parts.2).consGroup parts.1

/-! ## Sorting by time -/

theorem earlier_trans (a b c : Sample) :
    decide (a.time ≤ b.time) = true → decide (b.time ≤ c.time) = true →
      decide (a.time ≤ c.time) = true := by
  simp only [decide_eq_true_eq]
  exact Timestamp.le_trans

theorem earlier_total (a b : Sample) :
    (decide (a.time ≤ b.time) || decide (b.time ≤ a.time)) = true := by
  simp only [Bool.or_eq_true, decide_eq_true_eq]
  exact Timestamp.le_total _ _

theorem pairwise_byTime (samples : List Sample) :
    (byTime samples).Pairwise fun a b => a.time ≤ b.time := by
  have sorted := List.pairwise_mergeSort earlier_trans earlier_total samples
  exact sorted.imp of_decide_eq_true

@[simp]
theorem mem_byTime {sample : Sample} {samples : List Sample} :
    sample ∈ byTime samples ↔ sample ∈ samples :=
  List.mem_mergeSort

/-- Sorting by time keeps the samples of an instant in their order. -/
theorem samplesAt_byTime (samples : List Sample) (time : Timestamp) :
    samplesAt (byTime samples) time = samplesAt samples time := by
  have level : (samplesAt samples time).Pairwise fun a b => decide (a.time ≤ b.time) = true := by
    apply List.pairwise_of_forall_mem_list
    intro a inA b inB
    have atA : a.time = time := of_decide_eq_true (List.mem_filter.mp inA).2
    have atB : b.time = time := of_decide_eq_true (List.mem_filter.mp inB).2
    rw [atA, atB]
    exact decide_eq_true (Timestamp.le_refl _)
  -- Stability: a sublist that is in order already is still a sublist after sorting.
  have kept := List.sublist_mergeSort earlier_trans earlier_total level List.filter_sublist
  have inside : (samplesAt samples time).Sublist (samplesAt (byTime samples) time) := by
    have filtered := kept.filter fun sample => decide (sample.time = time)
    simp only [samplesAt, List.filter_filter, Bool.and_self] at filtered
    exact filtered
  have sameLength : (samplesAt (byTime samples) time).length =
      (samplesAt samples time).length :=
    ((List.mergeSort_perm samples _).filter _).length_eq
  exact (inside.eq_of_length sameLength.symm).symm

/-! ## The observations of a label -/

/-- The samples of a label, in input order. -/
def labelled (samples : List Sample) (label : String) : List Sample :=
  samples.filter fun sample => sample.label == label

theorem valuesAt_eq (samples : List Sample) (label : String) (time : Timestamp) :
    valuesAt samples label time = (samplesAt (labelled samples label) time).map Sample.value := by
  rw [valuesAt, samplesAt, labelled, List.filter_filter]
  congr 1
  apply List.filter_congr
  intro sample _
  by_cases named : sample.label = label <;> simp [named]

theorem gathers_label (samples : List Sample) (label : String) :
    Gathers (byTime (labelled samples label)) (groupNeighbours (byTime (labelled samples label))) :=
  gathers_groupNeighbours (pairwise_byTime _)

/-- The observations of a label stand in the order of time, one at each
instant. -/
theorem observations_ascending (aggregation : Aggregation) (label : String)
    (samples : List Sample) :
    (observations aggregation label samples).Pairwise fun a b => a.time < b.time :=
  List.pairwise_map.mpr (gathers_label samples label).ascending

/-- A label is observed at the instants at which it was sampled, and its value
is what its values at that instant amount to. -/
theorem mem_observations_iff {aggregation : Aggregation} {label : String}
    {samples : List Sample} {observation : Observation} :
    observation ∈ observations aggregation label samples ↔
      (∃ sample ∈ samples, sample.label = label ∧ sample.time = observation.time) ∧
        observation.value =
          aggregation.reduce (valuesAt samples label observation.time) := by
  have gathers := gathers_label samples label
  have times (time : Timestamp) :
      (∃ group ∈ groupNeighbours (byTime (labelled samples label)), group.time = time) ↔
        ∃ sample ∈ samples, sample.label = label ∧ sample.time = time := by
    rw [gathers.times time]
    simp [labelled, and_assoc]
  have value {group : Group}
      (member : group ∈ groupNeighbours (byTime (labelled samples label))) :
      (group.combine aggregation).value =
        aggregation.reduce (valuesAt samples label group.time) := by
    rw [Group.combine, combine_eq_reduce, gathers.values group member, samplesAt_byTime,
      valuesAt_eq]
  constructor
  · intro member
    obtain ⟨group, inGroups, rfl⟩ := List.mem_map.mp member
    exact ⟨(times _).mp ⟨group, inGroups, rfl⟩, value inGroups⟩
  · rintro ⟨sampled, reduced⟩
    obtain ⟨group, inGroups, atTime⟩ := (times _).mpr sampled
    refine List.mem_map.mpr ⟨group, inGroups, ?_⟩
    rcases observation with ⟨time, amount⟩
    simp only at atTime reduced
    subst atTime
    rw [reduced, ← value inGroups]
    rfl

end MetricRates
