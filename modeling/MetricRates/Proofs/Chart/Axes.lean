import Mathlib.Algebra.Order.Field.Rat
import Mathlib.Tactic.Linarith
import MetricRates.Chart.Bands
import MetricRates.Proofs.Chart.Lines

/-!
# What axes show

Over rational numbers, where nothing is rounded, an axis always has a width and it shows all
that it is made for: there is a margin even around a single point, the time axis reaches
from zero to the last point, and the value axis of bands shows zero and every edge.
-/

namespace MetricRates.Chart

open Time

/-- An axis shows a number that lies in its interval. -/
def Interval.Shows (axis : Interval Rat) (x : Rat) : Prop :=
  axis.low ≤ x ∧ x ≤ axis.high

/-! ## The largest and the smallest number -/

theorem larger_le_iff {a b bound : Rat} : larger a b ≤ bound ↔ a ≤ bound ∧ b ≤ bound := by
  simp only [larger, Scalar.less, decide_eq_true_eq]
  split
  · rename_i less
    exact ⟨fun le => ⟨less.le.trans le, le⟩, And.right⟩
  · rename_i notLess
    exact ⟨fun le => ⟨le, (not_lt.mp notLess).trans le⟩, And.left⟩

theorem le_smaller_iff {a b bound : Rat} : bound ≤ smaller a b ↔ bound ≤ a ∧ bound ≤ b := by
  simp only [smaller, Scalar.less, decide_eq_true_eq]
  split
  · rename_i less
    exact ⟨fun le => ⟨le.trans less.le, le⟩, And.right⟩
  · rename_i notLess
    exact ⟨fun le => ⟨le, le.trans (not_lt.mp notLess)⟩, And.left⟩

theorem foldl_larger_le_iff {xs : List Rat} {first bound : Rat} :
    xs.foldl larger first ≤ bound ↔ first ≤ bound ∧ ∀ x ∈ xs, x ≤ bound :=
  foldl_choice_iff (p := (· ≤ bound)) fun _ _ => larger_le_iff

theorem le_foldl_smaller_iff {xs : List Rat} {first bound : Rat} :
    bound ≤ xs.foldl smaller first ↔ bound ≤ first ∧ ∀ x ∈ xs, bound ≤ x :=
  foldl_choice_iff (p := (bound ≤ ·)) fun _ _ => le_smaller_iff

/-! ## Axes with a margin -/

theorem pointMargin_pos (x : Rat) : 0 < pointMargin x := by
  simp only [pointMargin, Scalar.less, decide_eq_true_eq]
  split
  · rename_i apart
    have positive : 0 < Scalar.abs x := lt_trans (by simp [Scalar.epsilon]) apart
    exact mul_pos positive (by simp [Scalar.margin])
  · exact one_pos

namespace Interval

/-- The same positive width is left free on each side of the bounds. -/
theorem exists_padded_eq_around (low high : Rat) :
    ∃ width > 0, padded low high = around low high width := by
  simp only [padded, Scalar.isFinite, Scalar.less, Bool.not_true, Bool.or_false,
    Bool.false_eq_true, if_false, decide_eq_true_eq]
  split
  · rename_i apart
    have positive : 0 < high - low := lt_trans (by simp [Scalar.epsilon]) apart
    exact ⟨_, mul_pos positive (by simp [Scalar.margin]), rfl⟩
  · exact ⟨_, pointMargin_pos low, rfl⟩

theorem low_padded_lt (low high : Rat) : (padded low high).low < low := by
  obtain ⟨width, positive, same⟩ := exists_padded_eq_around low high
  rw [same]
  exact sub_lt_self low positive

theorem lt_high_padded (low high : Rat) : high < (padded low high).high := by
  obtain ⟨width, positive, same⟩ := exists_padded_eq_around low high
  rw [same]
  exact lt_add_of_pos_right high positive

/-- An interval that covers numbers reaches from zero to a positive bound of them. -/
theorem exists_covering_eq (xs : List Rat) :
    ∃ last > 0, covering xs = ⟨0, last⟩ ∧ ∀ x ∈ xs, x ≤ last := by
  obtain ⟨-, bounded⟩ := foldl_larger_le_iff.mp (le_refl (xs.foldl larger Scalar.zero))
  simp only [covering, upTo, Scalar.less, decide_eq_true_eq]
  split
  · rename_i positive
    exact ⟨_, positive, rfl, bounded⟩
  · rename_i notPositive
    exact ⟨1, one_pos, rfl, fun x listed =>
      (bounded x listed).trans ((not_lt.mp notPositive).trans zero_le_one)⟩

end Interval

/-! ## The value axis of bands -/

namespace StackedBands

variable {bands : StackedBands Rat}

/-- The smallest value of an edge, or zero if none is negative. -/
def lowest (bands : StackedBands Rat) : Rat :=
  bands.edges.flatten.foldl smaller 0

/-- The largest value of an edge, or zero if none is positive. -/
def highest (bands : StackedBands Rat) : Rat :=
  bands.edges.flatten.foldl larger 0

theorem le_lowest_iff {bound : Rat} :
    bound ≤ bands.lowest ↔
      bound ≤ 0 ∧ ∀ values ∈ bands.edges, ∀ value ∈ values, bound ≤ value := by
  rw [lowest, le_foldl_smaller_iff, List.forall_mem_flatten]

theorem highest_le_iff {bound : Rat} :
    bands.highest ≤ bound ↔
      0 ≤ bound ∧ ∀ values ∈ bands.edges, ∀ value ∈ values, value ≤ bound := by
  rw [highest, foldl_larger_le_iff, List.forall_mem_flatten]

theorem low_valueAxis_of_negative (negative : bands.lowest < 0) :
    bands.valueAxis.low < bands.lowest := by
  have padded : bands.valueAxis.low = (Interval.padded bands.lowest bands.highest).low :=
    if_pos (decide_eq_true negative)
  rw [padded]
  exact Interval.low_padded_lt _ _

theorem low_valueAxis_of_nonneg (nonneg : 0 ≤ bands.lowest) : bands.valueAxis.low = 0 :=
  if_neg fun negative => (of_decide_eq_true negative).not_ge nonneg

theorem low_valueAxis_le_lowest : bands.valueAxis.low ≤ bands.lowest := by
  rcases lt_or_ge bands.lowest 0 with negative | nonneg
  · exact (low_valueAxis_of_negative negative).le
  · exact (low_valueAxis_of_nonneg nonneg).trans_le nonneg

theorem highest_lt_high_valueAxis : bands.highest < bands.valueAxis.high :=
  Interval.lt_high_padded _ _

theorem low_valueAxis_eq_zero_iff :
    bands.valueAxis.low = 0 ↔ ∀ values ∈ bands.edges, ∀ value ∈ values, 0 ≤ value := by
  have nonneg_iff : 0 ≤ bands.lowest ↔ _ := le_lowest_iff.trans (and_iff_right le_rfl)
  rw [← nonneg_iff]
  constructor
  · intro zero
    by_contra negative
    have below := low_valueAxis_of_negative (not_le.mp negative)
    linarith
  · exact low_valueAxis_of_nonneg

theorem shows_zero : bands.valueAxis.Shows 0 := by
  constructor
  · exact low_valueAxis_le_lowest.trans (le_lowest_iff.mp le_rfl).1
  · exact (highest_le_iff.mp le_rfl).1.trans highest_lt_high_valueAxis.le

theorem shows_edge {values : List Rat} (edge : values ∈ bands.edges) {value : Rat}
    (listed : value ∈ values) : bands.valueAxis.Shows value := by
  constructor
  · exact low_valueAxis_le_lowest.trans ((le_lowest_iff.mp le_rfl).2 values edge value listed)
  · exact ((highest_le_iff.mp le_rfl).2 values edge value listed).trans
      highest_lt_high_valueAxis.le

theorem low_lt_high_valueAxis : bands.valueAxis.low < bands.valueAxis.high :=
  shows_zero.1.trans_lt ((highest_le_iff.mp le_rfl).1.trans_lt highest_lt_high_valueAxis)

end StackedBands

/-! ## The time axis -/

/-- The seconds from an origin to an instant. -/
def secondsAfter (origin time : Timestamp) : Rat :=
  ((time.nanos - origin.nanos : Int) : Rat) / 10 ^ 9

theorem seconds_eq_secondsAfter (origin : Timestamp) :
    (fun time : Timestamp => Scalar.seconds (time.nanosSince origin)) = secondsAfter origin := by
  funext time
  simp only [Scalar.seconds, secondsAfter, Timestamp.nanosSince]
  norm_num

theorem secondsAfter_nonneg {origin time : Timestamp} (le : origin ≤ time) :
    0 ≤ secondsAfter origin time := by
  have nonneg : 0 ≤ time.nanos - origin.nanos := Int.sub_nonneg_of_le le
  exact div_nonneg (Int.cast_nonneg nonneg) (by norm_num)

/-- The time axis reaches from zero to a positive bound of the times of all points. -/
theorem exists_timeAxis_eq (lines : List (Series Rat)) :
    ∃ last > 0, timeAxis lines = ⟨0, last⟩ ∧
      ∀ line ∈ lines, ∀ point ∈ line.points, point.1 ≤ last := by
  obtain ⟨last, positive, axis, bounded⟩ :=
    Interval.exists_covering_eq (lines.flatMap fun line => line.points.map Prod.fst)
  exists last, positive, axis
  intro line listed point onLine
  exact bounded _ (List.mem_flatMap.mpr ⟨line, listed, List.mem_map_of_mem onLine⟩)

theorem panelSeries_nonneg {tables : List (Table Rat)}
    (ordered : ∀ table ∈ tables, table.index.Pairwise (· ≤ ·)) :
    ∀ line ∈ (panelSeries tables).flatten, ∀ point ∈ line.points, 0 ≤ point.1 := by
  rcases panelSeries_cases tables with ⟨-, lines⟩ | ⟨origin, isOrigin, lines⟩
  · simp [lines]
  · rw [lines, seconds_eq_secondsAfter]
    intro line listed point onLine
    obtain ⟨_, made, ofTable⟩ := List.mem_flatten.mp listed
    obtain ⟨table, inTables, rfl⟩ := List.mem_map.mp made
    obtain ⟨column, inTable, rfl⟩ := List.mem_map.mp ofTable
    obtain ⟨time, inIndex, seconds⟩ := mem_presentPoints onLine
    rw [seconds]
    exact secondsAfter_nonneg (isOrigin.le inTables (ordered table inTables) inIndex)

/-- Axes have a width and show all that is drawn on them.  Tables with ordered instants that
share a time axis have one point for each present cell, at the seconds since the earliest
first row of any of them, unless they have no rows at all; the time axis starts at zero and
reaches to the last point.  An axis with a margin shows its bounds.  The value axis of bands
shows zero and every edge, and it starts at zero exactly if no edge is negative. -/
theorem axes_show_everything {tables : List (Table Rat)}
    (ordered : ∀ table ∈ tables, table.index.Pairwise (· ≤ ·)) :
    (((∀ table ∈ tables, table.isEmpty) ∧ panelSeries tables = tables.map fun _ => []) ∨
        ∃ origin, IsOrigin tables origin ∧
          panelSeries tables = tables.map (linesOf (secondsAfter origin))) ∧
      (∀ line ∈ (panelSeries tables).flatten, ∀ point ∈ line.points, 0 ≤ point.1) ∧
      (∃ last > 0, timeAxis (panelSeries tables).flatten = ⟨0, last⟩ ∧
        ∀ line ∈ (panelSeries tables).flatten, ∀ point ∈ line.points, point.1 ≤ last) ∧
      (∀ low high : Rat, low ≤ high →
        (Interval.padded low high).low < (Interval.padded low high).high ∧
          (Interval.padded low high).low ≤ low ∧ high ≤ (Interval.padded low high).high) ∧
      ∀ table : Table Rat,
        (StackedBands.ofTable table).valueAxis.low < (StackedBands.ofTable table).valueAxis.high ∧
          (StackedBands.ofTable table).valueAxis.Shows 0 ∧
          (∀ values ∈ (StackedBands.ofTable table).edges, ∀ value ∈ values,
            (StackedBands.ofTable table).valueAxis.Shows value) ∧
          ((StackedBands.ofTable table).valueAxis.low = 0 ↔
            ∀ values ∈ (StackedBands.ofTable table).edges, ∀ value ∈ values, 0 ≤ value) := by
  constructor
  · simpa only [seconds_eq_secondsAfter] using panelSeries_cases tables
  constructor
  · exact panelSeries_nonneg ordered
  constructor
  · exact exists_timeAxis_eq _
  constructor
  · intro low high le
    have below := Interval.low_padded_lt low high
    have above := Interval.lt_high_padded low high
    exact ⟨below.trans_le (le.trans above.le), below.le, above.le⟩
  · intro table
    exact ⟨StackedBands.low_lt_high_valueAxis, StackedBands.shows_zero,
      fun values edge value => StackedBands.shows_edge edge,
      StackedBands.low_valueAxis_eq_zero_iff⟩

/-- The second table starts before the first one, lacks its first value and goes below zero. -/
theorem axes_show_everything_laterFirst :
    let late : Table Rat :=
      { index := [.clamp 2000000000, .clamp 3000000000]
        columns := [⟨"up", [some 1, some 4]⟩]
        rectangular := by decide }
    let early : Table Rat :=
      { index := [.clamp 1000000000, .clamp 2000000000]
        columns := [⟨"down", [none, some (-3)]⟩]
        rectangular := by decide }
    (∀ table ∈ [late, early], table.index.Pairwise (· ≤ ·)) ∧
      panelSeries [late, early] = [[⟨"up", [(1, 1), (2, 4)]⟩], [⟨"down", [(1, -3)]⟩]] ∧
      (∃ origin, IsOrigin [late, early] origin ∧
        panelSeries [late, early] = [late, early].map (linesOf (secondsAfter origin))) ∧
      (∃ last > 0, timeAxis (panelSeries [late, early]).flatten = ⟨0, last⟩ ∧ 2 ≤ last) ∧
      (StackedBands.ofTable early).valueAxis.Shows (-3) := by
  intro late early
  have ordered : ∀ table ∈ [late, early], table.index.Pairwise (· ≤ ·) := by decide
  have lines : panelSeries [late, early] =
      [[⟨"up", [(1, 1), (2, 4)]⟩], [⟨"down", [(1, -3)]⟩]] := by decide +kernel
  have edges : (StackedBands.ofTable early).edges = [[0, 0], [0, -3]] := by decide +kernel
  obtain ⟨placed, -, ⟨last, positive, axis, reached⟩, -, shown⟩ := axes_show_everything ordered
  obtain ⟨-, -, edgesShown, -⟩ := shown early
  rw [lines] at reached
  rw [edges] at edgesShown
  have since := placed.resolve_left fun empty =>
    absurd (empty.1 late List.mem_cons_self) (by decide)
  have reachesEnd : 2 ≤ last := reached ⟨"up", [(1, 1), (2, 4)]⟩ (by simp) (2, 4) (by simp)
  exact ⟨ordered, lines, since, ⟨last, positive, axis, reachesEnd⟩,
    edgesShown [0, -3] (by simp) (-3) (by simp)⟩

end MetricRates.Chart
