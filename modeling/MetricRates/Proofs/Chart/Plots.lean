import Mathlib.Data.List.Forall2
import MetricRates.Chart.Picture
import MetricRates.Proofs.Chart.Bands
import MetricRates.Proofs.Chart.Lines

/-!
# What plots show

A plot leaves out no column of its table.  As lines, in a plot by itself or as one of several
panels, a table is shown with exactly one point for each present cell.
-/

namespace MetricRates.Chart

open Time

variable {style : ChartStyle} {titleSize : Nat} {table : Table Float}

/-- The seconds from an origin to an instant. -/
def drawnSeconds (origin time : Timestamp) : Float :=
  Float.ofInt (time.nanos - origin.nanos) / 1000000000.0

/-- A plot portrays a table on a time axis: under the title of a style and next to its unit
there is a line for each column, in the order of the columns, with one point for each present
cell, in the order of the rows. -/
structure Portrays (origin : Timestamp) (axis : Interval Float) (style : ChartStyle)
    (table : Table Float) (plot : Plot) : Prop where
  title : plot.title = style.title
  unit : plot.valueLabel = style.unit
  axis : plot.timeAxis = axis
  marks : plot.marks = table.columns.map fun column =>
    ⟨column.name, .line (presentPoints (drawnSeconds origin) table column)⟩

/-! ## Lines -/

theorem portrays_linePlot {origin : Timestamp} {axis : Interval Float} {label : String}
    {series : List (Series Float)}
    (lines : series = linesOf (fun time => Scalar.seconds (time.nanosSince origin)) table) :
    Portrays origin axis style table (linePlot style titleSize axis label series) where
  title := rfl
  unit := rfl
  axis := rfl
  marks := by
    rw [lines, linePlot, linesOf, List.map_map]
    rfl

/-- A table that is drawn as lines by itself is portrayed since its first row. -/
theorem portrays_tablePlot {origin : Timestamp} (kind : style.kind = .line)
    (starts : table.index.head? = some origin) :
    Portrays origin (timeAxis (seriesOf table)) style table
      (tablePlot style titleSize table) := by
  rw [tablePlot, kind]
  apply portrays_linePlot
  obtain ⟨index, columns, rectangular⟩ := table
  cases index with
  | nil => cases starts
  | cons first rest =>
      cases starts
      exact seriesFrom_eq_linesOf ..

/-! ## Panels -/

/-- Tables of which at least one has rows are portrayed on one time axis since the earliest
first row of any of them, each by its own plot. -/
theorem exists_portrays_panelPlots {panels : List (ChartStyle × Table Float)}
    (rows : ∃ panel ∈ panels, panel.2.index ≠ []) :
    ∃ origin axis, IsOrigin (panels.map Prod.snd) origin ∧
      List.Forall₂ (fun panel plot => Portrays origin axis panel.1 panel.2 plot) panels
        (panelPlots titleSize panels) := by
  obtain ⟨panel, listed, rows⟩ := rows
  rcases panelSeries_cases (panels.map Prod.snd) with ⟨empty, -⟩ | ⟨origin, isOrigin, series⟩
  · have noRows := empty panel.2 (List.mem_map_of_mem listed)
    exact absurd (List.isEmpty_iff.mp noRows) rows
  · exists origin, timeAxis (panelSeries (panels.map Prod.snd)).flatten, isOrigin
    apply List.forall₂_of_length_eq_of_get
    · simp [panelPlots, series]
    · intro position inPanels inPlots
      simp only [panelPlots, List.get_eq_getElem, List.getElem_map, List.getElem_zipIdx,
        List.getElem_zip]
      exact portrays_linePlot (by simp [series])

theorem length_panelSeries (tables : List (Table Float)) :
    (panelSeries tables).length = tables.length := by
  unfold panelSeries
  split <;> exact List.length_map ..

/-- Of plots over one time axis the last alone carries the label of the axis. -/
theorem timeLabels_panelPlots {panels : List (ChartStyle × Table Float)} (drawn : panels ≠ []) :
    (panelPlots titleSize panels).map Plot.timeLabel =
      List.replicate (panels.length - 1) "" ++ [elapsedTime] := by
  have positive : 0 < panels.length := List.length_pos_iff.mpr drawn
  apply List.ext_getElem
  · simp [panelPlots, length_panelSeries]
    omega
  · intro position inPlots inLabels
    have inPanels : position < panels.length := by
      simpa [panelPlots, length_panelSeries] using inPlots
    simp only [panelPlots, linePlot, List.getElem_map, List.getElem_zipIdx, Nat.zero_add]
    by_cases last : position + 1 = panels.length
    · simp [last]
    · have before : position < panels.length - 1 := by omega
      simp [before, last]

/-! ## Every column -/

theorem length_areas_ofTable (table : Table Float) :
    (StackedBands.ofTable table).areas.length = table.columnCount := by
  simp [StackedBands.areas, StackedBands.length_edges_ofTable]

/-- A table with rows that is drawn by itself has a mark for each column, in their order. -/
theorem names_marks_tablePlot (rows : table.index ≠ []) :
    (tablePlot style titleSize table).marks.map Mark.name = table.names := by
  cases kind : style.kind with
  | line =>
      obtain ⟨origin, starts⟩ := Option.isSome_iff_exists.mp (List.isSome_head?.mpr rows)
      rw [(portrays_tablePlot kind starts).marks, List.map_map]
      rfl
  | stackedArea =>
      rw [tablePlot, kind]
      apply List.ext_getElem
      · simp [stackedPlot, length_areas_ofTable, Table.names, Table.columnCount]
      · simp [stackedPlot]

end MetricRates.Chart
