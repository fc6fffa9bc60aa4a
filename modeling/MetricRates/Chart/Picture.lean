import MetricRates.Chart.Bands
import MetricRates.Chart.Style

/-!
# Pictures

A picture has plots, one below the other.  A plot has an axis for the time and one for the
values, and each column that it shows leaves a mark: a line, or the area of its band.  A mark
has the color of its position, and the legend lists it by its name.  Margins, fonts and the
width of strokes are the same everywhere, and nothing is said about them here.
-/

namespace MetricRates.Chart

/-! ## What is drawn -/

/-- How a column is drawn: as a line through points or as the area inside an outline. -/
inductive Shape where
  | line (points : List (Float × Float))
  | area (outline : List (Float × Float))
  deriving DecidableEq, Repr

/-- A shape with the name of its column. -/
structure Mark where
  name : String
  shape : Shape
  deriving DecidableEq, Repr

/-- Marks between two axes, under a title. -/
structure Plot where
  title : String
  titleSize : Nat
  timeAxis : Interval Float
  timeLabel : String
  valueAxis : Interval Float
  valueLabel : String
  marks : List Mark
  deriving DecidableEq, Repr

/-- Plots from top to bottom, which share the height of the picture evenly. -/
structure Picture where
  width : Nat
  height : Nat
  plots : List Plot
  deriving DecidableEq, Repr

/-- The label of a time axis. -/
def elapsedTime : String := "Elapsed Time (seconds)"

/-! ## Lines -/

/-- The number that is larger than all others. -/
def infinity : Float := 1 / 0

/-- The value axis of some lines.  The search for the bounds starts with infinite ones, so
there is nothing to go by if there are no points. -/
def lineAxis (series : List (Series Float)) : Interval Float :=
  let values := series.flatMap fun line => line.points.map Prod.snd
  .padded (values.foldl smaller infinity) (values.foldl larger (-infinity))

/-- Lines in a style over a time axis. -/
def linePlot (style : ChartStyle) (titleSize : Nat) (axis : Interval Float) (label : String)
    (series : List (Series Float)) : Plot where
  title := style.title
  titleSize := titleSize
  timeAxis := axis
  timeLabel := label
  valueAxis := lineAxis series
  valueLabel := style.unit
  marks := series.map fun line => ⟨line.name, .line line.points⟩

/-! ## Areas -/

/-- The outline of a band: along its upper edge, and back along the lower one. -/
def outline (xs lower upper : List Float) : List (Float × Float) :=
  xs.zip upper ++ (xs.zip lower).reverse

/-- The areas of bands, each between one edge and the next. -/
def StackedBands.areas (bands : StackedBands Float) : List Shape :=
  List.zipWith (fun lower upper => .area (outline bands.xs lower upper))
    bands.edges bands.edges.tail

/-- The columns of a table stacked on each other, the first one at the bottom. -/
def stackedPlot (style : ChartStyle) (titleSize : Nat) (table : Table Float) : Plot :=
  let bands := StackedBands.ofTable table
  { title := style.title
    titleSize := titleSize
    timeAxis := bands.timeAxis
    timeLabel := elapsedTime
    valueAxis := bands.valueAxis
    valueLabel := style.unit
    marks := List.zipWith Mark.mk table.names bands.areas }

/-! ## Tables -/

/-- A table by itself, drawn as its style says. -/
def tablePlot (style : ChartStyle) (titleSize : Nat) (table : Table Float) : Plot :=
  match style.kind with
  | .line =>
      let series := seriesOf table
      linePlot style titleSize (timeAxis series) elapsedTime series
  | .stackedArea => stackedPlot style titleSize table

/-- Tables with styles as lines over one time axis, whose label stands below the last. -/
def panelPlots (titleSize : Nat) (panels : List (ChartStyle × Table Float)) : List Plot :=
  let series := panelSeries (panels.map Prod.snd)
  let axis := timeAxis series.flatten
  (panels.zip series).zipIdx.map fun entry =>
    let label := if entry.2 + 1 = panels.length then elapsedTime else ""
    linePlot entry.1.1.1 titleSize axis label entry.1.2

end MetricRates.Chart
