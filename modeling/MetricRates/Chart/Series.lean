import MetricRates.Chart.Interval
import MetricRates.Table.Basic

/-!
# Lines of a chart

Each column of a table becomes a line with one point for each present cell; the
time of a point is given in seconds since an origin.  Tables that share a time
axis share the origin: the earliest first row of any of them.
-/

namespace MetricRates.Chart

open Time

variable {α : Type} [Scalar α]

/-- A named line. -/
structure Series (α : Type) where
  name : String
  points : List (α × α)
  deriving DecidableEq, Repr

/-- The seconds from an origin to each row of a table. -/
def secondsFrom (origin : Timestamp) (table : Table α) : List α :=
  table.index.map fun time => Scalar.seconds (time.nanosSince origin)

/-- The seconds from the first row to each row of a table. -/
def rowSeconds (table : Table α) : List α :=
  match table.index with
  | [] => []
  | origin :: _ => secondsFrom origin table

/-- The points of a column over the seconds of its rows. -/
def pointsOf (seconds : List α) (cells : List (Option α)) : List (α × α) :=
  (seconds.zip cells).filterMap fun entry => entry.2.map fun y => (entry.1, y)

/-- The lines of a table, with times since an origin. -/
def seriesFrom (origin : Timestamp) (table : Table α) : List (Series α) :=
  table.columns.map fun column =>
    { name := column.name, points := pointsOf (secondsFrom origin table) column.cells }

/-- The lines of a table, with times since its first row. -/
def seriesOf (table : Table α) : List (Series α) :=
  match table.index with
  | [] => []
  | origin :: _ => seriesFrom origin table

/-- The earlier of two instants. -/
def earlier (a b : Timestamp) : Timestamp :=
  if b < a then b else a

/-- The earliest first row of some tables. -/
def sharedOrigin? (tables : List (Table α)) : Option Timestamp :=
  match tables.filterMap fun table => table.index.head? with
  | [] => none
  | first :: rest => some (rest.foldl earlier first)

/-- The lines of tables that share a time axis. -/
def panelSeries (tables : List (Table α)) : List (List (Series α)) :=
  match sharedOrigin? tables with
  | none => tables.map fun _ => []
  | some origin => tables.map (seriesFrom origin)

/-- The time axis of some lines. -/
def timeAxis (series : List (Series α)) : Interval α :=
  .covering (series.flatMap fun line => line.points.map Prod.fst)

end MetricRates.Chart
