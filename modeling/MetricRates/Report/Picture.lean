import MetricRates.Chart.Picture
import MetricRates.Disk.Host
import MetricRates.Report.FileName

/-!
# Pictures of charts

A family is drawn as one picture, a group of families as one picture with a
panel for each.  A family without rows is not drawn, and where nothing is drawn
no directory is made.
-/

namespace MetricRates.Report

open Chart Disk

variable {m : Type → Type} [Monad m]

/-! ## What is drawn -/

/-- The width of every picture. -/
def pictureWidth : Nat := 1600

/-- The height of the picture of a family. -/
def familyHeight : Nat := 600

/-- The height of a panel in the picture of a group. -/
def panelHeight : Nat := 400

/-- A family as a panel of a group. -/
structure Panel where
  name : String
  table : Table Float
  style : ChartStyle

/-- How a panel is to look. -/
def Panel.styled (panel : Panel) : ChartStyle × Table Float :=
  (panel.style, panel.table)

/-- The picture of a family. -/
def familyPicture (style : ChartStyle) (table : Table Float) : Picture where
  width := pictureWidth
  height := familyHeight
  plots := [tablePlot style 30 table]

/-- The picture of panels, which are drawn as lines whatever their styles say.  Its height is
at least that of one panel; no bound is set to it, as a height beyond 32 bits would be
beyond any memory. -/
def panelsPicture (panels : List Panel) : Picture where
  width := pictureWidth
  height := panelHeight * max panels.length 1
  plots := panelPlots 24 (panels.map Panel.styled)

/-! ## Drawing -/

/-- The event for a directory that cannot be made. -/
def directoryFailure (directory : String) (cause : DiskError) : Event :=
  .error ("Failed to create output directory '" ++ directory ++ "': " ++ cause.message)

/-- Write a picture into a directory, which is made if need be. -/
def draw (host : Host m) (directory name : String) (plotting : Event) (picture : Picture) :
    m (Except RunError String) := do
  match ← host.makeDirectories directory with
  | .error cause => do
      host.tell (directoryFailure directory cause)
      return .error (.disk cause)
  | .ok () => do
      let path := join directory (chartFileName name)
      host.tell plotting
      match ← host.writeFile path (.ofPicture picture) with
      | .error cause => return .error (.drawing cause)
      | .ok () => return .ok path

/-- Draw a family; the path of the picture is returned, if there is one. -/
def drawFamily (host : Host m) (directory family : String) (style : ChartStyle)
    (table : Table Float) : m (Except RunError (Option String)) := do
  if table.isEmpty then
    host.tell (.warn ("Family '" ++ family ++ "' has no rows; chart skipped"))
    return .ok none
  else
    let plotting := Event.info
      ("Plotting " ++ family ++ " (" ++ Named.name style.kind ++ ")...")
    return (← draw host directory family plotting (familyPicture style table)).map some

/-- The panels that have rows. -/
def drawnPanels (panels : List Panel) : List Panel :=
  panels.filter fun panel => !panel.table.isEmpty

/-- The event for a panel that is left out. -/
def leftOut (group : String) (panel : Panel) : Event :=
  .warn ("Family '" ++ panel.name ++ "' has no rows; left out of '" ++ group ++ "'")

/-- Draw a group; the path of the picture is returned, if there is one. -/
def drawGroup (host : Host m) (directory group : String) (panels : List Panel) :
    m (Except RunError (Option String)) := do
  host.tellAll ((panels.filter fun panel => panel.table.isEmpty).map (leftOut group))
  let drawn := drawnPanels panels
  if drawn.isEmpty then
    host.tell (.warn ("Chart group '" ++ group ++ "' has no rows; chart skipped"))
    return .ok none
  else
    let plotting := Event.info
      ("Plotting " ++ group ++ " (" ++ toString drawn.length ++ " panels)...")
    return (← draw host directory group plotting (panelsPicture drawn)).map some

end MetricRates.Report
