import MetricRates.Event

/-!
# Shown events

Events are shown from a level on.  The environment may name the level; otherwise
it follows from whether the command line asks for more.
-/

namespace MetricRates

/-- How high a level stands. -/
def Level.rank : Level → Nat
  | .trace => 0
  | .debug => 1
  | .info => 2
  | .warn => 3
  | .error => 4

/-- From which level on events are shown. -/
inductive EventFilter where
  | nothing
  | since (least : Level)
  deriving DecidableEq, Repr

namespace EventFilter

/-- The filter where the environment names none. -/
def ofVerbosity (verbose : Bool) : EventFilter :=
  if verbose then .since .debug else .since .info

/-- The filter that a setting of the environment names, in any letter case. -/
def ofSetting (setting : String) : EventFilter :=
  match String.ofList (setting.toList.map Char.toLower) with
  | "off" => .nothing
  | "error" => .since .error
  | "warn" => .since .warn
  | "debug" => .since .debug
  | "trace" => .since .trace
  | _ => .since .info

/-- The filter of a run: the first setting that is there decides. -/
def choose (settings : List (Option String)) (verbose : Bool) : EventFilter :=
  match settings.findSome? id with
  | some setting => ofSetting setting
  | none => ofVerbosity verbose

/-- Whether an event is shown. -/
def shows (filter : EventFilter) (event : Event) : Bool :=
  match filter with
  | .nothing => false
  | .since least => least.rank ≤ event.level.rank

end EventFilter

/-- The code that colors a level in a terminal. -/
def Level.color : Level → String
  | .trace => "35"
  | .debug => "34"
  | .info => "32"
  | .warn => "33"
  | .error => "31"

/-- The line of an event with a colored level. -/
def Event.coloredLine (event : Event) : String :=
  "\x1b[" ++ event.level.color ++ "m" ++ event.level.name ++ "\x1b[0m " ++ event.text

end MetricRates
