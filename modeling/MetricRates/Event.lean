/-!
# Log events

What happens along the way is told as a list of events.  An event has a level
and a text; it never changes a result.
-/

namespace MetricRates

/-- How important an event is. -/
inductive Level where
  | trace
  | debug
  | info
  | warn
  | error
  deriving DecidableEq, Repr

/-- The name of a level in a log line. -/
def Level.name : Level → String
  | .trace => "TRACE"
  | .debug => "DEBUG"
  | .info => "INFO"
  | .warn => "WARN"
  | .error => "ERROR"

/-- One log event. -/
structure Event where
  level : Level
  text : String
  deriving DecidableEq, Repr

/-- A log line: the level and the text. -/
def Event.line (event : Event) : String :=
  event.level.name ++ " " ++ event.text

/-- An event for those who look for the cause of something. -/
def Event.debug (text : String) : Event := ⟨.debug, text⟩

/-- An event that tells of progress. -/
def Event.info (text : String) : Event := ⟨.info, text⟩

/-- An event that tells of data left out. -/
def Event.warn (text : String) : Event := ⟨.warn, text⟩

/-- An event that tells of a failure. -/
def Event.error (text : String) : Event := ⟨.error, text⟩

end MetricRates
