import MetricRates.Command.Line
import MetricRates.Command.Value

/-!
# Reading the command line

Arguments are read from left to right.  An option takes its value from its own
argument or from the next one; an option that still waits for its value, and a
value that is not yet looked at, are settled when the next known argument is
read or at the end.  An unknown argument is reported before they are settled.
-/

namespace MetricRates.Command

/-! ## What can be given -/

/-- An option with a value. -/
inductive OptionName where
  | family
  | config
  | window
  | labels
  | chartsPath
  | exportCsv
  | exportJson
  deriving DecidableEq, Repr

/-- An option without value. -/
inductive Switch where
  | noCharts
  | listFamilies
  | verbose
  | noColor
  deriving DecidableEq, Repr

/-- What an option asks for. -/
inductive Flag where
  | option (name : OptionName)
  | switch (switch : Switch)
  | help
  | version
  deriving DecidableEq, Repr

/-- The long names. -/
def longNames : List (String × Flag) :=
  [("family", .option .family), ("config", .option .config), ("window", .option .window),
   ("labels", .option .labels), ("charts-path", .option .chartsPath),
   ("no-charts", .switch .noCharts), ("export-csv", .option .exportCsv),
   ("export-json", .option .exportJson), ("list-families", .switch .listFamilies),
   ("verbose", .switch .verbose), ("no-color", .switch .noColor), ("help", .help),
   ("version", .version)]

/-- The short names. -/
def shortNames : List (Char × Flag) :=
  [('f', .option .family), ('w', .option .window), ('c', .option .chartsPath),
   ('v', .switch .verbose), ('h', .help), ('V', .version)]

/-- Why a command line is no request for a report. -/
inductive Refusal where
  | missingArgument
  | unknownArgument
  | invalidValue
  | failedValidation
  | conflict
  | tooManyValues
  | help
  | version
  deriving DecidableEq, Repr

/-! ## Values -/

/-- What has been read but not settled. -/
inductive Pending where
  | option (name : OptionName) (value : Option String)
  | input (value : String)
  deriving DecidableEq, Repr

/-- Set a value that may only be given once. -/
def once {α : Type} (current : Option α) (value : Except Refusal α) :
    Except Refusal (Option α) :=
  if current.isSome then .error .conflict else value.map some

/-- A value that is read by its own rules. -/
def validated {α : Type} : Except ValueError α → Except Refusal α
  | .ok value => .ok value
  | .error _ => .error .failedValidation

/-- Give an option its value. -/
def Line.give (line : Line) (name : OptionName) (value : String) : Except Refusal Line := do
  match name with
  | .family => return { line with families := line.families ++ [value] }
  | .config => return { line with config := ← once line.config (.ok value) }
  | .window => return { line with window := ← once line.window (validated (readWindow value)) }
  | .labels => return { line with labels := ← once line.labels (validated (readLabels value)) }
  | .chartsPath => return { line with chartsPath := ← once line.chartsPath (.ok value) }
  | .exportCsv => return { line with exportCsv := ← once line.exportCsv (.ok value) }
  | .exportJson => return { line with exportJson := ← once line.exportJson (.ok value) }

/-- Turn a switch on that may only be given once. -/
def turnOn (current : Bool) : Except Refusal Bool :=
  if current then .error .conflict else .ok true

/-- Give a switch. -/
def Line.turn (line : Line) (switch : Switch) : Except Refusal Line := do
  match switch with
  | .noCharts => return { line with noCharts := ← turnOn line.noCharts }
  | .listFamilies => return { line with listFamilies := ← turnOn line.listFamilies }
  | .verbose => return { line with verbose := ← turnOn line.verbose }
  | .noColor => return { line with noColor := ← turnOn line.noColor }

/-- Settle what has been read. -/
def Line.settle (line : Line) : Option Pending → Except Refusal Line
  | none => .ok line
  | some (.option _ none) => .error .invalidValue
  | some (.option name (some value)) => line.give name value
  | some (.input value) =>
      if value.isEmpty then .error .invalidValue else .ok { line with input := some value }

/-! ## Arguments -/

/-- How far the reading of a command line is. -/
structure State where
  line : Line := {}
  pending : Option Pending := none
  /-- Whether a path has been given, settled or not. -/
  hasInput : Bool := false
  /-- Whether only paths can follow. -/
  onlyPaths : Bool := false

/-- The state with everything settled. -/
def State.settled (state : State) : Except Refusal State := do
  return { state with line := ← state.line.settle state.pending, pending := none }

/-- Read an option, with the value in its own argument if there is one. -/
def State.readOption (state : State) (name : OptionName) (value : Option String) :
    Except Refusal State := do
  let state ← state.settled
  match value with
  | some value => return { state with line := ← state.line.give name value }
  | none => return { state with pending := some (.option name none) }

/-- Read an option that has no value. -/
def State.readSwitch (state : State) (switch : Switch) : Except Refusal State := do
  let state ← state.settled
  return { state with line := ← state.line.turn switch }

/-- Stop once everything is settled. -/
def State.stop (state : State) (reason : Refusal) : Except Refusal State := do
  let _ ← state.settled
  throw reason

/-- Read a long option without its dashes. -/
def State.readLong (state : State) (text : List Char) : Except Refusal State :=
  let name := String.ofList (text.takeWhile (· != '='))
  let value :=
    match text.dropWhile (· != '=') with
    | _ :: value => some (String.ofList value)
    | [] => none
  match longNames.lookup name with
  | none => .error .unknownArgument
  | some (.option option) => state.readOption option value
  | some flag =>
      if value.isSome then .error .tooManyValues
      else
        match flag with
        | .switch switch => state.readSwitch switch
        | .help => state.stop .help
        | _ => state.stop .version

/-- The value that follows a short option in its own argument. -/
def attachedValue : List Char → Option String
  | [] => none
  | '=' :: value => some (String.ofList value)
  | value => some (String.ofList value)

/-- Read short options in one argument: switches, and at the end an option with
its value. -/
def State.readShort (state : State) : List Char → Except Refusal State
  | [] => .ok state
  | letter :: rest =>
      match shortNames.lookup letter with
      | none => .error .unknownArgument
      | some (.option option) => state.readOption option (attachedValue rest)
      | some (.switch switch) => do (← state.readSwitch switch).readShort rest
      | some .help => state.stop .help
      | some .version => state.stop .version

/-- Read a path. -/
def State.readPath (state : State) (path : String) : Except Refusal State :=
  if state.hasInput then .error .unknownArgument
  else do
    let state ← state.settled
    return { state with pending := some (.input path), hasInput := true }

/-- Read an argument that is no option: the value that an option waits for, or
a path. -/
def State.readPlain (state : State) (text : String) : Except Refusal State :=
  match state.pending with
  | some (.option name none) =>
      .ok { state with pending := some (.option name (some text)) }
  | _ => state.readPath text

/-- Read one argument. -/
def State.read (state : State) (text : String) : Except Refusal State :=
  if state.onlyPaths then state.readPath text
  else
    match text.toList with
    | ['-', '-'] => .ok { state with onlyPaths := true }
    | '-' :: '-' :: name => state.readLong name
    | '-' :: letter :: letters => state.readShort (letter :: letters)
    | _ => state.readPlain text

/-! ## The whole line -/

/-- Whether colors are off: given on the command line, or else decided by the
environment. -/
def colorChoice (given : Bool) (environment : Option String) : Except Refusal Bool :=
  match given, environment with
  | false, some value => validated (readSwitch value)
  | _, _ => .ok given

/-- Read a command line, given the setting of the environment that turns colors
off.  A path is needed unless only a list of families is asked for. -/
def readLine (arguments : List String) (environment : Option String) :
    Except Refusal Line := do
  let state ← arguments.foldlM State.read {}
  let line := (← state.settled).line
  let noColor ← colorChoice line.noColor environment
  if line.input.isNone && !line.listFamilies then throw .missingArgument
  return { line with noColor }

end MetricRates.Command
