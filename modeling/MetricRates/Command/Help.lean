import MetricRates.Settings.Preset
import MetricRates.Text.Cut
import MetricRates.Text.Named
import MetricRates.Text.Terminal

/-!
# Printed help

The texts that the command line prints instead of a report.
-/

namespace MetricRates.Command

/-- The name and number of the program. -/
def versionLine : String := "ratechart 0.1.0"

/-- A text with spaces after it up to a width. -/
def padEnd (width : Nat) (text : String) : String :=
  text ++ String.ofList (List.replicate (width - text.length) ' ')

/-! ## The help -/

/-- A bold text on a terminal. -/
def bold (text : String) : String :=
  "\x1b[1m" ++ text ++ "\x1b[0m"

/-- A heading on a terminal. -/
def heading (text : String) : String :=
  bold ("\x1b[4m" ++ text)

/-- A text whose further lines are indented. -/
def indentRest (width : Nat) (text : String) : String :=
  String.intercalate ("\n" ++ padEnd width "")
    ((Text.cutAt '\n' text.toList).map String.ofList)

/-- What the help says about an option. -/
structure OptionHelp where
  short : Option Char
  long : String
  value : Option String
  about : String
  deriving Repr

/-- The options, given the setting of the environment that turns colors off. -/
def optionHelps (environment : Option String) : List OptionHelp :=
  [ ⟨some 'f', "family", some "NAME",
      "Family to report: a preset or a [[family]] from the config (repeatable)"⟩,
    ⟨none, "config", some "CONFIG",
      "Path to config file (TOML/JSON). " ++
        "Defaults to ./ratechart.toml or ./ratechart.json if present"⟩,
    ⟨some 'w', "window", some "WINDOW",
      "Rows between the two ends of each rate window (default: 10)"⟩,
    ⟨none, "labels", some "LABELS",
      "Comma-separated label allow-list applied to every selected family"⟩,
    ⟨some 'c', "charts-path", some "CHARTS_PATH",
      "Directory for PNG charts [default: charts]"⟩,
    ⟨none, "no-charts", none, "Disable chart generation"⟩,
    ⟨none, "export-csv", some "DIR", "Write one CSV table per family into this directory"⟩,
    ⟨none, "export-json", some "DIR", "Write one JSON table per family into this directory"⟩,
    ⟨none, "list-families", none, "Print the built-in family presets and exit"⟩,
    ⟨some 'v', "verbose", none,
      "Enable verbose logging " ++
        "(sets log level to debug unless overridden by RATECHART_LOG/RUST_LOG)"⟩,
    ⟨none, "no-color", none,
      "Disable color output [env: NO_COLOR=" ++ environment.getD "" ++ "]"⟩,
    ⟨some 'h', "help", none, "Print help"⟩,
    ⟨some 'V', "version", none, "Print version"⟩ ]

/-- The option as it is written, with a way to stress names. -/
def OptionHelp.usage (option : OptionHelp) (stress : String → String) : String :=
  (match option.short with
    | some name => stress ("-" ++ name.toString) ++ ", "
    | none => "    ") ++
  stress ("--" ++ option.long) ++
  (match option.value with
    | some value => " <" ++ value ++ ">"
    | none => "")

/-- The width of an option as it is written. -/
def OptionHelp.width (option : OptionHelp) : Nat :=
  (option.usage id).length

/-- The lines about an option where the longest one has a width. -/
def OptionHelp.text (longest : Nat) (option : OptionHelp) : String :=
  "  " ++ option.usage bold ++ padEnd (longest + 2 - option.width) "" ++
    indentRest (longest + 4) option.about

/-- The lines about options. -/
def optionTexts (options : List OptionHelp) : List String :=
  options.map (OptionHelp.text ((options.map OptionHelp.width).foldl max 0))

/-- The description of the program, as it is shown where the output is no
terminal. -/
def helpText (environment : Option String) : String :=
  Text.Terminal.plainText <| String.intercalate "\n" <|
    [ "Turn raw metric samples into per-second rate and duration tables, " ++
        "with PNG charts and CSV/JSON exports.",
      "",
      heading "Usage:" ++ " " ++ bold "ratechart" ++ " [OPTIONS] [INPUT]",
      "",
      heading "Arguments:",
      "  [INPUT]  Metrics CSV with time, name, label, and value columns",
      "",
      heading "Options:" ] ++
    optionTexts (optionHelps environment)

/-! ## The list of families -/

/-- The width of the kinds in the list of families. -/
def kindWidth : Nat := 13

/-- The line of a built-in family in a list with names of a width. -/
def presetLine (width : Nat) (preset : Preset) : String :=
  padEnd width preset.name ++ "  " ++ padEnd kindWidth (Named.name preset.kind) ++ "  " ++
    preset.metric ++ ": " ++ String.intercalate ", " preset.labels

/-- The list of the built-in families, with a hint. -/
def familyLines : List String :=
  let width := (presets.map fun preset => preset.name.length).foldl max 0
  presets.map (presetLine width) ++
    ["",
     "Samples with other labels are ignored; use --labels a,b,c " ++
       "or a [[family]] labels key to change a family's allow-list."]

end MetricRates.Command
