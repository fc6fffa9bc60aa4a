import MetricRates.Command.Help
import MetricRates.Command.Reading
import MetricRates.Report.Run

/-!
# The program

A command line without arguments prints the help, unless settings are there to
go by.  Otherwise the command line is read and carried out.
-/

namespace MetricRates.Program

open Disk Command

variable {m : Type → Type} [Monad m]

/-- How the program ends. -/
inductive Ending where
  | success
  | failure (cause : RunError)
  | refused (reason : Refusal)
  deriving DecidableEq

/-- The number that the program ends with. -/
def Ending.code : Ending → Nat
  | .success => 0
  | .failure _ => 1
  | .refused _ => 2

/-- Whether a command line has no arguments to speak of. -/
def isBare (arguments : List String) : Bool :=
  arguments.isEmpty || arguments == ["--"]

/-- Whether settings are in one of the usual files. -/
def hasUsualSettings (host : Host m) : m Bool := do
  return (← Settings.firstPresent host Settings.usualFiles).isSome

/-- Carry out a command line that was read. -/
def carryOut (host : Host m) (line : Line) : m Ending := do
  if line.listFamilies then
    host.printAll familyLines
    return .success
  else
    match ← Report.run host line with
    | .ok () => return .success
    | .error cause => return .failure cause

/-- Run the program, given the setting of the environment that turns colors
off. -/
def run (host : Host m) (arguments : List String) (environment : Option String) :
    m Ending := do
  let settingsThere ← hasUsualSettings host
  if isBare arguments && !settingsThere then
    host.printAll [helpText environment, ""]
    return .success
  else
    match readLine arguments environment with
    | .ok line => carryOut host line
    | .error .help => do
        host.print (helpText environment)
        return .success
    | .error .version => do
        host.print versionLine
        return .success
    | .error reason => return .refused reason

end MetricRates.Program
