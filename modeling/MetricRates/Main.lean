import MetricRates.Event.Filter
import MetricRates.Program
import MetricRates.Report.Png

/-!
# Running the program

The system that the program runs on is a host: files are read and written, lines
are printed to the standard output, and events go to the standard error.
-/

namespace MetricRates

open Disk Command

/-- The cause of a failed operation on files. -/
def diskError (cause : IO.Error) : DiskError :=
  match cause with
  | .noFileOrDirectory .. => .notFound
  | .alreadyExists .. => .alreadyExists
  | _ => .other (toString cause)

/-- Carry out an operation on files. -/
def attempt {α : Type} (action : IO α) : IO (Except DiskError α) :=
  try return .ok (← action)
  catch cause => return .error (diskError cause)

/-- Read a file, and tell opening it from reading it. -/
def readSystemFile (path : String) : IO (Except ReadFailure (List UInt8)) := do
  match ← attempt (IO.FS.Handle.mk path .read) with
  | .error cause => return .error ⟨.opening, cause⟩
  | .ok handle =>
      match ← attempt handle.readBinToEnd with
      | .error cause => return .error ⟨.reading, cause⟩
      | .ok bytes => return .ok bytes.toList

/-- The bytes of a file of the given content. -/
def Disk.Content.fileBytes : Content → ByteArray
  | .bytes content => ⟨content.toArray⟩
  | .picture width height => ⟨(Report.Png.whitePicture width height).toArray⟩

/-- How events are shown. -/
structure Display where
  filter : EventFilter
  colored : Bool

/-- Show an event. -/
def Display.show (display : Display) (event : Event) : IO Unit := do
  if display.filter.shows event then
    IO.eprintln (if display.colored then event.coloredLine else event.line)

/-- The system as a host. -/
def systemHost (display : Display) : Host IO where
  has path := do
    match ← attempt (IO.FS.realPath path) with
    | .ok _ => return true
    | .error _ => return false
  readFile := readSystemFile
  makeDirectories path :=
    if path.isEmpty then return .ok () else attempt (IO.FS.createDirAll path)
  writeFile path content := attempt (IO.FS.writeBinFile path content.fileBytes)
  print := IO.println
  tell := display.show

/-- The message for a command line that is refused. -/
def refusalText : Refusal → String
  | .missingArgument => "the following required arguments were not provided: <INPUT>"
  | .unknownArgument => "unexpected argument found"
  | .invalidValue => "a value is required but none was supplied"
  | .failedValidation => "invalid value for an argument"
  | .conflict => "an argument cannot be used multiple times"
  | .tooManyValues => "unexpected value for an argument"
  | .help | .version => ""

/-- Say how the program ended, if it did not succeed. -/
def report : Program.Ending → IO Unit
  | .success => return ()
  | .failure cause => IO.eprintln ("Error: " ++ cause.message)
  | .refused reason => IO.eprintln ("error: " ++ refusalText reason)

/-- How events are shown for a command line. -/
def chooseDisplay (arguments : List String) (environment : Option String) : IO Display := do
  let line := (readLine arguments environment).toOption.getD {}
  let settings := [← IO.getEnv "RATECHART_LOG", ← IO.getEnv "RUST_LOG"]
  return { filter := .choose settings line.verbose, colored := !line.noColor }

end MetricRates

open MetricRates in
/-- Run the program. -/
def main (arguments : List String) : IO UInt32 := do
  let environment ← IO.getEnv "NO_COLOR"
  let display ← chooseDisplay arguments environment
  let ending ← Program.run (systemHost display) arguments environment
  report ending
  return ending.code.toUInt32
