import MetricRates.Error
import MetricRates.Family.Spec
import MetricRates.Text.Blank
import MetricRates.Text.Cut

/-!
# Values on the command line

A window is a positive number, a list of labels is parted by commas, and a
switch is one of a few words.  Blank ends never count.
-/

namespace MetricRates.Command

open Text Number

/-- The window of a number of rows. -/
def windowOfNat (rows : Nat) : Except ValueError Window :=
  match Window.ofNat? rows with
  | some window => .ok window
  | none => .error (.tooSmall 1)

/-- Read a window. -/
def readWindow (text : String) : Except ValueError Window :=
  match readNat maxWord (trimChars text.toList) with
  | .ok rows => windowOfNat rows
  | .error cause => .error (.invalidNumber cause)

/-- The parts of a list of labels, without blank ends. -/
def labelParts (text : String) : List String :=
  (cutAt ',' text.toList).map fun part => String.ofList (trimChars part)

/-- Read a list of labels; a label that comes again counts once. -/
def readLabels (text : String) : Except ValueError (List String) :=
  if allBlank text.toList then .error .emptyLabelList
  else if (labelParts text).any String.isEmpty then .error (.emptyLabel text)
  else .ok (labelParts text).eraseDups

/-- The words that switch something on. -/
def onWords : List String := ["1", "true", "yes", "y", "on"]

/-- The words that switch something off. -/
def offWords : List String := ["0", "false", "no", "n", "off", ""]

/-- Read a switch; the case of ASCII letters does not count. -/
def readSwitch (text : String) : Except ValueError Bool :=
  let word := String.ofList ((trimChars text.toList).map Char.toLower)
  if word ∈ onWords then .ok true
  else if word ∈ offWords then .ok false
  else .error (.invalidBoolean text)

end MetricRates.Command
