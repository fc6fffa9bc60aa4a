import MetricRates.Text.Blank

/-!
# File names

The result of a family is written to a file that is named after it.  Only
letters, digits, dashes, underscores and inner dots are kept, so that a name
never leads out of its directory.
-/

namespace MetricRates.Report

/-- Whether a character may stand in a file name. -/
def isFileNameChar (c : Char) : Bool :=
  c.isAlphanum || c == '-' || c == '_' || c == '.'

/-- A character as it stands in a file name. -/
def fileNameChar (c : Char) : Char :=
  if isFileNameChar c then c else '-'

/-- Whether a character is a dot. -/
def isDot (c : Char) : Bool :=
  c == '.'

/-- Drop the dots at both ends. -/
def trimDots (cs : List Char) : List Char :=
  Text.dropEndWhile isDot (cs.dropWhile isDot)

/-- The file name of a family without its extension, in characters. -/
def fileStemChars (family : List Char) : List Char :=
  match trimDots (family.map fileNameChar) with
  | [] => "family".toList
  | stem => stem

/-- The file name of a family without its extension. -/
def fileStem (family : String) : String :=
  String.ofList (fileStemChars family.toList)

/-- The file name of the chart of a family or group. -/
def chartFileName (family : String) : String :=
  fileStem family ++ ".png"

end MetricRates.Report
