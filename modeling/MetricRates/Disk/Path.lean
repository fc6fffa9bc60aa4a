import MetricRates.Text.Cut

/-!
# Paths

A path is a text of segments between slashes.  Empty segments and single dots
stay where they are; two dots go up.  A path that begins with a slash is
absolute, and any other one starts from the working directory.
-/

namespace MetricRates.Disk

open Text

/-- The segments of a path. -/
def segments (path : String) : List String :=
  (cutAt '/' path.toList).map String.ofList

/-- The path of some segments. -/
def ofSegments (segments : List String) : String :=
  String.intercalate "/" segments

/-- Whether a path starts from the root. -/
def isAbsolute (path : String) : Bool :=
  path.startsWith "/"

/-- Whether a segment stays where it is. -/
def staysPut (segment : String) : Bool :=
  segment.isEmpty || segment == "."

/-- The segments of a path that lead anywhere. -/
def properSegments (path : String) : List String :=
  (segments path).filter fun segment => !staysPut segment

/-- The segments of a path up to the slashes at its end. -/
def segmentsBeforeEnd (path : String) : List String :=
  ((segments path).reverse.dropWhile String.isEmpty).reverse

/-- The paths of the directories that something is in, the nearest first.  The
segments of its path are given from the last one on.  Neither the root nor the
working directory is among them. -/
def directoriesAbove : List String → List String
  | [] => []
  | segment :: rest =>
      if staysPut segment then directoriesAbove rest
      else
        match rest.dropWhile staysPut with
        | [] => []
        | above => ofSegments above.reverse :: directoriesAbove rest

/-- The path of a file in a directory. -/
def join (directory file : String) : String :=
  if directory.isEmpty || isAbsolute file then file
  else if directory.endsWith "/" then directory ++ file
  else directory ++ "/" ++ file

/-- The parts of a name before and after its last dot, if it has one. -/
def splitAtLastDot? (name : List Char) : Option (List Char × List Char) :=
  match (cutAt '.' name).reverse with
  | last :: before :: others =>
      some (List.intercalate ['.'] (others.reverse ++ [before]), last)
  | _ => none

/-- The extension of a path: what follows the last dot of its last segment,
unless nothing stands before that dot. -/
def extension? (path : String) : Option String :=
  match (properSegments path).getLast? with
  | none | some ".." => none
  | some name =>
      match splitAtLastDot? name.toList with
      | some (_ :: _, last) => some (String.ofList last)
      | _ => none

end MetricRates.Disk
