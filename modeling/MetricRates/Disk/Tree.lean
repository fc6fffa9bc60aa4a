import MetricRates.Chart.Picture
import MetricRates.Disk.Path
import MetricRates.Error
import MetricRates.Text.Entries

/-!
# Trees of files

A tree of files stands for what is on the disk, with one of its directories as
the working directory.  An entry that was put at a place is found there.
-/

namespace MetricRates.Disk

/-- What a file holds: bytes, or a picture of a size with its plots, which need no mention
where only the size matters. -/
inductive Content where
  | bytes (content : List UInt8)
  | picture (width height : Nat) {plots : List Chart.Plot}
  deriving DecidableEq, Repr

/-- The content of a text file. -/
def Content.ofText (text : String) : Content :=
  .bytes text.toUTF8.toList

/-- The content of a file with a picture. -/
def Content.ofPicture (picture : Chart.Picture) : Content :=
  @Content.picture picture.width picture.height picture.plots

/-- The names that lead to an entry: those of the directories that it is in and
its own name. -/
abbrev Place := List String

/-! ## Entries -/

/-- What stands under a name. -/
inductive Entry where
  | file (content : Content)
  | directory (entries : List (String × Entry))

namespace Entry

/-- What is in a directory; nothing is in a file. -/
def entries : Entry → List (String × Entry)
  | .file _ => []
  | .directory entries => entries

/-- What stands at a place in an entry. -/
def find? : Entry → Place → Option Entry
  | entry, [] => some entry
  | entry, name :: rest => (entry.entries.lookup name).bind fun inner => inner.find? rest

/-- The entry with a new one at a place; whatever is on the way there is a
directory afterwards. -/
def put : Entry → Place → Entry → Entry
  | _, [], new => new
  | entry, name :: rest, new =>
      let inner := (entry.entries.lookup name).getD (.directory [])
      .directory (Text.putEntry name (inner.put rest new) entry.entries)

mutual

/-- All that is in an entry, each with its place. -/
def contents : Entry → List (Place × Entry)
  | .file _ => []
  | .directory entries => contentsOfAll entries

/-- All that some entries are and hold, each with its place. -/
def contentsOfAll : List (String × Entry) → List (Place × Entry)
  | [] => []
  | (name, entry) :: rest =>
      ([name], entry) ::
        entry.contents.map (fun inner => (name :: inner.1, inner.2)) ++ contentsOfAll rest

end

/-- An entry that was put at a place is found there. -/
theorem find?_put (entry : Entry) (place : Place) (new : Entry) :
    (entry.put place new).find? place = some new := by
  induction place generalizing entry with
  | nil => rfl
  | cons name rest ih => simp [put, find?, entries, ih]

end Entry

/-! ## Walking -/

/-- A tree of files: what is in its root, and the place of the working
directory. -/
structure Tree where
  root : Entry
  home : Place

/-- A way from the root: the names gone through, each with what stands under it,
the last one first. -/
abbrev Trail := List (String × Option Entry)

/-- The place that a way leads to. -/
def Trail.place (trail : Trail) : Place :=
  (trail.map Prod.fst).reverse

/-- The length in bytes up to which a name is accepted. -/
def maxNameLength : Nat := 255

/-- The length in bytes up to which a path is accepted. -/
def maxPathLength : Nat := 4095

/-- Refuse a text that is no path. -/
def checkPath (path : String) : Except DiskError Unit :=
  if path.contains '\x00' then .error .invalidName
  else if path.isEmpty then .error .notFound
  else if maxPathLength < path.utf8ByteSize then .error .nameTooLong
  else .ok ()

namespace Tree

/-- The tree with nothing but a working directory. -/
def empty (home : Place) : Tree where
  root := (Entry.directory []).put home (.directory [])
  home := home

/-- What stands at a place. -/
def find? (tree : Tree) (place : Place) : Option Entry :=
  tree.root.find? place

/-- The tree with an entry at a place. -/
def put (tree : Tree) (place : Place) (entry : Entry) : Tree :=
  { tree with root := tree.root.put place entry }

/-- All that is in the working directory, each with its place in it. -/
def contents (tree : Tree) : List (Place × Entry) :=
  ((tree.find? tree.home).map Entry.contents).getD []

/-- What stands at the end of a way. -/
def standing (tree : Tree) : Trail → Option Entry
  | [] => some tree.root
  | last :: _ => last.2

/-- Follow a segment.  It needs a directory to start from, and may lead to
nothing. -/
def step (tree : Tree) (trail : Trail) (segment : String) : Except DiskError Trail :=
  match tree.standing trail with
  | none => .error .notFound
  | some (.file _) => .error .notDirectory
  | some (.directory entries) =>
      if staysPut segment then .ok trail
      else if segment = ".." then .ok trail.tail
      else if maxNameLength < segment.utf8ByteSize then .error .nameTooLong
      else .ok ((segment, entries.lookup segment) :: trail)

/-- Follow the segments of a path. -/
def follow (tree : Tree) (path : String) (segments : List String) : Except DiskError Trail := do
  checkPath path
  let start := if isAbsolute path then [] else tree.home
  (start ++ segments).foldlM tree.step []

/-! ## Operations -/

/-- What stands under a path. -/
def lookup (tree : Tree) (path : String) : Except DiskError Entry := do
  match tree.standing (← tree.follow path (segments path)) with
  | some entry => .ok entry
  | none => .error .notFound

/-- Whether anything stands under a path. -/
def has (tree : Tree) (path : String) : Bool :=
  match tree.lookup path with
  | .ok _ => true
  | .error _ => false

/-- Whether a directory stands under a path. -/
def isDirectory (tree : Tree) (path : String) : Bool :=
  match tree.lookup path with
  | .ok (.directory _) => true
  | _ => false

/-- Make one directory. -/
def makeDirectory (tree : Tree) (path : String) : Except DiskError Tree := do
  let trail ← tree.follow path (segmentsBeforeEnd path)
  match tree.standing trail with
  | some _ => .error .alreadyExists
  | none => .ok (tree.put trail.place (.directory []))

/-- A directory that is there already is as good as made. -/
def orPresent (tree : Tree) (path : String) (cause : DiskError) : Except DiskError Unit × Tree :=
  if tree.isDirectory path then (.ok (), tree) else (.error cause, tree)

/-- Make a directory and those that it is in; the paths are given from its own
one up. -/
def makeDirectoriesUp (tree : Tree) : List String → Except DiskError Unit × Tree
  | [] => (.ok (), tree)
  | path :: above =>
      match tree.makeDirectory path with
      | .ok made => (.ok (), made)
      | .error .notFound =>
          match tree.makeDirectoriesUp above with
          | (.error cause, tree) => (.error cause, tree)
          | (.ok (), tree) =>
              match tree.makeDirectory path with
              | .ok made => (.ok (), made)
              | .error cause => tree.orPresent path cause
      | .error cause => tree.orPresent path cause

/-- Make the directory of a path and those that it is in; directories made
before a failure stay.  The empty path needs no directory. -/
def makeDirectories (tree : Tree) (path : String) : Except DiskError Unit × Tree :=
  if path.isEmpty then (.ok (), tree)
  else tree.makeDirectoriesUp (path :: directoriesAbove (segments path).reverse)

/-- Write a file. -/
def writeFile (tree : Tree) (path : String) (content : Content) : Except DiskError Tree := do
  let trail ← tree.follow path (segments path)
  match tree.standing trail with
  | some (.directory _) => .error .isDirectory
  | _ => .ok (tree.put trail.place (.file content))

/-! ## Laws -/

/-- An entry that was put at a place is found there. -/
theorem find?_put (tree : Tree) (place : Place) (entry : Entry) :
    (tree.put place entry).find? place = some entry :=
  tree.root.find?_put place entry

end Tree

end MetricRates.Disk
