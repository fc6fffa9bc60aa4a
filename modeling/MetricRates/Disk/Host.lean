import MetricRates.Disk.Tree
import MetricRates.Event

/-!
# Hosts

A run acts on its surroundings through a host: it reads and writes files, prints
lines and tells events.  A tree of files with the lines and events so far is a
host; so is the system that the program runs on.
-/

namespace MetricRates.Disk

/-- The step at which reading a file failed, and the cause. -/
structure ReadFailure where
  step : ReadStep
  cause : DiskError
  deriving DecidableEq, Repr

/-- What a run may do to its surroundings. -/
structure Host (m : Type → Type) where
  has : String → m Bool
  readFile : String → m (Except ReadFailure (List UInt8))
  makeDirectories : String → m (Except DiskError Unit)
  writeFile : String → Content → m (Except DiskError Unit)
  print : String → m Unit
  tell : Event → m Unit

/-- A tree of files with what was printed and told. -/
structure World where
  tree : Tree
  printed : Array String
  told : Array Event

/-- A world with nothing printed or told yet. -/
def World.ofTree (tree : Tree) : World := ⟨tree, #[], #[]⟩

/-- Read the bytes of a file in a tree.  A picture cannot be read as bytes. -/
def Tree.readFile (tree : Tree) (path : String) : Except ReadFailure (List UInt8) :=
  match tree.lookup path with
  | .error cause => .error ⟨.opening, cause⟩
  | .ok (.directory _) => .error ⟨.reading, .isDirectory⟩
  | .ok (.file (.bytes content)) => .ok content
  | .ok (.file (.picture _ _)) => .ok []

/-- A world as a host. -/
def Host.world : Host (StateM World) where
  has path := do return (← get).tree.has path
  readFile path := do return (← get).tree.readFile path
  makeDirectories path := do
    let (result, tree) := (← get).tree.makeDirectories path
    modify fun world => { world with tree }
    return result
  writeFile path content := do
    match (← get).tree.writeFile path content with
    | .ok tree =>
        modify fun world => { world with tree }
        return .ok ()
    | .error cause => return .error cause
  print line := modify fun world => { world with printed := world.printed.push line }
  tell event := modify fun world => { world with told := world.told.push event }

variable {m : Type → Type} [Monad m]

/-- Tell some events. -/
def Host.tellAll (host : Host m) (events : List Event) : m Unit :=
  events.forM host.tell

/-- Print some lines. -/
def Host.printAll (host : Host m) (lines : List String) : m Unit :=
  lines.forM host.print

end MetricRates.Disk
