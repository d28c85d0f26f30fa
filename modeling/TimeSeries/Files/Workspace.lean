/-
# TimeSeries.Files.Workspace — a tree of files held as a value.

On the state of a workspace a command is a plain function: from the files and the input that it
finds to its outcome and the files that it leaves. A path is followed step by step: what every step
but the last leads to has to be a directory, also where a later step leads up again.
-/
import TimeSeries.Files.Basic

namespace TimeSeries

/-- What stands at a place. -/
inductive FileNode
  | directory
  | file (content : ByteArray)

/-- A tree of files by the steps from its root, the place that relative paths start at, and what
standard input holds. -/
structure Workspace where
  current : List Path.Name
  nodes : List (List Path.Name × FileNode)
  input : String

namespace Workspace

/-- A workspace with no files, inside one directory. -/
def start (current : List Path.Name) : Workspace where
  current
  nodes := (List.range current.length).map fun n => (current.take (n + 1), .directory)
  input := ""

/-- What stands at a place; the root is a directory. -/
def node? (w : Workspace) (place : List Path.Name) : Option FileNode :=
  if place.isEmpty then some .directory else (w.nodes.find? (·.1 == place)).map Prod.snd

/-- Puts a node at a place. -/
def put (w : Workspace) (place : List Path.Name) (node : FileNode) : Workspace :=
  { w with nodes := (place, node) :: w.nodes.filter (·.1 != place) }

/-! ## Following a path -/

/-- Takes a step from a place, where a directory must stand. -/
def follow (w : Workspace) (place : List Path.Name) (step : Path.Name) :
    Except FileError (List Path.Name) :=
  match w.node? place with
  | none => .error .notFound
  | some (.file _) => .error .notDirectory
  | some .directory =>
    if step.isEmpty || step == Path.here then .ok place
    else if step == Path.up then .ok place.dropLast
    else if 255 < step.length then .error .nameTooLong
    else .ok (place ++ [step])

/-- The place that a path leads to; there need not be anything yet. -/
def resolve (w : Workspace) (path : Path) : Except FileError (List Path.Name) :=
  if path.bytes.contains 0 then .error .unnameable
  else if path.bytes.isEmpty then .error .notFound
  else if 4096 ≤ path.bytes.length then .error .nameTooLong
  else path.names.foldlM w.follow (if path.isAbsolute then [] else w.current)

/-- What stands at a path. -/
def find (w : Workspace) (path : Path) : Except FileError FileNode := do
  match w.node? (← w.resolve path) with
  | some node => .ok node
  | none => .error .notFound

/-! ## Operations -/

/-- The kind of what stands at a path. -/
def kind (w : Workspace) (path : Path) : Except FileError FileKind := do
  match ← w.find path with
  | .directory => .ok .directory
  | .file _ => .ok .file

/-- The contents of a file. -/
def read (w : Workspace) (path : Path) : Except FileError ByteArray := do
  match ← w.find path with
  | .directory => .error .isDirectory
  | .file content => .ok content

/-- Replaces or makes a file. -/
def write (w : Workspace) (path : Path) (content : ByteArray) : Except FileError Workspace := do
  let place ← w.resolve path
  match w.node? place with
  | some .directory => .error .isDirectory
  | _ => .ok (w.put place (.file content))

/-- Makes a directory. -/
def makeDirectory (w : Workspace) (path : Path) : Except FileError Workspace := do
  let place ← w.resolve path
  match w.node? place with
  | some _ => .error .alreadyExists
  | none => .ok (w.put place .directory)

/-- Removes a file. -/
def remove (w : Workspace) (path : Path) : Except FileError Workspace := do
  let place ← w.resolve path
  match w.node? place with
  | none => .error .notFound
  | some .directory => .error .isDirectory
  | some (.file _) => .ok { w with nodes := w.nodes.filter (·.1 != place) }

/-- The step from a workspace to the one that a change leaves; a failed change leaves it as it
is. -/
def change (f : Workspace → Except FileError Workspace) : StateM Workspace (Except FileError Unit) :=
  fun w =>
    match f w with
    | .ok w' => (.ok (), w')
    | .error e => (.error e, w)

instance : MonadFiles (StateM Workspace) where
  kind path := fun w => (w.kind path, w)
  read path := fun w => (w.read path, w)
  write path content := change (·.write path content)
  makeDirectory path := change (·.makeDirectory path)
  remove path := change (·.remove path)
  currentDirectory := fun w => (Path.ofSteps true w.current, w)
  readInput := fun w => (w.input, w)

end Workspace
end TimeSeries
