/-
# TimeSeries.Store.Place — where the file of a database stands, and what stands beside it.

The name in an address leads to a place: steps up are taken in the name alone, whatever stands
there. Beside a database file stand, at times, a journal that undoes a change, a log of changes with
an index, and a mark that the file is in use. Each has the name of the file with an ending.
-/
import TimeSeries.Files.Basic

namespace TimeSeries.Database

/-! ## Places -/

/-- The greatest length of a place, with room for the names of the files beside it. -/
def longestPlace : Nat := 504

/-- The greatest length of a step, with room for the name of a journal beside it. -/
def longestStep : Nat := 247

/-- The greatest length of the name of a database in memory. -/
def longestMemoryName : Nat := 1016

variable {m : Type → Type} [Monad m] [MonadFiles m]

/-- The place that steps lead to, from a place. What a step leads to may be missing, but it must be
possible to look. -/
def placeFrom (place : List Path.Name) : List Path.Name → m (Option (List Path.Name))
  | [] => return some place
  | step :: rest => do
    if step.isEmpty || step == Path.here then placeFrom place rest
    else if step == Path.up then placeFrom place.dropLast rest
    else
      let place := place ++ [step]
      let path := Path.ofSteps true place
      if longestPlace + 8 ≤ path.bytes.length then return none
      match ← MonadFiles.kind path with
      | .ok _ => placeFrom place rest
      | .error .notFound => placeFrom place rest
      | .error _ => return none

/-- The steps to the file of a name. -/
def locate (name : Path) : m (Option (List Path.Name)) := do
  let start ← if name.isAbsolute then pure [] else Path.steps <$> MonadFiles.currentDirectory
  match ← placeFrom start name.names with
  | some place =>
    if place.isEmpty || longestPlace < (Path.ofSteps true place).bytes.length then return none
    else return some place
  | none => return none

/-! ## Companions -/

/-- What can stand beside a database file. -/
inductive Companion
  /-- What undoes the change of a file that has no log. -/
  | journal
  /-- The log of changes. -/
  | log
  /-- The index of the log. -/
  | index
  /-- The directory that marks the file as in use. -/
  | mark
deriving Repr, DecidableEq

namespace Companion

/-- What is added to the name of the database file. -/
def ending : Companion → String
  | .journal => "-journal"
  | .log => "-wal"
  | .index => "-shm"
  | .mark => ".lock"

/-- The path beside a place. -/
def path (c : Companion) (place : Path) : Path := ⟨place.bytes ++ (Path.ofText c.ending).bytes⟩

/-- What stands there. -/
def kind (c : Companion) (place : Path) : m (Except FileError FileKind) :=
  MonadFiles.kind (c.path place)

/-- The contents of the file there. -/
def read (c : Companion) (place : Path) : m (Except FileError ByteArray) :=
  MonadFiles.read (c.path place)

/-- Replaces the contents of the file there, or makes it. -/
def write (c : Companion) (place : Path) (content : ByteArray) : m Unit := do
  let _ ← MonadFiles.write (c.path place) content

/-- Removes the file that may stand there. -/
def remove (c : Companion) (place : Path) : m Unit := do
  let _ ← MonadFiles.remove (c.path place)

end Companion
end TimeSeries.Database
