/-
# TimeSeries.Settings.Basic — the six settings, and the layers that give them.

A layer holds the settings that one source gives and leaves out the others. Laid over settings, it
replaces what it holds. The defaults lie at the bottom, a file above them, the environment on top.
-/
import TimeSeries.Ingest

namespace TimeSeries

/-! ## Backends -/

/-- Where points are kept. -/
inductive Backend
  /-- In the memory of the process, as series. -/
  | memory
  /-- In a database file, as the rows of a table. -/
  | database
deriving Repr, DecidableEq

namespace Backend

/-- The name of a backend in settings. -/
def name : Backend → String
  | .memory => "memory"
  | .database => "sqlite"

/-- The backend of a name, in exactly this case. -/
def ofName? (name : String) : Option Backend :=
  [memory, database].find? (·.name == name)

/-- Reads the name of a backend in any case; a name that is none is shown in lower case. -/
def read (text : String) : Except String Backend :=
  let word := String.ofList (Text.lower text.toList)
  match ofName? word with
  | some b => .ok b
  | none => .error ("unknown storage backend: " ++ word)

end Backend

namespace Ingest.Policy

/-- The name of a policy in settings. -/
def name : Policy → String
  | .abort => "abort"
  | .skip => "skip"

/-- The policy of a name, in exactly this case. -/
def ofName? (name : String) : Option Policy :=
  [abort, skip].find? (·.name == name)

/-- Reads the name of a policy in any case. -/
def read? (text : String) : Option Policy := ofName? (String.ofList (Text.lower text.toList))

end Ingest.Policy

/-! ## Settings and layers -/

/-- The settings of a run. -/
structure Settings where
  backend : Backend
  /-- The database file. -/
  path : String
  policy : Ingest.Policy
  defaultDatabase : String
  logLevel : String
  logFormat : String
deriving Repr, DecidableEq

namespace Settings

/-- The settings that are fixed, apart from the path of the database file. -/
def defaults (path : String) : Settings :=
  ⟨.database, path, .abort, "mydb", "info", "pretty"⟩

/-- Some of the settings, as one source gives them. -/
structure Layer where
  backend : Option Backend
  path : Option String
  policy : Option Ingest.Policy
  defaultDatabase : Option String
  logLevel : Option String
  logFormat : Option String
deriving Repr, DecidableEq

/-- The layer that holds nothing. -/
def Layer.empty : Layer := ⟨none, none, none, none, none, none⟩

/-- The settings with what a layer holds in place of theirs. -/
def overlay (s : Settings) (l : Layer) : Settings where
  backend := l.backend.getD s.backend
  path := l.path.getD s.path
  policy := l.policy.getD s.policy
  defaultDatabase := l.defaultDatabase.getD s.defaultDatabase
  logLevel := l.logLevel.getD s.logLevel
  logFormat := l.logFormat.getD s.logFormat

end Settings
end TimeSeries
