/-
# TimeSeries.CommandLine.Run — what a run does.

The arguments are read first, then the settings, then the command does its work; the first failure
ends the run. Points that were stored before a failure stay stored: the database file is written
back whenever it could be opened.
-/
import TimeSeries.CommandLine.Report
import TimeSeries.Settings.Load
import TimeSeries.Store.Database
import TimeSeries.Store.Series

namespace TimeSeries.CommandLine

/-! ## Outcomes -/

/-- How a run ended: its exit code, what it wrote and the message of its failure. -/
structure Outcome where
  code : Nat
  output : String
  failure : Option String
deriving Repr, DecidableEq

namespace Outcome

/-- A run that did its work. -/
def done (output : String) : Outcome := ⟨0, output, none⟩

/-- A run that failed. -/
def failed (message : String) : Outcome := ⟨1, "", some message⟩

/-- A run whose arguments are at fault. -/
def misused : Outcome := ⟨2, "", none⟩

/-- The end of a step that gives its output or fails with a message. -/
def ofExcept : Except String String → Outcome
  | .ok output => done output
  | .error message => failed message

end Outcome

/-! ## Stores -/

/-- A store of either backend. -/
inductive AnyStore
  | series (s : SeriesStore)
  | table (t : TableStore)

instance : PointStore AnyStore where
  save
    | .series s, x => .series (PointStore.save s x)
    | .table t, x => .table (PointStore.save t x)
  range
    | .series s => PointStore.range s
    | .table t => PointStore.range t
  measurements
    | .series s => PointStore.measurements s
    | .table t => PointStore.measurements t

/-- The store of a run: series that are gone when it ends, or a database. -/
inductive OpenStore
  | series (s : SeriesStore)
  | database (d : Database)

namespace OpenStore

/-- The store itself. -/
def store : OpenStore → AnyStore
  | .series s => .series s
  | .database d => .table d.table

/-- Stores the lines of a text. The first sample for a database that may not be changed ends the
run, so a run that leaves such a database as it was has not been stopped. -/
def ingest (o : OpenStore) (policy : Ingest.Policy) (now : Nanos) (body : String) :
    OpenStore × Except String Ingest.Report :=
  let clock := fun _ => now
  let worded (r : Except Ingest.Rejected Ingest.Report) : Except String Ingest.Report :=
    r.mapError Ingest.Rejected.message
  match o with
  | .series s =>
    let (s, result) := Ingest.run policy clock body s
    (.series s, worded result)
  | .database d =>
    let (table, result) := Ingest.run policy clock body d.table
    if d.writable || table.next = d.table.next then
      (.database { d with table }, worded result)
    else (o, .error ("Storage error: " ++ Database.Error.readOnly.message))

end OpenStore

variable {m : Type → Type} [Monad m] [MonadFiles m]

/-- Opens the store that settings name. -/
def openStore (s : Settings) : m (Except String OpenStore) := do
  match s.backend with
  | .memory => return .ok (.series .empty)
  | .database =>
    match ← Database.openPath s.path with
    | .ok d => return .ok (.database d)
    | .error e => return .error e.message

/-- Writes a store back to where it is kept. -/
def closeStore : OpenStore → m Unit
  | .series _ => return ()
  | .database d => d.close

/-! ## Commands -/

/-- The text of a file, or of standard input for `-`. -/
def readSource (file : String) : m (Except String String) := do
  if file = "-" then return .ok (← MonadFiles.readInput)
  match ← MonadFiles.readText file with
  | .ok text => return .ok text
  | .error _ => return .error ("reading " ++ file)

/-- Stores the lines of a source. -/
def write (s : Settings) (asJson : Bool) (now : Nanos) (file : String) :
    m (Except String String) := do
  match ← readSource file with
  | .error e => return .error e
  | .ok body =>
    match ← openStore s with
    | .error e => return .error e
    | .ok store =>
      let (store, result) := store.ingest s.policy now body
      closeStore store
      match result with
      | .error e => return .error e
      | .ok r => return .ok (shown asJson (ingestText r) (ingestJson r))

/-- Stores the lines of a source, if one is named. -/
def loadLines (s : Settings) (now : Nanos) (load : Option String) (store : OpenStore) :
    m (Except String Unit × OpenStore) := do
  match load with
  | none => return (.ok (), store)
  | some file =>
    match ← readSource file with
    | .error e => return (.error e, store)
    | .ok body =>
      let (store, result) := store.ingest s.policy now body
      match result with
      | .error e => return (.error e, store)
      | .ok _ => return (.ok (), store)

/-- Answers a query. -/
def query (s : Settings) (asJson : Bool) (now : Nanos) (text : String) (load : Option String) :
    m (Except String String) := do
  match ← openStore s with
  | .error e => return .error e
  | .ok store =>
    let (loaded, store) ← loadLines s now load store
    closeStore store
    match loaded with
    | .error e => return .error e
    | .ok () =>
      match ((Query.Session.start s.defaultDatabase).executeText store.store text now).1 with
      | .error e => return .error e.message
      | .ok answer => return .ok (shown asJson (answerText answer) (answerJson answer))

/-- Shows what one line says. -/
def decode (asJson : Bool) (line : String) : Except String String :=
  match Line.decode line with
  | .error e => .error e.message
  | .ok r => .ok (shown asJson (recordText r) (recordJson r))

/-- Shows a settings file, or writes it to a path. -/
def config (output : Option String) : m (Except String String) := do
  match output with
  | none => return .ok Settings.fileTemplate
  | some path =>
    match ← MonadFiles.writeText path Settings.fileTemplate with
    | .ok () => return .ok ("Config written to " ++ Text.display path ++ "\n")
    | .error _ => return .error ("writing config to " ++ Text.display path)

/-- Does what a request asks for. -/
def perform (env : Environment) (dirs : BaseDirectories) (now : Nanos) (r : Request) :
    m Outcome := do
  let settings ←
    match r.settingsFile with
    | some path => Settings.loadWithEnvironment env path dirs
    | none => do
      let s ← Settings.loadDefault env dirs
      pure (Except.ok s)
  match settings with
  | .error e => return .failed e.message
  | .ok s =>
    match r.command with
    | .write file => return .ofExcept (← write s r.asJson now file)
    | .query text load => return .ofExcept (← query s r.asJson now text load)
    | .decode line => return .ofExcept (decode r.asJson line)
    | .config output => return .ofExcept (← config output)

/-- A run with these arguments at this time. -/
def run (env : Environment) (now : Nanos) (arguments : List String)
    (dirs : BaseDirectories := env.baseDirectories) : m Outcome := do
  match Task.ofArguments arguments with
  | .perform r => perform env dirs now r
  | .tell text => return .done text
  | .refuse => return .misused

end TimeSeries.CommandLine
