/-
# TimeSeries.Store.Database — opening and closing the file of a table.

The directories of the path come first, made where they are missing. The path is then read as an
address, and the name in it as a place. A file with fewer than two bytes is a new database; any
other must hold one. A file that can have a log is switched to it before its table is made, so a
failure in between leaves a database without a table.
-/
import TimeSeries.Store.Address
import TimeSeries.Store.Document
import TimeSeries.Store.Place

namespace TimeSeries

/-- An open database. -/
structure Database where
  table : TableStore
  /-- The file that it is written back to; none if there is no file, or nothing to be written. -/
  place : Option Path
  /-- Changes go through a log beside the file. -/
  logged : Bool
  /-- It may be changed. -/
  writable : Bool

namespace Database

/-! ## Failures -/

/-- Why a database cannot be used. -/
inductive Error
  /-- The directory of its file cannot be made. -/
  | directory (cause : FileError)
  /-- The path holds a NUL character at this place, counted in bytes. -/
  | unnameable (place : Nat)
  | address (cause : Address.Error)
  /-- Its file cannot be opened. -/
  | file (path : String)
  /-- A file beside its file cannot be opened. -/
  | companion
  /-- Its file, or what it depends on, cannot be read. -/
  | unreadable
  /-- Its file is in use. -/
  | locked
  /-- Its file is no database. -/
  | content
  /-- It would have to be changed and may not be. -/
  | readOnly
deriving Repr, DecidableEq

/-- The failure as it is reported. -/
def Error.message : Error → String
  | .directory cause => "IO error: " ++ cause.message
  | .unnameable place => engine ("nul byte found in provided data at position: " ++ toString place)
  | .address cause => engine cause.message
  | .file path => engine ("unable to open database file: " ++ path)
  | .companion => engine "unable to open database file"
  | .unreadable => engine "disk I/O error"
  | .locked => engine "database is locked"
  | .content => engine "file is not a database"
  | .readOnly => engine "attempt to write a readonly database"
where
  /-- A failure in the words of the database engine. -/
  engine (text : String) : String := "SQLite error: " ++ text

/-! ## Contents -/

/-- The database of some contents. Its table is made if it is missing. -/
def ofContents (c : Contents) (place : Path) (writable : Bool) : Except Error Database :=
  match c.table with
  | some table => .ok ⟨table, if writable then some place else none, c.logged, writable⟩
  | none =>
    if writable then .ok ⟨.empty, some place, c.logged, true⟩ else .error .readOnly

/-- A file with these contents is a new database. -/
def isNew (content : ByteArray) : Bool := content.size < 2

/-- The contents that a file is used with, from those that it has. A new database has no table yet.
A change of the file needs a journal. -/
def contentsFor (a : Address) (content : ByteArray) (canJournal : Bool) :
    Except Error Contents :=
  if isNew content then
    if !a.isWritable then .error .readOnly
    else if !canJournal then .error .companion
    else .ok ⟨none, a.isLogged⟩
  else
    match Contents.ofBytes? content with
    | none => .error .content
    | some c =>
      if c.logged && !a.isLogged then .error .companion
      else if !c.logged && a.isLogged && !a.isWritable then .error .readOnly
      else .ok { c with logged := a.isLogged }

/-- The database in a file that nobody changes. -/
def ofFixed (content : ByteArray) (place : Path) : Except Error Database :=
  if isNew content then .error .readOnly
  else
    match Contents.ofBytes? content with
    | none => .error .content
    | some c => ofContents c place false

variable {m : Type → Type} [Monad m] [MonadFiles m]

/-! ## Using a file -/

/-- Whether a file is marked as in use, where marks are looked at. -/
def markFault? (a : Address) (place : Path) : m (Option Error) := do
  if a.fileSystem ≠ .marking || a.unlocked then return none
  match ← Companion.mark.kind place with
  | .ok _ => return some .locked
  | .error .nameTooLong => return some .unreadable
  | .error _ => return none

/-- Uses up the journal beside a file. One that starts with a zero undoes nothing, nor does one
beside a new database. -/
def journalFault? (a : Address) (place : Path) (new : Bool) : m (Option Error) := do
  match ← Companion.journal.read place with
  | .error .isDirectory => return if new then none else some .unreadable
  | .error _ => return none
  | .ok content =>
    let undoes := !new && !content.isEmpty && content[0]? ≠ some 0
    if undoes && !a.isWritable then return some .readOnly
    if a.isWritable && (new || undoes) then Companion.journal.remove place
    return none

/-- Takes away a log that is left beside a new database. One beside another database can only be
used where there are logs. -/
def logFault? (a : Address) (place : Path) (new : Bool) : m (Option Error) := do
  match ← Companion.log.read place with
  | .error .isDirectory => return some (if new then .unreadable else .companion)
  | .error _ => return none
  | .ok content =>
    if content.isEmpty then return none
    if new then
      Companion.log.remove place
      return none
    return if a.isLogged then none else some .companion

/-- What can be done with the index of a log. -/
inductive IndexAccess
  | nothing
  | reading
  | changing
deriving Repr, DecidableEq

/-- What can be done with the index beside a file. A process that has the file for itself keeps the
index in its memory. -/
def indexAccess (a : Address) (place : Path) : m IndexAccess := do
  if a.fileSystem = .exclusive && a.isWritable then return .changing
  match ← Companion.index.kind place with
  | .ok .directory => return .reading
  | .ok .file => return if a.fixedIndex then .reading else .changing
  | .error _ => return if a.fixedIndex then .nothing else .changing

/-- Opens a database whose changes go through a log. The log and its index are gone after the
database has been used, unless it could not be changed. -/
def openLogged (a : Address) (place : Path) (c : Contents) : m (Except Error Database) := do
  let access ← indexAccess a place
  if access = .changing && a.isWritable then
    Companion.log.remove place
    if a.fileSystem ≠ .exclusive then Companion.index.remove place
    return ofContents c place true
  if let .error _ ← Companion.log.kind place then Companion.log.write place .empty
  match access with
  | .nothing => return .error .companion
  | .reading => return ofContents c place false
  | .changing =>
    Companion.index.write place [Contents.leadByte].toByteArray
    return ofContents c place false

/-- The first fault that some checks find. -/
def firstFault? : List (m (Option Error)) → m (Option Error)
  | [] => return none
  | check :: checks => do
    match ← check with
    | some e => return some e
    | none => firstFault? checks

/-- Opens the database in a file with these contents, at a place whose last step is `step`. -/
def openFile (a : Address) (place : Path) (step : Path.Name) (content : ByteArray) :
    m (Except Error Database) := do
  if a.immutable then return ofFixed content place
  let new := isNew content
  let fault ← firstFault? [markFault? a place, journalFault? a place new, logFault? a place new]
  if let some e := fault then return .error e
  let journal ← Companion.journal.kind place
  let canJournal := step.length ≤ longestStep && !(journal matches .ok .directory)
  match contentsFor a content canJournal with
  | .error e => return .error e
  | .ok c =>
    if a.isWritable then let _ ← MonadFiles.write place c.bytes
    if c.logged then openLogged a place c else return ofContents c place a.isWritable

/-! ## Opening -/

/-- The contents of the file at a place. A missing file is made, if it may be. -/
def contentAt (path : String) (place : Path) (access : Access) :
    m (Except Error ByteArray) := do
  match ← MonadFiles.kind place with
  | .ok .directory => return .error (if access = .read then .unreadable else .file path)
  | .ok .file =>
    match ← MonadFiles.read place with
    | .ok content => return .ok content
    | .error _ => return .error (.file path)
  | .error _ =>
    if access ≠ .create then return .error (.file path)
    match ← MonadFiles.write place .empty with
    | .ok () => return .ok .empty
    | .error _ => return .error (.file path)

/-- Opens a database that is kept for one run. -/
def openVolatile (path : String) (a : Address) : Except Error Database :=
  if !a.isAnonymous && longestMemoryName < a.name.bytes.length then .error (.file path)
  else if a.isWritable then .ok ⟨.empty, none, false, true⟩
  else .error .readOnly

/-- Opens the database of an address that was written as this path. -/
def openAddress (path : String) (a : Address) : m (Except Error Database) := do
  if a.isVolatile then return openVolatile path a
  match ← locate a.name with
  | none => return .error (.file path)
  | some steps =>
    let place := Path.ofSteps true steps
    if let some source := a.permissionsOf then
      if let .error _ ← MonadFiles.kind source then return .error .unreadable
    match ← contentAt path place a.access with
    | .error e => return .error e
    | .ok content => openFile a place (steps.getLast?.getD []) content

/-- Opens the database of a path. -/
def openPath (path : String) : m (Except Error Database) := do
  if let .error cause ← MonadFiles.ensureNested (Path.ofText path).parents then
    return .error (.directory cause)
  let named := path.toList.takeWhile (· != '\x00')
  if named.length < path.length then
    return .error (.unnameable (String.ofList named).utf8ByteSize)
  match Address.read path with
  | .error cause => return .error (.address cause)
  | .ok a => openAddress path a

/-! ## Closing -/

/-- Writes a database back to its file. -/
def close (d : Database) : m Unit := do
  if let some place := d.place then
    let _ ← MonadFiles.write place (Contents.bytes ⟨some d.table, d.logged⟩)

end Database
end TimeSeries
