/-
# TimeSeries.Files.Basic — the files that a command reads and writes.

Commands do their work in any monad that offers these few operations. A failure is a value, told
apart by its cause as far as messages show it.
-/
import TimeSeries.Files.Path

namespace TimeSeries

/-! ## Failures -/

/-- Why a file cannot be read or written. -/
inductive FileError
  | notFound
  | isDirectory
  | notDirectory
  | alreadyExists
  /-- The path, or one of its steps, is longer than a path or step can be. -/
  | nameTooLong
  /-- The path holds a NUL character, which no file has in its name. -/
  | unnameable
  /-- The file is no text. -/
  | notText
  | other (text : String)
deriving Repr, DecidableEq

/-- A failure in the words of the operating system. -/
def FileError.message : FileError → String
  | .notFound => "No such file or directory (os error 2)"
  | .isDirectory => "Is a directory (os error 21)"
  | .notDirectory => "Not a directory (os error 20)"
  | .alreadyExists => "File exists (os error 17)"
  | .nameTooLong => "File name too long (os error 36)"
  | .unnameable => "file name contained an unexpected NUL byte"
  | .notText => "stream did not contain valid UTF-8"
  | .other text => text

/-! ## Operations -/

/-- What can stand at a path. -/
inductive FileKind
  | directory
  | file
deriving Repr, DecidableEq

/-- Files and standard input. -/
class MonadFiles (m : Type → Type) where
  /-- What stands at a path. -/
  kind : Path → m (Except FileError FileKind)
  /-- The contents of a file. -/
  read : Path → m (Except FileError ByteArray)
  /-- Replaces the contents of a file, or makes the file. Its directory must exist. -/
  write : Path → ByteArray → m (Except FileError Unit)
  /-- Makes a directory inside one that exists. -/
  makeDirectory : Path → m (Except FileError Unit)
  /-- Removes a file. -/
  remove : Path → m (Except FileError Unit)
  /-- The directory that relative paths start in. -/
  currentDirectory : m Path
  /-- All that standard input holds. -/
  readInput : m String

namespace MonadFiles

variable {m : Type → Type} [Monad m] [MonadFiles m]

/-- The text of a file. -/
def readText (path : Path) : m (Except FileError String) := do
  match ← read path with
  | .error e => return .error e
  | .ok content =>
    match String.fromUTF8? content with
    | some text => return .ok text
    | none => return .error .notText

/-- Replaces the text of a file, or makes the file. -/
def writeText (path : Path) (text : String) : m (Except FileError Unit) := write path text.toUTF8

/-- Makes a directory, unless it is there already. -/
def ensureDirectory (path : Path) : m (Except FileError Unit) := do
  match ← makeDirectory path with
  | .error .alreadyExists =>
    match ← kind path with
    | .ok .directory => return .ok ()
    | _ => return .error .alreadyExists
  | result => return result

/-- Makes the first of some directories, each of which lies in the next one, and as many of the
others as are missing. -/
def ensureNested : List Path → m (Except FileError Unit)
  | [] => return .ok ()
  | path :: outer => do
    match ← ensureDirectory path with
    | .error .notFound =>
      match ← ensureNested outer with
      | .error e => return .error e
      | .ok () => ensureDirectory path
    | result => return result

end MonadFiles
end TimeSeries
