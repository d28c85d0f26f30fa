/-
# TimeSeries.Settings.Load — the settings of a run.

A file that is named must be there and be readable. Without one, the first of three places that
holds a readable file gives the settings; a file there that cannot be read is passed over as if it
were missing, and so is a place that the system does not have. What the system has, and how the text
of a file is read, are parameters: they are the program's own unless others are given.
-/
import TimeSeries.Files.Basic
import TimeSeries.Settings.Environment
import TimeSeries.Settings.File
import TimeSeries.Text.Display

namespace TimeSeries.Settings

/-! ## Failures -/

/-- Why a settings file cannot be used. -/
inductive Error
  /-- It cannot be read. -/
  | file (path : String) (cause : FileError)
  /-- It is no document, or a setting has no value of its type. -/
  | content (path : String)
deriving Repr, DecidableEq

/-- The failure as it is reported. -/
def Error.message : Error → String
  | .file path cause =>
    "Failed to read config file " ++ Text.display path ++ ": " ++ cause.message
  | .content path => "Failed to parse config file " ++ Text.display path

/-! ## One text, and several -/

/-- The settings of a file's layer, without the environment's. -/
def ofLayer (dirs : BaseDirectories) (l : Layer) : Settings :=
  (defaults dirs.databasePath).overlay l

/-- The settings that an environment gives on its own. -/
def ofEnvironment (env : Environment) (dirs : BaseDirectories := env.baseDirectories) : Settings :=
  ofLayer dirs (.ofEnvironment env)

/-- The settings where files are searched for: the environment's layer over the first text that can
be read, or over the defaults. A place without a file has no text. -/
def resolve (env : Environment) (dirs : BaseDirectories) (read? : String → Option Layer)
    (texts : List (Option String)) : Settings :=
  let layer := (texts.findSome? fun text => text.bind read?).getD .empty
  (ofLayer dirs layer).overlay (.ofEnvironment env)

/-! ## Files -/

variable {m : Type → Type} [Monad m] [MonadFiles m]

/-- The settings of a named file. -/
def load (env : Environment) (path : String) (dirs : BaseDirectories := env.baseDirectories)
    (read? : String → Option Layer := Layer.ofText?) : m (Except Error Settings) := do
  match ← MonadFiles.readText path with
  | .error cause => pure (.error (.file path cause))
  | .ok text =>
    match read? text with
    | none => pure (.error (.content path))
    | some layer => pure (.ok (ofLayer dirs layer))

/-- The settings of a named file with the environment's over them. -/
def loadWithEnvironment (env : Environment) (path : String)
    (dirs : BaseDirectories := env.baseDirectories)
    (read? : String → Option Layer := Layer.ofText?) : m (Except Error Settings) := do
  match ← load env path dirs read? with
  | .error e => pure (.error e)
  | .ok s => pure (.ok (s.overlay (Layer.ofEnvironment env)))

/-- The places where a settings file is searched for, in order. -/
def searchPaths (dirs : BaseDirectories) : List String :=
  dirs.settingsPath?.toList ++ ["/etc/refluxdb/config.toml", "./config.toml"]

/-- The settings where no file is named. -/
def loadDefault (env : Environment) (dirs : BaseDirectories := env.baseDirectories)
    (read? : String → Option Layer := Layer.ofText?) : m Settings := do
  let texts ← (searchPaths dirs).mapM fun (path : String) => do
    match ← MonadFiles.readText path with
    | .ok text => pure (some text)
    | .error _ => pure none
  pure (resolve env dirs read? texts)

end TimeSeries.Settings
