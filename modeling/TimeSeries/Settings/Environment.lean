/-
# TimeSeries.Settings.Environment — what the environment says.

Six variables set the six settings; a backend or policy that is none sets nothing. Three more tell
where the user's files are: a base directory counts only if its path is absolute, and otherwise lies
inside the user's own directory. A user may have no such directory.
-/
import TimeSeries.Files.Path
import TimeSeries.Settings.Basic

namespace TimeSeries

/-! ## Base directories -/

/-- The directories that the system has for files of a user. It need not have any. -/
structure BaseDirectories where
  /-- Where settings are kept. -/
  config : Option String
  /-- Where data are kept. -/
  data : Option String
deriving Repr, DecidableEq

namespace BaseDirectories

/-- The path of what lies inside a directory, which may be given with a slash at its end. -/
def inside (directory rest : String) : String :=
  if directory.isEmpty ∨ directory.toList.getLast? = some '/' then directory ++ rest
  else directory ++ "/" ++ rest

/-- The database file, unless another is set. Without a place for data it lies where relative paths
start. -/
def databasePath (dirs : BaseDirectories) : String :=
  match dirs.data with
  | some directory => inside (inside directory "refluxdb") "points.db"
  | none => "./refluxdb_data/points.db"

/-- The user's settings file, if there is a place for settings. -/
def settingsPath? (dirs : BaseDirectories) : Option String :=
  dirs.config.map fun directory => inside (inside directory "refluxdb") "config.toml"

end BaseDirectories

/-! ## Variables -/

/-- The variables that are set. -/
abbrev Environment := String → Option String

namespace Environment

/-- The names of all variables that are read. -/
def names : List String :=
  ["HOME", "XDG_CONFIG_HOME", "XDG_DATA_HOME", "REFLUXDB_STORAGE_BACKEND", "REFLUXDB_DB_PATH",
   "REFLUXDB_BATCH_POLICY", "REFLUXDB_DEFAULT_DATABASE", "REFLUXDB_LOG_LEVEL",
   "REFLUXDB_LOG_FORMAT"]

/-- The user's own directory: the one that is named, or else that of the account, if it has one. -/
def home (env : Environment) (account : Option String) : Option String :=
  ((env "HOME").filter (!·.isEmpty)).or account

/-- A base directory: the one that a variable names by an absolute path, or else the one inside
the user's own directory. -/
def baseDirectory (env : Environment) (account : Option String) (name rest : String) :
    Option String :=
  ((env name).filter fun directory => (Path.ofText directory).isAbsolute).or
    ((env.home account).map (BaseDirectories.inside · rest))

/-- The base directories of an account with this directory, which is the administrator's unless
another is given. -/
def baseDirectories (env : Environment) (account : Option String := some "/root") :
    BaseDirectories where
  config := env.baseDirectory account "XDG_CONFIG_HOME" ".config"
  data := env.baseDirectory account "XDG_DATA_HOME" ".local/share"

/-- The database file, unless another is set. -/
def defaultPath (env : Environment) : String := env.baseDirectories.databasePath

end Environment

namespace Settings

/-- The settings that the environment gives. -/
def Layer.ofEnvironment (env : Environment) : Layer where
  backend := (env "REFLUXDB_STORAGE_BACKEND").bind fun text => (Backend.read text).toOption
  path := env "REFLUXDB_DB_PATH"
  policy := (env "REFLUXDB_BATCH_POLICY").bind Ingest.Policy.read?
  defaultDatabase := env "REFLUXDB_DEFAULT_DATABASE"
  logLevel := env "REFLUXDB_LOG_LEVEL"
  logFormat := env "REFLUXDB_LOG_FORMAT"

end Settings
end TimeSeries
