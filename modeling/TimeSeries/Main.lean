/-
# TimeSeries.Main — the program.

It gathers what a run depends on, the files, the environment, the account and the clock, and shows
how the run ended. Everything that is decided is decided in `CommandLine.run`.
-/
import TimeSeries.CommandLine.Run
import Std.Time.DateTime.Timestamp

namespace TimeSeries.Program

/-! ## Files -/

/-- The cause of a failure, as far as messages tell causes apart. -/
def fileError (e : IO.Error) : FileError :=
  match e with
  | .noFileOrDirectory .. => .notFound
  | .noSuchThing .. => .notFound
  | .alreadyExists .. => .alreadyExists
  | .inappropriateType _ 21 _ => .isDirectory
  | .inappropriateType .. => .notDirectory
  | .invalidArgument _ code text =>
    if code = 36 ∨ code = 4294967260 then .nameTooLong else .other text
  | e => .other (toString e)

/-- Runs an action on the file of a path and tells its failure as a value. -/
def attempt {α : Type} (path : Path) (action : String → IO α) : IO (Except FileError α) := do
  if path.bytes.contains 0 then return .error .unnameable
  try
    return .ok (← action path.text)
  catch e =>
    return .error (fileError e)

/-- What stands at a path: a directory can be opened as a file can, but not read. -/
def kind (path : Path) : IO (Except FileError FileKind) := do
  let found ← attempt path fun file => do
    let handle ← IO.FS.Handle.mk file .read
    discard (handle.read 1)
  match found with
  | .ok () => return .ok .file
  | .error .isDirectory => return .ok .directory
  | .error e => return .error e

instance : MonadFiles IO where
  kind
  read path := attempt path fun file => IO.FS.readBinFile file
  write path content := attempt path fun file => IO.FS.writeBinFile file content
  makeDirectory path := attempt path fun file => IO.FS.createDir file
  remove path := attempt path fun file => IO.FS.removeFile file
  currentDirectory := do return (toString (← IO.currentDir) : String)
  readInput := do (← IO.getStdin).readToEnd

/-! ## Environment, account and clock -/

/-- The variables that are set, of those that are read. -/
def environment : IO Environment := do
  let pairs ← Environment.names.mapM fun name => do
    return (name, ← IO.getEnv name)
  return fun name => (pairs.lookup name).join

/-- The directory of a user, by number, in the list of accounts. -/
def homeOf? (accounts user : String) : Option String :=
  let directory? := (accounts.splitOn "\n").findSome? fun account =>
    match account.splitOn ":" with
    | [_, _, number, _, _, directory, _] => if number = user then some directory else none
    | _ => none
  directory?.filter (!·.isEmpty)

/-- The number of the user that a process belongs to, in what the system tells of the process. -/
def userOf? (state : String) : Option String :=
  (state.splitOn "\n").findSome? fun line =>
    match line.splitOn "\t" with
    | "Uid:" :: user :: _ => some user
    | _ => none

/-- The directory of the account that the program runs under, if it has one. -/
def accountHome : IO (Option String) := do
  try
    let state ← IO.FS.readFile "/proc/self/status"
    let accounts ← IO.FS.readFile "/etc/passwd"
    return (userOf? state).bind (homeOf? accounts)
  catch _ =>
    return none

/-- The time, at the last moment that can be told if it lies beyond that. -/
def clock : IO Nanos := do
  let now ← Std.Time.Timestamp.now
  return (Nanos.ofInt? now.toNanosecondsSinceUnixEpoch.val).getD Nanos.last

end TimeSeries.Program

/-- Runs the program with the arguments of the process. -/
def main (arguments : List String) : IO UInt32 := do
  let env ← TimeSeries.Program.environment
  let account ← TimeSeries.Program.accountHome
  let now ← TimeSeries.Program.clock
  let outcome ←
    TimeSeries.CommandLine.run (m := IO) env now arguments (env.baseDirectories account)
  IO.print outcome.output
  if let some message := outcome.failure then
    IO.eprintln ("Error: " ++ message)
  return outcome.code.toUInt32
