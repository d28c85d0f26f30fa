/-
# TimeSeries.Settings.File — what a settings file says.

A settings file is a TOML document with a table for each part of the program. Unknown keys are
passed over; a key that is known must have a value of its type. A part may also be an array, which
gives its settings in order.
-/
import TimeSeries.Settings.Basic
import TimeSeries.Toml.Document

namespace TimeSeries.Settings

open Toml (Value Entries)

/-! ## Single settings -/

/-- A text. -/
def textOf? : Value → Option String
  | .string text => some text
  | _ => none

/-- A value without contents, which may stand behind a name. -/
def isHollow : Value → Bool
  | .array [] => true
  | .table _ [] => true
  | _ => false

/-- A name: a text, or the one key of a table whose value is hollow. -/
def nameOf? : Value → Option String
  | .string text => some text
  | .table _ [(key, v)] => if isHollow v then some key else none
  | _ => none

/-- The name of a backend. -/
def backendOf? (v : Value) : Option Backend := (nameOf? v).bind Backend.ofName?

/-- The name of a policy. -/
def policyOf? (v : Value) : Option Ingest.Policy := (nameOf? v).bind Ingest.Policy.ofName?

/-! ## Parts -/

/-- The settings of a part in the order of their names, each of them with its value if it has
one. A part is a table, or an array that gives the first values in order. A date stands for a table
without any of the keys that are known. -/
def part? (names : List String) : Option Value → Option (List (Option Value))
  | none => some (names.map fun _ => none)
  | some (.dateTime _) => some (names.map fun _ => none)
  | some (.table _ es) => some (names.map fun name => Entries.get? es name)
  | some (.array vs) => some (names.zipIdx.map fun (_, i) => vs[i]?)
  | some (.tables ts) =>
    let vs := ts.reverse.map (Value.table .header)
    some (names.zipIdx.map fun (_, i) => vs[i]?)
  | some _ => none

/-- Reads a setting that may be left out: refused only when it is there and has no value of its
type. -/
def optional? {α : Type} (read? : Value → Option α) : Option Value → Option (Option α)
  | none => some none
  | some v => (read? v).map some

/-! ## Documents -/

/-- The settings that a document gives. -/
def Layer.ofDocument? (es : Entries) : Option Layer := do
  let storage ← part? ["backend", "path"] (es.get? "storage")
  let ingest ← part? ["batch_policy"] (es.get? "ingest")
  let query ← part? ["default_database"] (es.get? "query")
  let logging ← part? ["level", "format"] (es.get? "logging")
  some {
    backend := ← optional? backendOf? (storage[0]?.join)
    path := ← optional? textOf? (storage[1]?.join)
    policy := ← optional? policyOf? (ingest[0]?.join)
    defaultDatabase := ← optional? textOf? (query[0]?.join)
    logLevel := ← optional? textOf? (logging[0]?.join)
    logFormat := ← optional? textOf? (logging[1]?.join) }

/-- The settings that the text of a file gives. -/
def Layer.ofText? (text : String) : Option Layer := (Toml.readDocument? text).bind Layer.ofDocument?

/-- The text of a settings file with comments, for a user to start from. -/
def fileTemplate : String :=
  String.join ([
   "# refluxdb Configuration",
   "#",
   "# Environment variables override these settings:",
   "# - REFLUXDB_STORAGE_BACKEND",
   "# - REFLUXDB_DB_PATH",
   "# - REFLUXDB_BATCH_POLICY",
   "# - REFLUXDB_DEFAULT_DATABASE",
   "# - REFLUXDB_LOG_LEVEL",
   "# - REFLUXDB_LOG_FORMAT",
   "",
   "[storage]",
   "# Point store: memory (lost on exit) or sqlite",
   "backend = \"sqlite\"",
   "",
   "# SQLite database file",
   "path = \"./refluxdb_data/points.db\"",
   "",
   "[ingest]",
   "# On a malformed line: abort (stop the batch) or skip (report and continue)",
   "batch_policy = \"abort\"",
   "",
   "[query]",
   "# Database reported by SHOW DATABASES before any CREATE DATABASE",
   "default_database = \"mydb\"",
   "",
   "[logging]",
   "# Log level: trace, debug, info, warn, error",
   "level = \"info\"",
   "",
   "# Log format: pretty (for development) or json (for production)",
   "format = \"pretty\""].map (· ++ "\n"))

end TimeSeries.Settings
