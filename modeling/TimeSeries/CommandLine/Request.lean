/-
# TimeSeries.CommandLine.Request — what a run can be asked for, and by which words.

Four commands do the work. Each has its name, at most one positional argument and some options,
all of which take a value.
-/

namespace TimeSeries.CommandLine

/-! ## Requests -/

/-- What is to be done. -/
inductive Command
  /-- Store the lines of a file, or of standard input for `-`. -/
  | write (file : String)
  /-- Answer a query, after storing the lines of a file, if one is named. -/
  | query (text : String) (load : Option String)
  /-- Show what one line says. -/
  | decode (line : String)
  /-- Show a settings file, or write it to a path. -/
  | config (output : Option String)
deriving Repr, DecidableEq

/-- A command, the settings file that is named for it and whether its answer is JSON. -/
structure Request where
  command : Command
  settingsFile : Option String
  asJson : Bool
deriving Repr, DecidableEq

/-- What a run is asked for. -/
inductive Task
  | perform (request : Request)
  /-- Show a text and end. -/
  | tell (text : String)
  /-- The arguments are at fault. -/
  | refuse
deriving Repr, DecidableEq

/-! ## Options -/

/-- An option that takes a value. -/
structure OptionSpec where
  long : String
  short : Char
  /-- What stands for the value in help texts. -/
  placeholder : String
  help : String
  /-- The value may be empty. -/
  emptyAllowed : Bool
deriving Repr, DecidableEq

/-- The settings file. -/
def configOption : OptionSpec :=
  ⟨"config", 'c', "CONFIG", "Config file (default: search the standard locations)", false⟩

/-- The form of the answer. -/
def formatOption : OptionSpec :=
  ⟨"format", 'f', "FORMAT", "Output format (table, json) [default: table]", true⟩

/-- A file to store before a query. -/
def loadOption : OptionSpec :=
  ⟨"load", 'l', "LOAD", "Line protocol file to ingest before querying", false⟩

/-- A path to write a settings file to. -/
def outputOption : OptionSpec :=
  ⟨"output", 'o', "OUTPUT", "Output path (default: stdout)", false⟩

/-- The form of a command's arguments. -/
structure CommandSpec where
  name : String
  about : String
  /-- Its positional argument, if it takes one, as usage shows it, and its help. -/
  positional : Option (String × String)
  /-- Its options in the order of their help. -/
  options : List OptionSpec
deriving Repr, DecidableEq

/-- The forms of all commands. -/
def commandSpecs : List CommandSpec :=
  [⟨"write", "Write line protocol into the store",
      some ("[FILE]", "Input file, \x60-\x60 for stdin [default: -]"),
      [configOption, formatOption]⟩,
    ⟨"query", "Run a query",
      some ("<QUERY>",
        "Query text, e.g. \"SELECT mean(value) FROM cpu GROUP BY time(1m)\""),
      [loadOption, configOption, formatOption]⟩,
    ⟨"decode", "Decode one line and print the record",
      some ("<LINE>", "Line protocol text"), [configOption, formatOption]⟩,
    ⟨"config", "Generate default config file", none,
      [outputOption, configOption, formatOption]⟩]

end TimeSeries.CommandLine
