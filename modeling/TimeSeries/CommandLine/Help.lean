/-
# TimeSeries.CommandLine.Help — the texts that explain the program.

A help text has what the program or a command does, how it is called, and its commands, arguments
and options in two columns.
-/
import TimeSeries.CommandLine.Request

namespace TimeSeries.CommandLine

/-- A text filled up with blanks to a width. -/
def padTo (width : Nat) (s : String) : String :=
  String.ofList (s.toList ++ List.replicate (width - s.length) ' ')

/-- Entries and what they mean, in two columns. -/
def twoColumns (entries : List (String × String)) : String :=
  let width := entries.foldl (fun n e => max n e.1.length) 0
  String.join (entries.map fun (left, right) => "  " ++ padTo (width + 2) left ++ right ++ "\n")

/-- The entry of an option in a help text. -/
def optionEntry (o : OptionSpec) : String × String :=
  ("-" ++ o.short.toString ++ ", --" ++ o.long ++ " <" ++ o.placeholder ++ ">", o.help)

/-- The entry of the option that asks for help. -/
def helpEntry : String × String := ("-h, --help", "Print help")

/-- The help that is always there. -/
def helpCommand : String × String :=
  ("help", "Print this message or the help of the given subcommand(s)")

/-- The name and version of the program. -/
def versionText : String := "refluxdb 0.1.0\n"

/-- The help of the program. -/
def helpText : String :=
  "Line protocol ingest and InfluxQL-style queries over a local point store\n\n"
    ++ "Usage: refluxdb [OPTIONS] <COMMAND>\n\nCommands:\n"
    ++ twoColumns (commandSpecs.map (fun c => (c.name, c.about)) ++ [helpCommand])
    ++ "\nOptions:\n"
    ++ twoColumns ([configOption, formatOption].map optionEntry
        ++ [helpEntry, ("-V, --version", "Print version")])

/-- The help of a command. -/
def CommandSpec.helpText (c : CommandSpec) : String :=
  c.about ++ "\n\nUsage: refluxdb " ++ c.name ++ " [OPTIONS]"
    ++ (match c.positional with
      | none => "\n"
      | some p => " " ++ p.1 ++ "\n\nArguments:\n" ++ twoColumns [p])
    ++ "\nOptions:\n" ++ twoColumns (c.options.map optionEntry ++ [helpEntry])

/-- The help of the command that shows help. -/
def helpCommandText : String :=
  helpCommand.2 ++ "\n\nUsage: refluxdb help [COMMAND]...\n\nArguments:\n"
    ++ twoColumns [("[COMMAND]...", "Print help for the subcommand(s)")]

/-- What the help command shows for the names behind it. -/
def helpFor : List String → Task
  | [] => .tell helpText
  | [name] =>
    match commandSpecs.find? (·.name == name) with
    | some c => .tell c.helpText
    | none => if name = helpCommand.1 then .tell helpCommandText else .refuse
  | _ => .refuse

end TimeSeries.CommandLine
