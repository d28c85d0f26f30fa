/-
# TimeSeries.CommandLine.Arguments — what the arguments of a run ask for.

Options may stand before and after the name of the command, each at most once on either side; the
one after the name counts. An option's value is joined to it or is the next argument, which then
may not look like an option itself. After two dashes everything is positional. Arguments are read
from left to right, and the first one that asks for help or is at fault decides; a fault in the
last value before the name of a command shows only after the command's own arguments.
-/
import TimeSeries.CommandLine.Help

namespace TimeSeries.CommandLine

/-! ## Single arguments -/

/-- What one argument is. -/
inductive Argument
  /-- An option with its value joined to it. -/
  | option (spec : OptionSpec) (value : String)
  /-- An option whose value is the next argument. -/
  | awaiting (spec : OptionSpec)
  | help
  | version
  /-- Two dashes. -/
  | dashes
  | positional (text : String)
  | unknown

/-- An argument that looks like an option: it starts with a dash and is more than that. -/
def looksLikeOption (argument : String) : Bool :=
  match argument.toList with
  | '-' :: _ :: _ => true
  | _ => false

/-- What an argument is, among the options that are known. -/
def Argument.ofString (options : List OptionSpec) (argument : String) : Argument :=
  match argument.toList with
  | ['-', '-'] => .dashes
  | '-' :: '-' :: long =>
    let name := String.ofList (long.takeWhile (· != '='))
    match options.find? (·.long == name), long.dropWhile (· != '=') with
    | some spec, [] => .awaiting spec
    | some spec, _ :: value => .option spec (String.ofList value)
    | none, [] => if name = "help" then .help else if name = "version" then .version else .unknown
    | none, _ :: _ => .unknown
  | '-' :: short :: rest =>
    match options.find? (·.short == short), rest with
    | some spec, [] => .awaiting spec
    | some spec, '=' :: value => .option spec (String.ofList value)
    | some spec, value => .option spec (String.ofList value)
    | none, _ => if short = 'h' then .help else if short = 'V' then .version else .unknown
  | _ => .positional argument

/-- Options that have been read, with their values. -/
abbrev Values := List (OptionSpec × String)

/-- The value of an option. -/
def Values.get? (vs : Values) (o : OptionSpec) : Option String :=
  (vs.find? (·.1 == o)).map Prod.snd

/-- The values with one more; none if the option has one already, or may not have this. -/
def Values.add? (vs : Values) (o : OptionSpec) (value : String) : Option Values :=
  if (vs.get? o).isSome || (value.isEmpty && !o.emptyAllowed) then none else some (vs ++ [(o, value)])

/-! ## The arguments of a command -/

/-- The request of a command with its positional argument, the options before its name and those
after it. -/
def requestOf (name : String) (positional : Option String) (before after : Values) : Task :=
  let value? (o : OptionSpec) : Option String := (after.get? o).or (before.get? o)
  let command : Option Command :=
    if name = "write" then some (.write (positional.getD "-"))
    else if name = "query" then positional.map fun text => .query text (value? loadOption)
    else if name = "decode" then positional.map Command.decode
    else some (.config (value? outputOption))
  match command with
  | some command =>
    .perform ⟨command, value? configOption, value? formatOption = some "json"⟩
  | none => .refuse

/-- Reads the arguments of a command. The option that waits for its value, if any, comes first;
`literal` is set after two dashes. -/
def readCommand (c : CommandSpec) (before : Values) :
    Option OptionSpec → Bool → Values → Option String → List String → Task
  | some _, _, _, _, [] => .refuse
  | none, _, values, positional, [] => requestOf c.name positional before values
  | some spec, literal, values, positional, argument :: rest =>
    if looksLikeOption argument then .refuse
    else
      match values.add? spec argument with
      | some values => readCommand c before none literal values positional rest
      | none => .refuse
  | none, literal, values, positional, argument :: rest =>
    let place (text : String) : Task :=
      if c.positional.isSome && positional.isNone then
        readCommand c before none literal values (some text) rest
      else .refuse
    if literal then place argument
    else
      match Argument.ofString c.options argument with
      | .option spec value =>
        match values.add? spec value with
        | some values => readCommand c before none literal values positional rest
        | none => .refuse
      | .awaiting spec => readCommand c before (some spec) literal values positional rest
      | .help => .tell c.helpText
      | .dashes => readCommand c before none true values positional rest
      | .positional text => place text
      | .version => .refuse
      | .unknown => .refuse

/-! ## All arguments -/

/-- The options that may stand before the name of a command. -/
def sharedOptions : List OptionSpec := [configOption, formatOption]

/-- What a command is asked for where the options before its name may be at fault: only help can
still be had. -/
def Task.unlessFaulty (faulty : Bool) : Task → Task
  | .perform request => if faulty then .refuse else .perform request
  | task => task

/-- Reads arguments up to the name of a command. The option that waits for its value, if any, comes
first, then the last option whose value was an argument of its own: such a value is looked at when
the next option is read, or when the command has been read. -/
def readShared :
    Option OptionSpec → Option (OptionSpec × String) → Values → List String → Task
  | _, _, _, [] => .refuse
  | some spec, _, values, argument :: rest =>
    if looksLikeOption argument then .refuse
    else readShared none (some (spec, argument)) values rest
  | none, last, values, argument :: rest =>
    let settled : Option Values :=
      match last with
      | none => some values
      | some (spec, value) => values.add? spec value
    match Argument.ofString sharedOptions argument, settled with
    | .positional name, _ =>
      match commandSpecs.find? (·.name == name) with
      | some c =>
        (readCommand c (settled.getD values) none false [] none rest).unlessFaulty settled.isNone
      | none => if name = helpCommand.1 then helpFor rest else .refuse
    | _, none => .refuse
    | .option spec value, some values =>
      match values.add? spec value with
      | some values => readShared none none values rest
      | none => .refuse
    | .awaiting spec, some values => readShared (some spec) none values rest
    | .help, some _ => .tell helpText
    | .version, some _ => .tell versionText
    | .dashes, some _ => .refuse
    | .unknown, some _ => .refuse

/-- What the arguments of a run ask for. -/
def Task.ofArguments (arguments : List String) : Task := readShared none none [] arguments

end TimeSeries.CommandLine
