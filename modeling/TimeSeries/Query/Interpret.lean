/-
# TimeSeries.Query.Interpret — reading a query.

Keywords are read in any case and names keep theirs. Names lose the quotes and backslashes at
their two ends. A SELECT is cut into its clauses between keyword words, so a keyword inside quotes
cuts nothing; each clause is then read on its own. The clock matters in one place: it is the end of
a time range that has none.
-/
import TimeSeries.Query.Error
import TimeSeries.Query.Statement
import TimeSeries.Query.Word
import TimeSeries.Text.Blank
import TimeSeries.Text.Letter

namespace TimeSeries.Query

open Text (trim trimStart cut? dropWord? isNameChar)

/-! ## Keywords, gaps and names -/

/-- The characters of the gap between two keywords. -/
def isGap (c : Char) : Bool := c == ' ' || c == '\t' || c == '\r' || c == '\n'

/-- Drops a gap, which may be empty. -/
def dropGap (s : List Char) : List Char := s.dropWhile isGap

/-- Drops a gap that may not be empty. -/
def dropGap? : List Char → Option (List Char)
  | [] => none
  | c :: s => if isGap c then some (dropGap s) else none

/-- What follows a keyword, whatever the case of its letters; a name may not run on behind it. -/
def keyword? (word : String) (s : List Char) : Option (List Char) :=
  match dropWord? word.toList s with
  | none => none
  | some rest => if rest.head?.any isNameChar then none else some rest

/-- A name without the quotes and backslashes at its two ends. -/
def bareName (s : List Char) : List Char := Text.strip (fun c => c == '"' || c == '\\') (trim s)

/-- The name in the first word of a text. -/
def readName? (s : List Char) : Option String :=
  let name := bareName (Text.firstWord s)
  if name.isEmpty then none else some (String.ofList name)

/-! ## Statements on databases and measurements -/

/-- SHOW DATABASES or SHOW MEASUREMENTS, with nothing but a gap behind it. -/
def readShow? (query : List Char) : Option Statement := do
  let rest ← (keyword? "show" query).bind dropGap?
  let (statement, rest) ←
    ((keyword? "databases" rest).map fun r => (Statement.showDatabases, r)).or
      ((keyword? "measurements" rest).map fun r => (Statement.showMeasurements, r))
  if (dropGap rest).isEmpty then some statement else none

/-- The name that CREATE DATABASE gives, after CREATE; what follows the name is not read. -/
def readCreate? (rest : List Char) : Option String :=
  ((dropGap? rest).bind (keyword? "database")).bind readName?

/-! ## The clauses of a SELECT -/

/-- The clauses of a SELECT as they were written. -/
structure Clauses where
  selector : List Char
  source : List Char
  condition : Option (List Char)
  grouping : Option (List Char)
deriving Repr, DecidableEq

/-- The first word GROUP that the word BY follows, and that BY. -/
def findGroupBy? : List Word → Option (Word × Word)
  | a :: b :: ws => if a.is "group" && b.is "by" then some (a, b) else findGroupBy? (b :: ws)
  | _ => none

/-- Cuts the clauses out of what follows SELECT; there are none without a FROM. The source runs
from the first FROM to the first WHERE or GROUP BY after it. A condition ends at a GROUP BY that
follows it; a grouping runs to the end. -/
def clauses? (body : List Char) : Option Clauses :=
  let ws := words body
  match ws.dropWhile (!·.is "from") with
  | [] => none
  | fromWord :: later =>
    let whereWord := later.find? (·.is "where")
    let groupBy := findGroupBy? later
    let whereStart := (whereWord.map Word.start).getD body.length
    let groupStart := (groupBy.map (·.1.start)).getD body.length
    some {
      selector := slice body 0 fromWord.start
      source := slice body fromWord.stop (min whereStart groupStart)
      condition := whereWord.map fun w =>
        slice body w.stop (if w.start < groupStart then groupStart else body.length)
      grouping := groupBy.map fun g => body.drop g.2.stop }

/-! ## Selector -/

/-- A reduction and its opening parenthesis, and what follows them. -/
def readAggregation? (s : List Char) : Option (Aggregation × List Char) :=
  Aggregation.all.findSome? fun f =>
    match (keyword? f.name s).map dropGap with
    | some ('(' :: rest) => some (f, rest)
    | _ => none

/-- Reads `*`, a field, or a reduction of either. The parentheses that close a reduction are taken
off its end; none may be left. -/
def readSelector? (clause : List Char) : Option (Selector × Option Aggregation) :=
  let text := trim clause
  let (inner, f) :=
    match readAggregation? text with
    | some (f, rest) => (Text.stripEnd (· == ')') (trim rest), some f)
    | none => (text, none)
  let field := bareName inner
  if field.isEmpty || field.any (fun c => c == '(' || c == ')') then none
  else if field = ['*'] then some (.all, f)
  else some (.field (String.ofList field), f)

/-! ## Time range -/

/-- The literal of a time bound: the first word after a comparison, up to the letters `and`. -/
def timeLiteral (s : List Char) : List Char :=
  let word := Text.firstWord s
  match cut? "and".toList word with
  | some (before, _) => before
  | none => word

/-- The time that a literal denotes: digits after an optional minus sign, in nanoseconds, or in
milliseconds with `ms` behind them. -/
def readTime? (literal : List Char) : Option Nanos := do
  let (sign, unsigned) : Int × List Char :=
    match literal with
    | '-' :: s => (-1, s)
    | s => (1, s)
  let n ← Decimal.readNat? (unsigned.takeWhile Char.isDigit)
  let count ← Nanos.ofInt? (sign * n)
  let unit := Text.lower (unsigned.dropWhile Char.isDigit)
  if unit.isEmpty then some count
  else if unit = ['m', 's'] then count.mul? .milli
  else none

/-- Reads the bound after a comparison. -/
def readTime (s : List Char) : Except Error Nanos :=
  let literal := timeLiteral s
  match readTime? literal with
  | some n => .ok n
  | none => .error (.invalidTimeFormat (String.ofList literal))

/-- The bound after the first occurrence of a comparison; the default if there is none. -/
def readBound (comparison : String) (default : Nanos) (s : List Char) : Except Error Nanos :=
  match cut? comparison.toList s with
  | some (_, after) => readTime after
  | none => .ok default

/-- The time range of a condition. Comparisons count only after the letters `time`; a range without
a lower bound starts at zero, one without an upper bound ends now. -/
def readRange (condition : List Char) (now : Nanos) : Except Error (Nanos × Nanos) :=
  match cut? "time".toList condition with
  | none => .ok (.zero, now)
  | some (_, after) => do
    let start ← readBound ">=" .zero after
    let stop ← readBound "<=" now after
    .ok (start, stop)

/-! ## Grouping -/

/-- The width that a grouping gives: `time(Nm)`, for a positive number of minutes that fits. What
follows the closing parenthesis is not read; any other grouping gives no width. -/
def readWidth? (grouping : List Char) : Option Nanos := do
  let rest ← keyword? "time" (trimStart grouping)
  match dropGap rest with
  | '(' :: rest =>
    let rest := dropGap rest
    let minutes ← Nanos.read? (rest.takeWhile Char.isDigit)
    match dropGap (rest.dropWhile Char.isDigit) with
    | c :: rest =>
      match dropGap rest with
      | ')' :: _ =>
        if (c = 'm' ∨ c = 'M') ∧ 0 < minutes.toInt then minutes.mul? .minute else none
      | _ => none
    | [] => none
  | _ => none

/-! ## Queries -/

/-- Reads what follows SELECT in a query. A reduction that no width is given for gets the default
one. -/
def readSelect (body query : List Char) (now : Nanos) : Except Error Select := do
  let whole := String.ofList query
  let some clauses := clauses? body | .error (.invalidQuery whole)
  let some (selector, f) := readSelector? clauses.selector | .error (.invalidSyntax whole)
  let measurement := bareName clauses.source
  if measurement.isEmpty then .error (.missingMeasurement whole)
  let (start, stop) ←
    match clauses.condition with
    | none => .ok (.zero, now)
    | some condition => readRange condition now
  let width := (clauses.grouping.bind readWidth?).or (f.map fun _ => defaultWidth)
  .ok ⟨String.ofList measurement, selector, f, start, stop, width⟩

/-- Reads a trimmed query. -/
def interpretTrimmed (query : List Char) (now : Nanos) : Except Error Statement :=
  let whole := String.ofList query
  if query.isEmpty then .error (.invalidQuery "empty query")
  else if let some statement := readShow? query then .ok statement
  else if let some rest := keyword? "create" query then
    match readCreate? rest with
    | some name => .ok (.createDatabase name)
    | none => .error (.invalidSyntax whole)
  else if let some rest := keyword? "use" query then
    match readName? rest with
    | some name => .ok (.use name)
    | none => .error (.invalidSyntax whole)
  else if let some rest := keyword? "select" query then
    match readSelect rest query now with
    | .ok s => .ok (.select s)
    | .error e => .error e
  else .error (.invalidQuery whole)

/-- Reads a query at a time: the end of a time range that gives none. -/
def interpret (query : String) (now : Nanos) : Except Error Statement :=
  interpretTrimmed (trim query.toList) now

end TimeSeries.Query
