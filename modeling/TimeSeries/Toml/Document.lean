/-
# TimeSeries.Toml.Document — reading a TOML document.

A document is a sequence of lines: blank ones, headers that say which table the following keys
belong to, and keys with values. Arrays may go over several lines, tables in braces may not.
Arrays and tables in braces may stand in each other less than 80 deep.
-/
import TimeSeries.Toml.Quoted

namespace TimeSeries.Toml

open Text (Reader)

/-! ## Blanks, comments and keys -/

/-- Blanks within a line. -/
def inlineBlanks : Reader Unit := do let _ ← Reader.run isInlineBlank

/-- A comment, up to the end of its line. -/
def comment : Reader Unit := do
  Reader.skip '#'
  let _ ← Reader.run isPlain

/-- Blanks, line breaks and comments. -/
def looseBlanks : Reader Unit := do
  let _ ← Reader.many <|
    (do let _ ← Reader.oneOf isInlineBlank).or ((do let _ ← newline).or comment)

/-- The end of a line, with a comment before it, if any; the end of the document also ends one. -/
def endOfLine : Reader Unit := do
  inlineBlanks
  let _ ← Reader.optional comment
  (do let _ ← newline).or fun s =>
    match s with
    | [] => some ((), ⟨[], by simp⟩)
    | _ :: _ => none

/-- A character of a key without quotes. -/
def isKeyChar (c : Char) : Bool := c.isAlphanum || c == '_' || c == '-'

/-- One key, with or without quotes. -/
def simpleKey : Reader String := do
  let chars ← basicString.or (literalString.or (Reader.many1 (Reader.oneOf isKeyChar)))
  pure (String.ofList chars)

/-- Keys with dots between them: those before the last dot, and the last. At most 79 of them. -/
def dottedKey : Reader (List String × String) := do
  let keys ← Reader.separated simpleKey (do inlineBlanks; Reader.skip '.'; inlineBlanks)
  match keys.getLast? with
  | some last => if keys.length < 80 then pure (keys.dropLast, last) else Reader.refuse
  | none => Reader.refuse

/-! ## Values -/

/-- A character of a number, a date or a time. -/
def isScalarChar (c : Char) : Bool :=
  c.isAlphanum || c == '_' || c == '+' || c == '-' || c == '.' || c == ':'

/-- A number, a date or a time. A single space may stand between a date and a time. -/
def scalar : Reader Value := do
  let word ← Reader.many1 (Reader.oneOf isScalarChar)
  if isDate word then
    let time ← Reader.optional do
      Reader.skip ' '
      let time ← Reader.many1 (Reader.oneOf isScalarChar)
      if isDateTime (word ++ ' ' :: time) then pure time else Reader.refuse
    match time with
    | some time => pure (.dateTime (String.ofList (word ++ ' ' :: time)))
    | none => pure (.dateTime (String.ofList word))
  else Reader.ofOption (readScalar? word)

/-- One of the two truth values. -/
def boolean : Reader Value :=
  (do Reader.skipAll "true".toList; pure (Value.boolean true)).or
    (do Reader.skipAll "false".toList; pure (Value.boolean false))

/-- A key, an equals sign and a value. -/
def keyValue (value : Reader Value) : Reader ((List String × String) × Value) := do
  let key ← dottedKey
  inlineBlanks
  Reader.skip '='
  inlineBlanks
  let v ← value
  pure (key, v)

/-- Elements between brackets; a comma may follow the last. -/
def array (value : Reader Value) : Reader Value := do
  Reader.skip '['
  looseBlanks
  let element : Reader Value := do
    let v ← value
    looseBlanks
    pure v
  let elements ← Reader.optional (Reader.separated element (do Reader.skip ','; looseBlanks))
  if elements.isSome then
    let _ ← Reader.optional (do Reader.skip ','; looseBlanks)
  Reader.skip ']'
  pure (.array (elements.getD []))

/-- Keys and values between braces, in one line; no comma follows the last. -/
def bracedTable (value : Reader Value) : Reader Value := do
  Reader.skip '\x7b'
  inlineBlanks
  let entry : Reader ((List String × String) × Value) := do
    let kv ← keyValue value
    inlineBlanks
    pure kv
  let pairs ← Reader.optional (Reader.separated entry (do Reader.skip ','; inlineBlanks))
  Reader.skip '\x7d'
  let entries := (pairs.getD []).foldlM (fun es (key, v) => Entries.assign key.1 key.2 v es) []
  Reader.ofOption (entries.map (Value.table .braces))

/-- A value with at most `depth` arrays and tables in braces around any part of it. -/
def value (depth : Nat) : Reader Value :=
  let string : Reader Value := do
    let chars ← anyString
    pure (.string (String.ofList chars))
  let flat := string.or (boolean.or scalar)
  match depth with
  | 0 => flat
  | depth + 1 => fun s =>
    let inner := value depth
    (flat.or ((array inner).or (bracedTable inner))) s

/-! ## Lines -/

/-- What a line says. -/
inductive Line
  | header (path : List String) (key : String)
  | nextHeader (path : List String) (key : String)
  | assignment (path : List String) (key : String) (value : Value)

/-- A line that is neither blank nor a comment. -/
def line : Reader Line := do
  let nextHeader : Reader Line := do
    Reader.skipAll ['[', '[']
    inlineBlanks
    let key ← dottedKey
    inlineBlanks
    Reader.skipAll [']', ']']
    pure (.nextHeader key.1 key.2)
  let header : Reader Line := do
    Reader.skip '['
    inlineBlanks
    let key ← dottedKey
    inlineBlanks
    Reader.skip ']'
    pure (.header key.1 key.2)
  let assignment : Reader Line := do
    let (key, v) ← keyValue (value 79)
    pure (.assignment key.1 key.2 v)
  let result ← nextHeader.or (header.or assignment)
  endOfLine
  pure result

/-- The lines of a document. A byte order mark may stand before them. -/
def documentLines : Reader (List Line) := do
  let _ ← Reader.optional (Reader.skip '\ufeff')
  looseBlanks
  Reader.many do
    let l ← line
    looseBlanks
    pure l

/-- Adds what a line says to a document; the path is that of the table which the last header has
opened. -/
def addLine : List String × Entries → Line → Option (List String × Entries)
  | (_, es), .header path key => (es.openTable path key).map fun es => (path ++ [key], es)
  | (_, es), .nextHeader path key => (es.openNextTable path key).map fun es => (path ++ [key], es)
  | (current, es), .assignment path key v =>
    (es.below current (Entries.assign path key v)).map fun es => (current, es)

/-- The table that a document describes. -/
def readDocument? (text : String) : Option Entries := do
  let lines ← documentLines.read? text.toList
  let (_, es) ← lines.foldlM addLine ([], [])
  some es

end TimeSeries.Toml
