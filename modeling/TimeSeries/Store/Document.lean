/-
# TimeSeries.Store.Document — the contents of a database file.

A table is kept in a file as a TOML document: what the document holds, whether changes go through a
log beside the file, whether the table has been made, then one table per row in the order of the
row numbers. A value is kept as the hexadecimal digits of its bits, so nothing is lost; an empty
cell is left out. A byte that no text has stands before the document, so no text is ever taken for
a database.
-/
import TimeSeries.Store.Table
import TimeSeries.Toml.Document

namespace TimeSeries.Database

open Toml (Value Entries)

/-- What the file of a database keeps. -/
structure Contents where
  /-- The table, once it has been made. -/
  table : Option TableStore
  /-- Changes go through a log beside the file. -/
  logged : Bool

namespace Contents

/-! ## Writing -/

/-- A character as it stands inside a quoted text of the document. -/
def quotedChar (c : Char) : List Char :=
  if c = '"' ∨ c = '\\' then ['\\', c]
  else if c < ' ' ∨ c = '\x7f' then
    let digits := Nat.toDigits 16 c.toNat
    ['\\', 'u'] ++ List.replicate (4 - digits.length) '0' ++ digits
  else [c]

/-- A text between quotes. -/
def quoted (s : String) : String := String.ofList ('"' :: s.toList.flatMap quotedChar ++ ['"'])

/-- The key and the value that say what a document holds. -/
def mark : String × String := ("contents", "points")

/-- A row as a table of the document. -/
def rowText (r : TableRow) : String :=
  let tags := r.tags.map fun (k, v) => "[" ++ quoted k ++ ", " ++ quoted v ++ "]"
  String.join ([
    "\n[[row]]",
    "\nmeasurement = " ++ quoted r.measurement,
    "\ntimestamp = " ++ r.timestamp.text,
    "\ntags = [" ++ ", ".intercalate tags ++ "]",
    "\nfield = " ++ quoted r.field]
    ++ (match r.cell with
      | none => []
      | some x => ["\nbits = " ++ quoted (String.ofList (Nat.toDigits 16 x.toBits.toNat))])
    ++ ["\n"])

/-- The document of some contents. -/
def text (c : Contents) : String :=
  mark.1 ++ " = " ++ quoted mark.2 ++ "\nlogged = " ++ toString c.logged
    ++ "\nmade = " ++ toString c.table.isSome ++ "\n"
    ++ String.join ((c.table.toList.flatMap fun t => t.rows.toList).map rowText)

/-- The byte before a document. -/
def leadByte : UInt8 := 0xff

/-- The bytes of a database file. -/
def bytes (c : Contents) : ByteArray := [leadByte].toByteArray ++ c.text.toUTF8

/-! ## Reading -/

/-- A text under a key. -/
def stringAt? (es : Entries) (key : String) : Option String :=
  match es.get? key with
  | some (.string s) => some s
  | _ => none

/-- A truth value under a key. -/
def boolAt? (es : Entries) (key : String) : Option Bool :=
  match es.get? key with
  | some (.boolean b) => some b
  | _ => none

/-- A tag: an array of its key and its value. -/
def tagOf? : Value → Option (String × String)
  | .array [.string k, .string v] => some (k, v)
  | _ => none

/-- The value of a cell. -/
def cellOf? : Option Value → Option (Option Float)
  | none => some none
  | some (.string digits) =>
    (Toml.digitGroups? (Text.isDigitBelow 16) digits.toList).map fun ds =>
      some (Float.ofBits (Text.ofDigits 16 ds).toUInt64)
  | some _ => none

/-- The sample of a row. -/
def sampleOf? (es : Entries) : Option Sample := do
  let timestamp ←
    match es.get? "timestamp" with
    | some (.integer n) => Nanos.ofInt? n
    | _ => none
  let tags ←
    match es.get? "tags" with
    | some (.array vs) => vs.mapM tagOf?
    | _ => none
  let cell ← cellOf? (es.get? "bits")
  some ⟨← stringAt? es "measurement", ← stringAt? es "field", floatOfCell cell, tags, timestamp⟩

/-- The contents that a document tells. -/
def ofText? (s : String) : Option Contents := do
  let es ← Toml.readDocument? s
  if stringAt? es mark.1 ≠ some mark.2 then none
  let logged ← boolAt? es "logged"
  let made ← boolAt? es "made"
  let samples ←
    match es.get? "row" with
    | none => some []
    | some (.tables newestFirst) => newestFirst.reverse.mapM sampleOf?
    | some _ => none
  some ⟨if made then some (samples.foldl TableStore.save .empty) else none, logged⟩

/-- The contents of a file, if it is that of a database. -/
def ofBytes? (content : ByteArray) : Option Contents :=
  if content[0]? = some leadByte then
    (String.fromUTF8? (content.extract 1 content.size)).bind ofText?
  else none

end Contents
end TimeSeries.Database
