/-
# TimeSeries.Line.Encode — writing a record as one line of line protocol.

A measurement or tag value is put in quotes when it holds a space or a comma, with a backslash
before each quote inside; keys and literals are written as they are. The timestamp is written when
it is positive. A tag value that holds quotes comes back changed when the line is read: the reader
drops the outer pair and keeps the backslashes.
-/
import TimeSeries.Line.Token
import TimeSeries.Record

namespace TimeSeries.Line

/-- A measurement or tag value as it is written. -/
def encodeText (s : List Char) : List Char :=
  if s.any endsValue then '"' :: escape s ++ ['"'] else s

/-- A tag as it is written, after its comma. -/
def encodeTag (tag : String × String) : List Char :=
  ',' :: tag.1.toList ++ '=' :: encodeText tag.2.toList

/-- A field as it is written. -/
def encodeField (field : String × FieldValue) : List Char :=
  field.1.toList ++ '=' :: field.2.literal.toList

/-- Fields as they are written: a space before the first, commas between them. -/
def encodeFields : List (String × FieldValue) → List Char
  | [] => []
  | field :: fields =>
    ' ' :: encodeField field ++ fields.flatMap fun f => ',' :: encodeField f

/-- A timestamp as it is written, after its space; nothing unless it is positive. -/
def encodeTimestamp (n : Nanos) : List Char :=
  if 0 < n.toInt then ' ' :: n.text.toList else []

/-- A record as one line. -/
def encode (r : Record) : String :=
  String.ofList (encodeText r.measurement.toList ++ r.tags.flatMap encodeTag
    ++ encodeFields r.fields.entries ++ encodeTimestamp r.timestamp)

end TimeSeries.Line
