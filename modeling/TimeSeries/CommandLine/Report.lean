/-
# TimeSeries.CommandLine.Report — answers as a command shows them.

Every answer has two forms: lines of text for a reader, and JSON. In text, times are padded to 20
characters and labels to 16, and numbers never have an exponent.
-/
import TimeSeries.CommandLine.Arguments
import TimeSeries.CommandLine.Json
import TimeSeries.Ingest
import TimeSeries.Line.Encode
import TimeSeries.Query.Session

namespace TimeSeries.CommandLine

/-! ## Text -/

/-- Lines, each with its line break. -/
def textOfLines (lines : List String) : String := String.join (lines.map (· ++ "\n"))

/-- Numbers are written without an exponent, and whole ones without a point. -/
def numberStyle : Decimal.Style where
  positional := none
  wholeMark := ""
  exponentPlus := ""
  tie := .up
  nan := "NaN"
  infinity := "inf"
  negativeInfinity := "-inf"

/-- The columns of a row, or of the heading. -/
def rowText (time label value : String) : String := padTo 20 time ++ " " ++ padTo 16 label ++ " " ++ value

/-- A report of stored lines, in text. -/
def ingestText (r : Ingest.Report) : String :=
  textOfLines (("Wrote " ++ toString r.written ++ " points from " ++ toString r.lines ++ " lines")
    :: r.rejected.map fun x =>
      "  rejected line " ++ toString x.lineNumber ++ ": " ++ x.error.message)

/-- An answer to a query, in text. -/
def answerText : Query.Answer → String
  | .databases names => textOfLines ("name" :: "----" :: names)
  | .measurements names => textOfLines ("name" :: "----" :: names)
  | .acknowledged database => textOfLines ["OK (" ++ database ++ ")"]
  | .rows measurement _ rows =>
    textOfLines (("name: " ++ measurement) :: rowText "time" "label" "value"
      :: rows.map fun r => rowText r.timestamp.text r.label (numberStyle.write r.value))

/-- A record, in text. -/
def recordText (r : Record) : String :=
  textOfLines (
    ["measurement: " ++ r.measurement]
    ++ r.tags.map (fun (k, v) => "tag        " ++ k ++ "=" ++ v)
    ++ r.fields.entries.map (fun (k, v) =>
      "field      " ++ k ++ "=" ++ v.literal ++ " (" ++ v.type.name ++ ")")
    ++ ["timestamp: " ++ r.timestamp.text, "encoded:   " ++ Line.encode r])

/-! ## JSON -/

/-- Strings as an array. -/
def jsonStrings (xs : List String) : Json := .array (xs.map Json.string)

/-- A report of stored lines. -/
def ingestJson (r : Ingest.Report) : Json :=
  .object [("lines", .integer r.lines), ("points_written", .integer r.written),
    ("rejected", .array (r.rejected.map fun x =>
      .object [("line_number", .integer x.lineNumber), ("line", .string x.line),
        ("error", .string x.error.message)]))]

/-- A row of an answer. -/
def rowJson (r : Query.Row) : Json :=
  .object [("timestamp", .integer r.timestamp.toInt), ("label", .string r.label),
    ("value", .float r.value)]

/-- An answer to a query. -/
def answerJson : Query.Answer → Json
  | .databases names => .object [("kind", .string "databases"), ("names", jsonStrings names)]
  | .measurements names => .object [("kind", .string "measurements"), ("names", jsonStrings names)]
  | .acknowledged database =>
    .object [("kind", .string "acknowledged"), ("database", .string database)]
  | .rows measurement columns rows =>
    .object [("kind", .string "rows"), ("measurement", .string measurement),
      ("columns", jsonStrings columns), ("rows", .array (rows.map rowJson))]

/-- A record. -/
def recordJson (r : Record) : Json :=
  .object [("measurement", .string r.measurement),
    ("tags", .array (r.tags.map fun (k, v) => jsonStrings [k, v])),
    ("fields", .array (r.fields.entries.map fun (k, v) =>
      .array [.string k,
        .object [("type", .string v.type.name), ("literal", .string v.literal)]])),
    ("timestamp", .integer r.timestamp.toInt)]

/-- One of the two forms of an answer. -/
def shown (asJson : Bool) (text : String) (json : Json) : String :=
  if asJson then json.text ++ "\n" else text

end TimeSeries.CommandLine
