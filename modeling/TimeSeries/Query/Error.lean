/-
# TimeSeries.Query.Error — why a query has no answer.

A malformed statement shows the whole query; a bad time bound shows the literal that was read.
-/
import TimeSeries.Nanos

namespace TimeSeries.Query

/-- The causes for which a query is refused. -/
inductive Error
  /-- A statement of a known kind is malformed. -/
  | invalidSyntax (query : String)
  /-- A time bound is not a whole number with an optional `ms`. -/
  | invalidTimeFormat (literal : String)
  /-- The query is of no known kind, or gives no rows. -/
  | invalidQuery (reason : String)
  /-- No measurement is named. -/
  | missingMeasurement (query : String)
  /-- The width of the buckets is not positive. -/
  | invalidBucketWidth (width : Nanos)
deriving DecidableEq

/-- The refusal as it is reported. -/
def Error.message : Error → String
  | .invalidSyntax query => "Invalid syntax: " ++ query
  | .invalidTimeFormat literal => "Invalid time format: " ++ literal
  | .invalidQuery reason => "Invalid query: " ++ reason
  | .missingMeasurement query => "Missing measurement: " ++ query
  | .invalidBucketWidth width => "Invalid bucket width: " ++ width.text

end TimeSeries.Query
