/-
# TimeSeries.Line.Error — why a line of line protocol is refused.

A refusal names its cause and shows the piece of the line that is at fault, as it was written.
-/

namespace TimeSeries.Line

/-- The causes for which a line, or one literal in it, is refused. -/
inductive Fault
  /-- The measurement has no characters. -/
  | emptyMeasurement
  /-- A quoted measurement or value never closes. -/
  | unterminatedQuote
  /-- A tag has no `=`, or text follows the closing quote of a measurement. -/
  | invalidTagFormat
  | emptyTagKey
  | emptyTagValue
  /-- A field has no `=`. -/
  | invalidFieldFormat
  | emptyFieldKey
  | invalidStringField
  | invalidIntegerField
  | invalidNumericField
  /-- Nothing follows the space after the measurement and its tags. -/
  | missingFields
  | invalidTimestamp
  /-- No space ends the measurement and its tags. -/
  | invalidFormat
deriving Repr, DecidableEq

/-- The words for a cause. -/
def Fault.description : Fault → String
  | .emptyMeasurement => "Empty measurement"
  | .unterminatedQuote => "Unterminated quote"
  | .invalidTagFormat => "Invalid tag format"
  | .emptyTagKey => "Empty tag key"
  | .emptyTagValue => "Empty tag value"
  | .invalidFieldFormat => "Invalid field format"
  | .emptyFieldKey => "Empty field key"
  | .invalidStringField => "Invalid string field value"
  | .invalidIntegerField => "Invalid integer field value"
  | .invalidNumericField => "Invalid numeric field value"
  | .missingFields => "Missing fields"
  | .invalidTimestamp => "Invalid timestamp"
  | .invalidFormat => "Invalid line protocol format"

/-- A refusal: its cause and the text at fault. -/
structure Error where
  fault : Fault
  text : String
deriving Repr, DecidableEq

namespace Error

/-- The refusal of a piece of a line. -/
def about (fault : Fault) (piece : List Char) : Error := ⟨fault, String.ofList piece⟩

/-- The refusal as it is reported. -/
def message (e : Error) : String := e.fault.description ++ ": " ++ e.text

end Error
end TimeSeries.Line
