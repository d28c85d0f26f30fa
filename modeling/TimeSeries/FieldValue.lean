/-
# TimeSeries.FieldValue — the value of a field, with the literal that it was written as.

The type of a value is read off its literal, and the literal itself is kept, so that writing a
record never has to format a number. Stores hold numbers only: `toFloat?` gives the number that
stands for a value.
-/
import TimeSeries.Decimal.Basic
import TimeSeries.Line.Error
import TimeSeries.Nanos

namespace TimeSeries

/-- The four types of field values. -/
inductive FieldType
  | integer
  | float
  | boolean
  | string
deriving Repr, DecidableEq

/-- The name of a type, as it is reported. -/
def FieldType.name : FieldType → String
  | .integer => "integer"
  | .float => "float"
  | .boolean => "boolean"
  | .string => "string"

/-- A typed literal. An integer keeps its `i`, a string its quotes. -/
structure FieldValue where
  type : FieldType
  literal : String
deriving Repr, DecidableEq

namespace FieldValue

open Line (Error)

/-- The whole number of an integer literal: decimal digits before a final `i`. -/
def readInteger? (s : List Char) : Option Nanos :=
  if s.getLast? = some 'i' then Nanos.read? s.dropLast else none

/-- Classifies a literal by the first of four tests that applies: a quote at either end makes it a
string, a final `i` an integer, the word `true` or `false` a boolean; all else is a float. Only
booleans are changed, to lower case. -/
def classify (literal : String) : Except Error FieldValue :=
  let s := literal.toList
  let opens := s.head? = some '"'
  let closes := s.getLast? = some '"'
  if opens ∨ closes then
    if opens ∧ closes ∧ 2 ≤ s.length then .ok ⟨.string, literal⟩
    else .error ⟨.invalidStringField, literal⟩
  else if s.getLast? = some 'i' then
    if (readInteger? s).isSome then .ok ⟨.integer, literal⟩
    else .error ⟨.invalidIntegerField, literal⟩
  else
    let word := String.ofList (Text.lower s)
    if word = "true" ∨ word = "false" then .ok ⟨.boolean, word⟩
    else if (Decimal.readFloat? s).isSome then .ok ⟨.float, literal⟩
    else .error ⟨.invalidNumericField, literal⟩

/-- The number a store keeps for a value: 1 and 0 for the booleans, 1 for any string. A value that
was put together by hand has none when its literal is not of its type. -/
def toFloat? (v : FieldValue) : Option Float :=
  match v.type with
  | .integer => (readInteger? v.literal.toList).map fun n => Float.ofInt n.toInt
  | .float => Decimal.readFloat? v.literal.toList
  | .boolean =>
    if v.literal = "true" then some 1.0 else if v.literal = "false" then some 0.0 else none
  | .string => some 1.0

end FieldValue
end TimeSeries
