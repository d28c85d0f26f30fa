/-
# TimeSeries.CommandLine.Json — answers as JSON text.

Arrays and objects are spread over lines, each level indented by two blanks; empty ones stay on
their line. Strings escape quotes, backslashes and control characters only. A floating-point number
has the fewest digits that read back; NaN and the infinities are written as null.
-/
import TimeSeries.Decimal.Style

namespace TimeSeries.CommandLine

/-- A JSON value. The members of an object keep their order. -/
inductive Json
  | integer (n : Int)
  | float (x : Float)
  | string (s : String)
  | array (elements : List Json)
  | object (members : List (String × Json))

namespace Json

/-- Numbers from 0.00001 up to, but without, 10 ^ 16 are written without an exponent and with at
least one place; a positive exponent has its sign. -/
def numberStyle : Decimal.Style where
  positional := some (-4, 16)
  wholeMark := ".0"
  exponentPlus := "+"
  tie := .toEven
  nan := "null"
  infinity := "null"
  negativeInfinity := "null"

/-- A character inside a string. -/
def stringChar (c : Char) : List Char :=
  match c with
  | '"' => ['\\', '"']
  | '\\' => ['\\', '\\']
  | '\x08' => ['\\', 'b']
  | '\x0c' => ['\\', 'f']
  | '\n' => ['\\', 'n']
  | '\r' => ['\\', 'r']
  | '\t' => ['\\', 't']
  | c =>
    if c < ' ' then
      let digits := Nat.toDigits 16 c.toNat
      ['\\', 'u'] ++ List.replicate (4 - digits.length) '0' ++ digits
    else [c]

/-- A string between quotes. -/
def quoted (s : String) : String :=
  String.ofList ('"' :: s.toList.flatMap stringChar ++ ['"'])

/-- A line break and the indentation of a level. -/
def newLine (depth : Nat) : String :=
  String.ofList ('\n' :: List.replicate (2 * depth) ' ')

/-- Parts between brackets, one on a line; a level inside the brackets is one deeper. -/
def enclosed (depth : Nat) (opening closing : String) (parts : List String) : String :=
  if parts.isEmpty then opening ++ closing
  else
    opening ++ newLine (depth + 1) ++ ("," ++ newLine (depth + 1)).intercalate parts
      ++ newLine depth ++ closing

mutual

/-- A value at a level. -/
def render (depth : Nat) : Json → String
  | .integer n => toString n
  | .float x => numberStyle.write x
  | .string s => quoted s
  | .array elements => enclosed depth "[" "]" (renderElements (depth + 1) elements)
  | .object members => enclosed depth "\x7b" "\x7d" (renderMembers (depth + 1) members)

/-- The elements of an array at a level. -/
def renderElements (depth : Nat) : List Json → List String
  | [] => []
  | v :: vs => render depth v :: renderElements depth vs

/-- The members of an object at a level. -/
def renderMembers (depth : Nat) : List (String × Json) → List String
  | [] => []
  | (key, v) :: rest => (quoted key ++ ": " ++ render depth v) :: renderMembers depth rest

end

/-- A value as text. -/
def text (v : Json) : String := render 0 v

end Json
end TimeSeries.CommandLine
