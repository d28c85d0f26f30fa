/-
# TimeSeries.Toml.Scalar — numbers and dates of TOML.

Each of them is one run of characters, tested here as a whole. Digits may be grouped by single
underscores; a whole number has 64 bits with a sign; months have their true lengths.
-/
import TimeSeries.Nanos
import TimeSeries.Decimal.Basic
import TimeSeries.Text.Digit
import TimeSeries.Toml.Value

namespace TimeSeries.Toml

open Text (isDigitBelow ofDigits)

/-! ## Digits -/

/-- The digits of a run with single underscores between digits. -/
def digitGroups? (isDigit : Char → Bool) : List Char → Option (List Char)
  | [] => none
  | [c] => if isDigit c then some [c] else none
  | c :: '_' :: s => if isDigit c then (digitGroups? isDigit s).map (c :: ·) else none
  | c :: s => if isDigit c then (digitGroups? isDigit s).map (c :: ·) else none

/-- The digits of a decimal number, which does not start with a zero unless it is one digit. -/
def plainDigits? (s : List Char) : Option (List Char) :=
  match digitGroups? Char.isDigit s with
  | some ['0'] => some ['0']
  | some ('0' :: _) => none
  | digits => digits

/-! ## Numbers -/

/-- A sign, if there is one, and what follows it. -/
def splitSign : List Char → Int × List Char
  | '-' :: s => (-1, s)
  | '+' :: s => (1, s)
  | s => (1, s)

/-- A whole number, decimal or in base 16, 8 or 2 behind `0x`, `0o` or `0b`. -/
def readInteger? (s : List Char) : Option Int :=
  let based (base : Nat) (digits : List Char) : Option Int :=
    (digitGroups? (isDigitBelow base) digits).map fun ds => (ofDigits base ds : Int)
  let n : Option Int :=
    match s with
    | '0' :: 'x' :: digits => based 16 digits
    | '0' :: 'o' :: digits => based 8 digits
    | '0' :: 'b' :: digits => based 2 digits
    | s =>
      let (sign, digits) := splitSign s
      (plainDigits? digits).map fun ds => sign * ofDigits 10 ds
  (n.bind Nanos.ofInt?).map Nanos.toInt

/-- The exponent of a floating-point number: nothing, or `e`, a sign if any, and digits. -/
def isExponent : List Char → Bool
  | [] => true
  | c :: s =>
    (c == 'e' || c == 'E') && (digitGroups? Char.isDigit (splitSign s).2).isSome

/-- A floating-point number: a decimal number with a fraction, an exponent or both, or one of the
words `inf` and `nan` behind a sign, if any. A number too great is refused. -/
def readFloat? (s : List Char) : Option Float :=
  let (sign, unsigned) := splitSign s
  if unsigned = "inf".toList then some (Float.ofInt sign * Decimal.infinity)
  else if unsigned = "nan".toList then some (0.0 / 0.0)
  else
    let isPart (c : Char) : Bool := c.isDigit || c == '_'
    let whole := unsigned.takeWhile isPart
    let rest := unsigned.dropWhile isPart
    let isTail : Bool :=
      match rest with
      | '.' :: r => (digitGroups? Char.isDigit (r.takeWhile isPart)).isSome
          && isExponent (r.dropWhile isPart)
      | [] => false
      | r => isExponent r
    if (plainDigits? whole).isSome && isTail then
      match Decimal.readFloat? (s.filter (· != '_')) with
      | some x => if x == Decimal.infinity then none else some x
      | none => none
    else none

/-! ## Dates and times -/

/-- A number of exactly `n` digits in a range, and what follows it. -/
def fixedDigits? (n least greatest : Nat) (s : List Char) : Option (Nat × List Char) :=
  match Decimal.readNat? (s.take n) with
  | some k =>
    if (s.take n).length = n && least ≤ k && k ≤ greatest then some (k, s.drop n) else none
  | none => none

/-- What follows a character. -/
def after? (c : Char) : List Char → Option (List Char)
  | [] => none
  | d :: s => if d = c then some s else none

/-- The number of days of a month. -/
def daysIn (year month : Nat) : Nat :=
  if month = 2 then
    if year % 4 = 0 ∧ (year % 100 ≠ 0 ∨ year % 400 = 0) then 29 else 28
  else if month ∈ [4, 6, 9, 11] then 30 else 31

/-- What follows a date `YYYY-MM-DD`. -/
def afterDate? (s : List Char) : Option (List Char) := do
  let (year, s) ← fixedDigits? 4 0 9999 s
  let (month, s) ← (after? '-' s).bind (fixedDigits? 2 1 12)
  let (_, s) ← (after? '-' s).bind (fixedDigits? 2 1 (daysIn year month))
  some s

/-- What follows a time `hh:mm:ss`, with its fraction of a second, if any. -/
def afterTime? (s : List Char) : Option (List Char) := do
  let (_, s) ← fixedDigits? 2 0 23 s
  let (_, s) ← (after? ':' s).bind (fixedDigits? 2 0 59)
  let (_, s) ← (after? ':' s).bind (fixedDigits? 2 0 60)
  match s with
  | '.' :: r => if (r.takeWhile Char.isDigit).isEmpty then none else some (r.dropWhile Char.isDigit)
  | s => some s

/-- An offset from universal time: `Z`, or a sign and `hh:mm`. -/
def isOffset : List Char → Bool
  | [c] => c == 'Z' || c == 'z'
  | c :: s =>
    let rest : Option (List Char) := do
      let (_, s) ← fixedDigits? 2 0 23 s
      let (_, s) ← (after? ':' s).bind (fixedDigits? 2 0 59)
      some s
    (c == '+' || c == '-') && rest = some []
  | [] => false

/-- A date alone. -/
def isDate (s : List Char) : Bool := afterDate? s = some []

/-- A date and a time with `T` or a space between them and an offset, if any; or only one of
both. -/
def isDateTime (s : List Char) : Bool :=
  match afterDate? s with
  | some [] => true
  | some (c :: rest) =>
    (c == 'T' || c == 't' || c == ' ') &&
      match afterTime? rest with
      | some [] => true
      | some offset => isOffset offset
      | none => false
  | none => afterTime? s = some []

/-! ## Any of them -/

/-- The value of a run of characters: a date or time, a floating-point number or a whole one. -/
def readScalar? (s : List Char) : Option Value :=
  if isDateTime s then some (.dateTime (String.ofList s))
  else ((readFloat? s).map Value.float).or ((readInteger? s).map Value.integer)

end TimeSeries.Toml
