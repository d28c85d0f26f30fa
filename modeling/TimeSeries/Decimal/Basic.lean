/-
# TimeSeries.Decimal.Basic — unsigned decimals, and the texts read as floating-point numbers.

A decimal is `coefficient · 10 ^ exponent`. A numeral is an optional sign before digits with at
most one point and at least one digit, and an optional exponent; the words `inf`, `infinity` and
`nan` stand in for the digits in any case. The floating-point number read is the nearest one.
-/
import TimeSeries.Decimal.Integer
import TimeSeries.Text.Case

namespace TimeSeries

/-- The number `coefficient · 10 ^ exponent`. -/
structure Decimal where
  coefficient : Nat
  exponent : Int
deriving Repr, DecidableEq

namespace Decimal

/-! ## Reading -/

/-- The exponent part of a numeral: nothing, or `e` and a whole number. -/
def readExponent? : List Char → Option Int
  | [] => some 0
  | c :: s => if c = 'e' ∨ c = 'E' then readInt? s else none

/-- Digits with at most one point among or beside them, then an exponent. -/
def read? (s : List Char) : Option Decimal :=
  let whole := s.takeWhile Char.isDigit
  let (fraction, rest) :=
    match s.dropWhile Char.isDigit with
    | '.' :: r => (r.takeWhile Char.isDigit, r.dropWhile Char.isDigit)
    | r => ([], r)
  if whole.isEmpty && fraction.isEmpty then none
  else (readExponent? rest).map fun e =>
    ⟨Nat.ofDigitChars 10 (whole ++ fraction) 0, e - fraction.length⟩

/-! ## The nearest floating-point number -/

/-- How many digits stand before the point when the decimal is written without an exponent; not
positive when zeros follow the point. -/
def pointPlace (d : Decimal) : Int := (Nat.toDigits 10 d.coefficient).length + d.exponent

/-- Positive infinity. -/
def infinity : Float := 1.0 / 0.0

/-- The floating-point number nearest to a decimal, ties to even. Outside the range of finite
positive numbers the answer does not wait for the exact power of ten. -/
def toFloat (d : Decimal) : Float :=
  if d.coefficient = 0 then 0.0
  else if d.pointPlace > 310 then infinity
  else if d.pointPlace < -330 then 0.0
  else Float.ofScientific d.coefficient (d.exponent < 0) d.exponent.natAbs

/-- A floating-point number without its sign: one of three words in any case, or a numeral. -/
def readMagnitude? (s : List Char) : Option Float :=
  let word := String.ofList (Text.lower s)
  if word = "inf" ∨ word = "infinity" then some infinity
  else if word = "nan" then some (0.0 / 0.0)
  else (read? s).map toFloat

/-- A floating-point number with at most one sign before it. -/
def readFloat? : List Char → Option Float
  | '-' :: s => (readMagnitude? s).map fun x => -x
  | '+' :: s => readMagnitude? s
  | s => readMagnitude? s

end Decimal
end TimeSeries
