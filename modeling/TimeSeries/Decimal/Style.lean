/-
# TimeSeries.Decimal.Style — how a floating-point number is written.

A style is one record: where positional writing ends, what marks a whole number, how an exponent
looks, which way a tie goes and the words for the values that have no digits. The digits are
always the shortest that read back.
-/
import TimeSeries.Decimal.Shortest
import TimeSeries.Text.Blank

namespace TimeSeries.Decimal

/-- The decisions of one way to write floating-point numbers. -/
structure Style where
  /-- The places of the point (digits before it) written without an exponent; all, if `none`. -/
  positional : Option (Int × Int)
  /-- What follows a whole number that is written without an exponent. -/
  wholeMark : String
  /-- The sign of a positive exponent. -/
  exponentPlus : String
  tie : Tie
  nan : String
  infinity : String
  negativeInfinity : String

namespace Style

/-- The digits of a decimal without the zeros at their end; `0` alone for zero. -/
def significant (d : Decimal) : List Char :=
  let digits := Text.stripEnd (· == '0') (Nat.toDigits 10 d.coefficient)
  if digits.isEmpty then ['0'] else digits

/-- Digits with the point after `place` of them, zeros filling up where there are none. -/
def positionalText (style : Style) (digits : List Char) (place : Int) : List Char :=
  if place ≤ 0 then "0.".toList ++ List.replicate (-place).toNat '0' ++ digits
  else if digits.length ≤ place.toNat then
    digits ++ List.replicate (place.toNat - digits.length) '0' ++ style.wholeMark.toList
  else digits.take place.toNat ++ '.' :: digits.drop place.toNat

/-- One digit before the point, the others behind it, and the exponent. -/
def exponentText (style : Style) (digits : List Char) (place : Int) : List Char :=
  let exponent := place - 1
  digits.take 1 ++ (if digits.length > 1 then '.' :: digits.drop 1 else [])
    ++ 'e' :: (if exponent > 0 then style.exponentPlus.toList else [])
    ++ (toString exponent).toList

/-- An unsigned decimal in a style. -/
def writeDecimal (style : Style) (d : Decimal) : List Char :=
  let digits := significant d
  let place := if d.coefficient = 0 then 1 else d.pointPlace
  match style.positional with
  | none => style.positionalText digits place
  | some (least, greatest) =>
    if least ≤ place && place ≤ greatest then style.positionalText digits place
    else style.exponentText digits place

/-- A floating-point number in a style. A negative zero keeps its sign. -/
def write (style : Style) (x : Float) : String :=
  if x.isNaN then style.nan
  else if x.isInf then (if x < 0.0 then style.negativeInfinity else style.infinity)
  else
    let sign := if x.toBits.toNat < signWeight then [] else ['-']
    String.ofList (sign ++ style.writeDecimal ((Dyadic.ofFloat x).shortest style.tie))

end Style
end TimeSeries.Decimal
