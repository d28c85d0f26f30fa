/-
# TimeSeries.Text.Digit — digits in bases up to sixteen.

The letters from `a` to `f` are digits in either case. A number is read off digits that have been
found to be some; which runs of digits a format takes is up to the format.
-/

namespace TimeSeries.Text

/-- The value of a hexadecimal digit. -/
def hexDigit? (c : Char) : Option Nat :=
  if c.isDigit then some (c.toNat - '0'.toNat)
  else if 'a' ≤ c.toLower ∧ c.toLower ≤ 'f' then some (c.toLower.toNat - 'a'.toNat + 10)
  else none

/-- A class of digits below a base of at most 16. -/
def isDigitBelow (base : Nat) (c : Char) : Bool :=
  match hexDigit? c with
  | some n => n < base
  | none => false

/-- The number that digits denote in a base. -/
def ofDigits (base : Nat) (s : List Char) : Nat :=
  s.foldl (fun n c => base * n + (hexDigit? c).getD 0) 0

end TimeSeries.Text
