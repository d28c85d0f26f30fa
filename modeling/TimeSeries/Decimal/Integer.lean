/-
# TimeSeries.Decimal.Integer — whole numbers in decimal digits.

A reader takes a whole text or refuses it: no blanks, no underscores, digits of ASCII only. The
number is unbounded here; a caller that has limits tests them on the value it gets.
-/

namespace TimeSeries.Decimal

/-- The number denoted by a non-empty run of digits; leading zeros are allowed. -/
def readNat? (s : List Char) : Option Nat :=
  if s.isEmpty || !s.all Char.isDigit then none else some (Nat.ofDigitChars 10 s 0)

/-- The number denoted by digits after at most one sign, `+` or `-`. -/
def readInt? : List Char → Option Int
  | '-' :: s => (readNat? s).map fun n => -(n : Int)
  | '+' :: s => (readNat? s).map fun n => (n : Int)
  | s => (readNat? s).map fun n => (n : Int)

/-- Reading the decimal form of a number gives the number back. -/
theorem readNat?_toDigits (n : Nat) : readNat? (Nat.toDigits 10 n) = some n := by
  have h1 : (Nat.toDigits 10 n).isEmpty = false := by
    rw [List.isEmpty_eq_false_iff]
    exact List.ne_nil_of_length_pos Nat.length_toDigits_pos
  have h2 : (Nat.toDigits 10 n).all Char.isDigit = true :=
    List.all_eq_true.2 fun _ hc => Nat.isDigit_of_mem_toDigits (by omega) (by omega) hc
  simp [readNat?, h1, h2, Nat.ofDigitChars_toDigits]

end TimeSeries.Decimal
