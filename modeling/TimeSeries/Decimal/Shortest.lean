/-
# TimeSeries.Decimal.Shortest — the fewest digits that read back to a floating-point number.

A positive finite number is `m · 2 ^ q`. The reals that round to it form an interval around it,
half a step wide on either side, with its ends included exactly when `m` is even; below a power of
two the step is half as wide. The grids `10 ^ k` are tried from the leading digit down: the first
that has a point in the interval gives the digits, and one of the number's two neighbours on that
grid is such a point. Of two such neighbours the nearer is taken; a tie goes by the caller's rule.
-/
import TimeSeries.Decimal.Basic

namespace TimeSeries.Decimal

/-- Which of two equally near decimals is taken. -/
inductive Tie
  | toEven
  | up
deriving Repr, DecidableEq

/-- A positive finite floating-point number `mantissa · 2 ^ exponent`. The step below it is half as
wide as the step above it when `narrowBelow`. -/
structure Dyadic where
  mantissa : Nat
  exponent : Int
  narrowBelow : Bool
deriving Repr, DecidableEq

/-- The weight of the sign in the bits of a number, the 63rd power of two. -/
def signWeight : Nat := 9223372036854775808

/-- The weight of the lowest bit of the exponent, the 52nd power of two. The bits below it are the
fraction. -/
def exponentWeight : Nat := 4503599627370496

/-- The magnitude of a finite floating-point number, from its bits. -/
def Dyadic.ofFloat (x : Float) : Dyadic :=
  let bits : Nat := x.toBits.toNat % signWeight
  let fraction : Nat := bits % exponentWeight
  let power : Nat := bits / exponentWeight
  if power = 0 then ⟨fraction, -1074, false⟩
  else ⟨exponentWeight + fraction, (power : Int) - 1075, decide (fraction = 0 ∧ power > 1)⟩

/-- The number `n · 2 ^ (q - 2)`, over the denominator that `Dyadic.denominator` gives for `q`. -/
def Dyadic.scaled (n : Nat) (q : Int) : Nat := n <<< (q - 2).toNat

/-- The power of two that makes a quarter of `2 ^ q` whole. -/
def Dyadic.denominator (q : Int) : Nat := 1 <<< (2 - q).toNat

/-- A power of ten. -/
def tenTo (n : Nat) : Nat := Nat.pow 10 n

/-- The exponent of the leading decimal digit of `num / den`, for a positive quotient. -/
def leadingPlace (num den : Nat) : Int :=
  if den ≤ num then ((Nat.toDigits 10 (num / den)).length : Int) - 1
  else -((Nat.toDigits 10 ((den - 1) / num)).length : Int)

/-- The neighbour of `d` on the grid `10 ^ k` that rounds to `d`: the nearer one, if both do. -/
def neighbour? (tie : Tie) (d : Dyadic) (k : Int) : Option Decimal :=
  let up := tenTo (-k).toNat
  let den := Dyadic.denominator d.exponent * tenTo k.toNat
  let value := Dyadic.scaled (4 * d.mantissa) d.exponent * up
  let low := Dyadic.scaled (4 * d.mantissa - (if d.narrowBelow then 1 else 2)) d.exponent * up
  let high := Dyadic.scaled (4 * d.mantissa + 2) d.exponent * up
  let inside (c : Nat) : Bool :=
    if d.mantissa % 2 = 0 then low ≤ c * den && c * den ≤ high
    else low < c * den && c * den < high
  let below := value / den
  let above := if value % den = 0 then below else below + 1
  if inside below && inside above then
    let fromBelow := value - below * den
    let fromAbove := above * den - value
    let takeBelow := fromBelow < fromAbove
      || (fromBelow = fromAbove && tie = .toEven && below % 2 = 0)
    some ⟨if takeBelow then below else above, k⟩
  else if inside below then some ⟨below, k⟩
  else if inside above then some ⟨above, k⟩
  else none

/-- The shortest decimal that reads back to `d`. Seventeen digits always suffice. -/
def Dyadic.shortest (tie : Tie) (d : Dyadic) : Decimal :=
  if d.mantissa = 0 then ⟨0, 0⟩
  else
    let top := leadingPlace (Dyadic.scaled (4 * d.mantissa) d.exponent) (denominator d.exponent)
    ((List.range 18).findSome? fun (n : Nat) => neighbour? tie d (top - n)).getD ⟨0, 0⟩

end TimeSeries.Decimal
