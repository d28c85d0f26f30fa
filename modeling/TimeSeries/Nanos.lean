/-
# TimeSeries.Nanos — a signed 64-bit count of nanoseconds.

Timestamps, the ends of a time range and the widths of buckets are all such counts. The limits are
part of the type, so a sum or product has to pass `ofInt?`, which refuses a number that does not
fit instead of wrapping it.
-/
import TimeSeries.Decimal.Integer

namespace TimeSeries

/-- A whole number of nanoseconds that fits 64 bits with a sign: from minus the 63rd power of two
up to, but without, that power. -/
structure Nanos where
  toInt : Int
  lower : -9223372036854775808 ≤ toInt
  upper : toInt ≤ 9223372036854775807
deriving DecidableEq

namespace Nanos

@[ext] theorem ext {a b : Nanos} (h : a.toInt = b.toInt) : a = b := by
  cases a; cases b; simp_all

/-- The count with this value, if it fits. -/
def ofInt? (n : Int) : Option Nanos :=
  if h : -9223372036854775808 ≤ n ∧ n ≤ 9223372036854775807 then some ⟨n, h.1, h.2⟩ else none

theorem ofInt?_eq_some_iff {n : Int} {a : Nanos} : ofInt? n = some a ↔ a.toInt = n := by
  unfold ofInt?
  split
  · rename_i h
    constructor
    · rintro h'; cases h'; rfl
    · rintro rfl; rfl
  · rename_i h
    constructor
    · intro h'; cases h'
    · rintro rfl; exact absurd ⟨a.lower, a.upper⟩ h

/-- The origin of time, which as a record's timestamp means that none was given. -/
def zero : Nanos := ⟨0, by decide, by decide⟩

/-- The last moment that can be told. -/
def last : Nanos := ⟨9223372036854775807, by decide, by decide⟩

/-- One millisecond. -/
def milli : Nanos := ⟨1000000, by decide, by decide⟩

/-- One minute. -/
def minute : Nanos := ⟨60000000000, by decide, by decide⟩

/-- A product, if it fits. -/
def mul? (a b : Nanos) : Option Nanos := ofInt? (a.toInt * b.toInt)

/-! ## Order -/

instance : Ord Nanos := ⟨compareOn Nanos.toInt⟩

instance : Std.TransOrd Nanos := inferInstanceAs (Std.TransCmp (compareOn Nanos.toInt))

instance : Std.LawfulEqOrd Nanos where
  eq_of_compare h := ext (Std.LawfulEqOrd.eq_of_compare (α := Int) h)

instance : LE Nanos := ⟨fun a b => a.toInt ≤ b.toInt⟩

instance : LT Nanos := ⟨fun a b => a.toInt < b.toInt⟩

instance (a b : Nanos) : Decidable (a ≤ b) := inferInstanceAs (Decidable (a.toInt ≤ b.toInt))

instance (a b : Nanos) : Decidable (a < b) := inferInstanceAs (Decidable (a.toInt < b.toInt))

/-! ## Text -/

/-- A count in decimal digits after at most one sign; refused when it does not fit. -/
def read? (s : List Char) : Option Nanos := (Decimal.readInt? s).bind ofInt?

/-- The count in decimal digits, with a minus sign if it is negative. -/
def text (n : Nanos) : String := toString n.toInt

end Nanos
end TimeSeries
