/-
# TimeSeries.Query.Rows — the rows that a selection makes of points.

Without a reduction every selected value is a row. With one, the values are gathered in buckets
that start at the multiples of the width, counted from time zero, and every field of a bucket is
one row. Buckets stand in a map under (start, field name), so rows come in that order.
-/
import TimeSeries.Decimal.Basic
import TimeSeries.Point
import TimeSeries.Query.Error
import TimeSeries.Query.Statement

namespace TimeSeries.Query

/-- A row of an answer: a point's time under its field's name, or a bucket's start under the name
of its reduction. -/
structure Row where
  timestamp : Nanos
  label : String
  value : Float

/-! ## Reductions -/

/-- The sum from left to right. It starts from negative zero, which any first value replaces. -/
def total (xs : List Float) : Float := xs.foldl (· + ·) (-0.0)

/-- The lesser of two numbers, of which NaN is neither. -/
def lesser (x y : Float) : Float :=
  if x.isNaN then y else if y.isNaN then x else if y < x then y else x

/-- The greater of two numbers, of which NaN is neither. -/
def greater (x y : Float) : Float :=
  if x.isNaN then y else if y.isNaN then x else if x < y then y else x

/-- One value for the values of a bucket; none for no values. -/
def Aggregation.apply (f : Aggregation) (xs : List Float) : Option Float :=
  if xs.isEmpty then none
  else some <|
    match f with
    | .mean => total xs / Float.ofNat xs.length
    | .sum => total xs
    | .count => Float.ofNat xs.length
    | .min => xs.foldl lesser Decimal.infinity
    | .max => xs.foldl greater (-Decimal.infinity)

/-! ## Rows of points -/

/-- The rows of one point: all its fields, or the one selected. -/
def rawRows (selector : Selector) (p : Point) : List Row :=
  match selector with
  | .all => p.fields.toList.map fun (name, value) => ⟨p.timestamp, name, value⟩
  | .field name => ((p.value? name).map fun value => ⟨p.timestamp, name, value⟩).toList

/-! ## Rows of buckets -/

/-- The start of the bucket that a time falls into: the greatest multiple of the width that is not
after it. There is none if that multiple does not fit. -/
def bucketStart (width t : Nanos) : Option Nanos :=
  Nanos.ofInt? (t.toInt / width.toInt * width.toInt)

/-- The order of buckets: by start, then by field name. -/
def compareBuckets : Nanos × String → Nanos × String → Ordering :=
  compareLex (compareOn Prod.fst) (compareOn Prod.snd)

instance : Std.TransCmp compareBuckets :=
  inferInstanceAs (Std.TransCmp (compareLex (compareOn Prod.fst) (compareOn Prod.snd)))

instance : Std.LawfulEqCmp compareBuckets where
  eq_of_compare {a b} h := by
    have h' := compareLex_eq_eq.1 h
    exact Prod.ext (Std.LawfulEqOrd.eq_of_compare h'.1) (Std.LawfulEqOrd.eq_of_compare h'.2)

/-- The values of every bucket and field, in the order of their points. -/
abbrev Buckets := Std.TreeMap (Nanos × String) (List Float) compareBuckets

namespace Buckets

/-- Adds a value at the end of its bucket. -/
def push (m : Buckets) (key : Nanos × String) (value : Float) : Buckets :=
  m.insert key (m.getD key [] ++ [value])

/-- Adds the selected values of a point; a point without a bucket adds none. -/
def pushPoint (selector : Selector) (width : Nanos) (m : Buckets) (p : Point) : Buckets :=
  match bucketStart width p.timestamp with
  | none => m
  | some start =>
    (p.fields.toList.filter fun (name, _) => selector.matches? name).foldl
      (fun m (name, value) => m.push (start, name) value) m

/-- The buckets of points. -/
def ofPoints (selector : Selector) (width : Nanos) (ps : List Point) : Buckets :=
  ps.foldl (pushPoint selector width) ∅

end Buckets

/-- The label of a bucket's row. -/
def bucketLabel (selector : Selector) (f : Aggregation) (name : String) : String :=
  match selector with
  | .all => f.name ++ "_" ++ name
  | .field _ => f.name

/-- The rows of the buckets of points. -/
def bucketRows (f : Aggregation) (selector : Selector) (width : Nanos) (ps : List Point) :
    List Row :=
  (Buckets.ofPoints selector width ps).toList.filterMap fun ((start, name), values) =>
    (f.apply values).map fun value => ⟨start, bucketLabel selector f name, value⟩

/-! ## Rows of a selection -/

/-- The rows that a selection makes of points, which it takes as they come: range and measurement
are tested where points are fetched. -/
def Select.rows (s : Select) (ps : List Point) : Except Error (List Row) :=
  match s.aggregation with
  | none => .ok (ps.flatMap (rawRows s.selector))
  | some f =>
    let width := s.bucketWidth.getD defaultWidth
    if width.toInt ≤ 0 then .error (.invalidBucketWidth width)
    else .ok (bucketRows f s.selector width ps)

/-- The rows of a statement; only a selection has any. -/
def Statement.rows (s : Statement) (ps : List Point) : Except Error (List Row) :=
  match s with
  | .select s => s.rows ps
  | other => .error (.invalidQuery (other.kind ++ " does not produce rows"))

end TimeSeries.Query
