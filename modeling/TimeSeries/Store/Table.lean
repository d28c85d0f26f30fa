/-
# TimeSeries.Store.Table — points kept as the rows of a table.

Every sample is one row under the next free number. A query filters the rows and sorts what is left
by time, then by number. A value is kept in a column of numbers that knows no NaN and no negative
zero: NaN becomes an empty cell and comes back as NaN, negative zero comes back as zero.
-/
import TimeSeries.Store.Basic
import Std.Data.TreeSet

namespace TimeSeries

/-! ## Cells -/

/-- What a column of numbers keeps of a value; nothing for NaN. -/
def cellOfFloat (x : Float) : Option Float :=
  if x.isNaN then none else if x == 0.0 then some 0.0 else some x

/-- The value of a cell. -/
def floatOfCell (cell : Option Float) : Float := cell.getD (0.0 / 0.0)

/-! ## The store -/

/-- One row of the table. -/
structure TableRow where
  number : Nat
  measurement : String
  timestamp : Nanos
  tags : List (String × String)
  field : String
  cell : Option Float

/-- The row as a point. -/
def TableRow.point (r : TableRow) : Point :=
  Sample.point ⟨r.measurement, r.field, floatOfCell r.cell, r.tags, r.timestamp⟩

/-- Rows in the order of their numbers, and the number of the next row. -/
structure TableStore where
  rows : Array TableRow
  next : Nat

namespace TableStore

/-- A table without rows. -/
def empty : TableStore := ⟨#[], 1⟩

/-- Adds the row of a sample. -/
def save (t : TableStore) (s : Sample) : TableStore where
  rows := t.rows.push ⟨t.next, s.measurement, s.timestamp, s.tags, s.field, cellOfFloat s.value⟩
  next := t.next + 1

/-- The order of a query's rows: by time, then by number. -/
def rowBefore (a b : TableRow) : Bool :=
  a.timestamp < b.timestamp || (a.timestamp = b.timestamp && a.number ≤ b.number)

/-- The points of a measurement from one time to another. -/
def range (t : TableStore) (measurement : String) (start stop : Nanos) : List Point :=
  let chosen := t.rows.toList.filter fun r =>
    r.measurement = measurement && start ≤ r.timestamp && r.timestamp ≤ stop
  (chosen.mergeSort rowBefore).map TableRow.point

/-- The names of the measurements in the table, in ascending order. -/
def measurements (t : TableStore) : List String :=
  (Std.TreeSet.ofList (t.rows.toList.map TableRow.measurement)).toList

instance : PointStore TableStore where
  save := save
  range := range
  measurements := measurements

end TableStore
end TimeSeries
