/-
# TimeSeries.Query.Statement — what a query asks for.

    SHOW DATABASES | SHOW MEASUREMENTS
    CREATE DATABASE name | USE name
    SELECT * | field | mean|sum|count|min|max(field) FROM measurement
      [WHERE time >= T1[ms] and time <= T2[ms]]
      [GROUP BY time(Nm)]

Both ends of a time range are included.
-/
import TimeSeries.Nanos

namespace TimeSeries.Query

/-! ## Selections -/

/-- The fields that a selection reads. -/
inductive Selector
  | all
  | field (name : String)
deriving Repr, DecidableEq

namespace Selector

/-- The selector reads the field of this name. -/
def matches? : Selector → String → Bool
  | .all, _ => true
  | .field name, other => name == other

/-- The selector as it is shown. -/
def text : Selector → String
  | .all => "*"
  | .field name => name

end Selector

/-- The ways to reduce the values of a bucket to one. -/
inductive Aggregation
  | mean
  | sum
  | count
  | min
  | max
deriving Repr, DecidableEq

namespace Aggregation

/-- The name of a reduction, in queries and in the labels of its rows. -/
def name : Aggregation → String
  | .mean => "mean"
  | .sum => "sum"
  | .count => "count"
  | .min => "min"
  | .max => "max"

/-- All reductions. -/
def all : List Aggregation := [.mean, .sum, .count, .min, .max]

end Aggregation

/-- A selection of points of one measurement in a time range, with an optional reduction. -/
structure Select where
  measurement : String
  selector : Selector
  aggregation : Option Aggregation
  /-- The least timestamp selected. -/
  start : Nanos
  /-- The greatest timestamp selected. -/
  stop : Nanos
  /-- The width of the buckets of a reduction. -/
  bucketWidth : Option Nanos
deriving DecidableEq

/-- The width of the buckets where none is given: five minutes. -/
def defaultWidth : Nanos := ⟨300000000000, by decide, by decide⟩

namespace Select

/-- All points from time zero to `stop`, not reduced. -/
def upTo (measurement : String) (selector : Selector) (stop : Nanos) : Select :=
  ⟨measurement, selector, none, .zero, stop, none⟩

/-- The selection reduced, in buckets of the default width unless one is set. -/
def aggregate (s : Select) (f : Aggregation) : Select :=
  { s with aggregation := some f, bucketWidth := some (s.bucketWidth.getD defaultWidth) }

/-- The selection in another time range. -/
def between (s : Select) (start stop : Nanos) : Select := { s with start, stop }

/-- The selection with other buckets. -/
def withWidth (s : Select) (width : Option Nanos) : Select := { s with bucketWidth := width }

end Select

/-! ## Statements -/

/-- A query that has been read. -/
inductive Statement
  | select (s : Select)
  | showDatabases
  | showMeasurements
  | createDatabase (name : String)
  | use (database : String)
deriving DecidableEq

/-- The name of a statement's kind. -/
def Statement.kind : Statement → String
  | .select _ => "SelectPoints"
  | .showDatabases => "ShowDatabases"
  | .showMeasurements => "ShowMeasurements"
  | .createDatabase _ => "CreateDatabase"
  | .use _ => "Use"

end TimeSeries.Query
