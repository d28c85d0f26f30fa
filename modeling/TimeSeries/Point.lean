/-
# TimeSeries.Point — stored points, and the samples that put them there.

A sample is one field value of a record at one time; stores take samples and give back points. A
point may hold several fields, in ascending order of their names; one that comes out of a store
holds the single field of its sample.
-/
import TimeSeries.Nanos
import Std.Data.TreeMap

namespace TimeSeries

/-- Values at one time, under field names in ascending order. Tags stay as they were written. -/
structure Point where
  measurement : String
  tags : List (String × String)
  fields : Std.TreeMap String Float
  timestamp : Nanos

namespace Point

/-- The value of a field. -/
def value? (p : Point) (name : String) : Option Float := p.fields[name]?

/-- The value of a tag; the last one written counts. -/
def tag? (p : Point) (key : String) : Option String :=
  (p.tags.reverse.find? (·.1 == key)).map Prod.snd

end Point

/-- One field value of a measurement at one time. -/
structure Sample where
  measurement : String
  field : String
  value : Float
  tags : List (String × String)
  timestamp : Nanos

/-- The point that holds one sample. -/
def Sample.point (s : Sample) : Point :=
  ⟨s.measurement, s.tags, .ofList [(s.field, s.value)], s.timestamp⟩

end TimeSeries
