/-
# TimeSeries.Store.Basic — what a store of points does.

A store takes samples one by one. It gives back the points of a measurement in a time range, both
ends included, in ascending order of time and, at one time, in the order in which they were saved.
A store here never fails. One that lies outside the process may: then the failure ends what the
store was used for, the storing of a text or the answer to a query. Such stores are left out.
-/
import TimeSeries.Point

namespace TimeSeries

/-- The operations of a store. -/
class PointStore (σ : Type) where
  /-- Saves one sample. -/
  save : σ → Sample → σ
  /-- The points of a measurement from one time to another. -/
  range : σ → String → Nanos → Nanos → List Point
  /-- The names of all measurements in ascending order. -/
  measurements : σ → List String

/-- Saves samples in order. -/
def PointStore.saveAll {σ : Type} [PointStore σ] (store : σ) (samples : List Sample) : σ :=
  samples.foldl PointStore.save store

end TimeSeries
