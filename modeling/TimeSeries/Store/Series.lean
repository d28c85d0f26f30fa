/-
# TimeSeries.Store.Series — points kept in order of time.

Every measurement has one array of points, ascending in time. A new point goes behind all points
that are not later than it, so points of one time stay in the order of their arrival, and a range is
the piece between two places. Both places are found by halving.
-/
import TimeSeries.Store.Basic

namespace TimeSeries

/-! ## Search by halving -/

/-- The first place from `lo` up to `hi` whose element fails `p`, where elements that pass come
first; `hi` if none fails. -/
def partitionBetween {α : Type} (xs : Array α) (p : α → Bool) (lo hi : Nat) (h : hi ≤ xs.size) :
    Nat :=
  if hlt : lo < hi then
    let mid := (lo + hi) / 2
    have : mid < xs.size := by omega
    if p xs[mid] then partitionBetween xs p (mid + 1) hi h
    else partitionBetween xs p lo mid (by omega)
  else lo
termination_by hi - lo

/-- How many elements pass `p`, where those that pass come first. -/
def partitionPoint {α : Type} (xs : Array α) (p : α → Bool) : Nat :=
  partitionBetween xs p 0 xs.size (Nat.le_refl _)

/-! ## The store -/

/-- Points by measurement, each measurement's points in ascending order of time. -/
structure SeriesStore where
  series : Std.TreeMap String (Array Point)

namespace SeriesStore

/-- A store without points. -/
def empty : SeriesStore := ⟨∅⟩

/-- The points of a measurement. -/
def points (s : SeriesStore) (measurement : String) : Array Point :=
  s.series.getD measurement #[]

/-- Puts a point behind all points that are not later. -/
def insertPoint (ps : Array Point) (p : Point) : Array Point :=
  ps.insertIdxIfInBounds (partitionPoint ps fun q => q.timestamp ≤ p.timestamp) p

/-- Saves a sample as a point of its measurement. -/
def save (s : SeriesStore) (sample : Sample) : SeriesStore :=
  ⟨s.series.insert sample.measurement (insertPoint (s.points sample.measurement) sample.point)⟩

/-- The points of a measurement from one time to another; none if the times are the wrong way
round. -/
def range (s : SeriesStore) (measurement : String) (start stop : Nanos) : List Point :=
  let ps := s.points measurement
  let first := partitionPoint ps fun p => p.timestamp < start
  let last := partitionPoint ps fun p => p.timestamp ≤ stop
  (ps.extract first last).toList

/-- The number of points. -/
def size (s : SeriesStore) : Nat := s.series.values.foldl (fun n ps => n + ps.size) 0

instance : PointStore SeriesStore where
  save := save
  range := range
  measurements s := s.series.keys

end SeriesStore
end TimeSeries
