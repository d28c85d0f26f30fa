/-
# TimeSeries.Proofs.Store.Replies — what can be seen of a store.

A store is known by its replies to requests that come one after the other. The replies of two stores
are compared through what one request does to their states (`replies_eq_of_step`). The plainest
store keeps the log of all that was saved and works out every answer from it; a store of sorted
series replies as the log does (`SeriesStore.replies_eq`).
-/
import TimeSeries.Proofs.Store.Series

namespace TimeSeries

/-! ## Requests and replies -/

/-- What a store may be asked to do. -/
inductive Request
  | save (sample : Sample)
  | range (measurement : String) (start stop : Nanos)
  | measurements

/-- What comes back. -/
inductive Reply
  | saved
  | points (ps : List Point)
  | names (measurements : List String)
  /-- What the store keeps could not be read. -/
  | failed

/-- The replies to requests that come one after the other. -/
def replies {σ : Type} (serve : σ → Request → σ × Reply) : σ → List Request → List Reply
  | _, [] => []
  | s, r :: rs => (serve s r).2 :: replies serve (serve s r).1 rs

/-- What a store does with a request. -/
def PointStore.serve {σ : Type} [PointStore σ] (s : σ) : Request → σ × Reply
  | .save x => (PointStore.save s x, .saved)
  | .range m start stop => (s, .points (PointStore.range s m start stop))
  | .measurements => (s, .names (PointStore.measurements s))

/-- Stores whose states are related reply alike, if each request keeps the states related and is
answered alike from related states. -/
theorem replies_eq_of_step {σ τ : Type} {serve : σ → Request → σ × Reply}
    {serve' : τ → Request → τ × Reply} (R : σ → τ → Prop) (f : Reply → Reply)
    (hstep : ∀ s t r, R s t →
      R (serve s r).1 (serve' t r).1 ∧ (serve s r).2 = f (serve' t r).2) :
    ∀ (rs : List Request) (s : σ) (t : τ), R s t →
      replies serve s rs = (replies serve' t rs).map f := by
  intro rs
  induction rs with
  | nil =>
    intro s t _
    rfl
  | cons r rs ih =>
    intro s t h
    obtain ⟨hnext, hreply⟩ := hstep s t r h
    rw [replies, replies, List.map_cons, hreply, ih _ _ hnext]

/-! ## Names in ascending order -/

/-- Each of some names once, in ascending order. -/
def ascendingNames (names : List String) : List String := (Std.TreeSet.ofList names).toList

theorem mem_ascendingNames {names : List String} {m : String} :
    m ∈ ascendingNames names ↔ m ∈ names := by
  rw [ascendingNames, Std.TreeSet.mem_toList, Std.TreeSet.mem_ofList, List.contains_iff_mem]

theorem pairwise_utf8_toList (names : Std.TreeSet String) :
    names.toList.Pairwise fun a b => Text.utf8 a < Text.utf8 b := by
  have hordered : names.toList.Pairwise fun a b => compare a b = .lt := Std.TreeSet.ordered_toList
  refine hordered.imp fun {a b} h => Text.utf8_lt ?_
  exact compareOfLessAndEq_eq_lt.mp h

theorem pairwise_ascendingNames (names : List String) :
    (ascendingNames names).Pairwise fun a b => Text.utf8 a < Text.utf8 b :=
  pairwise_utf8_toList _

/-- Names in ascending order of their bytes are known by which names there are. -/
theorem eq_ascendingNames {names all : List String}
    (hpairwise : names.Pairwise fun a b => Text.utf8 a < Text.utf8 b)
    (hmem : ∀ m, m ∈ names ↔ m ∈ all) : names = ascendingNames all := by
  have hnodup : ∀ {l : List String}, (l.Pairwise fun a b => Text.utf8 a < Text.utf8 b) →
      l.Nodup := by
    intro l h
    refine h.imp fun {a b} hlt => ?_
    rintro rfl
    exact absurd hlt (List.lt_irrefl _)
  have hperm : names.Perm (ascendingNames all) := by
    rw [List.perm_ext_iff_of_nodup (hnodup hpairwise) (hnodup (pairwise_ascendingNames all))]
    intro m
    rw [hmem, mem_ascendingNames]
  refine hperm.eq_of_pairwise (fun a b _ _ hab hba => ?_) hpairwise (pairwise_ascendingNames all)
  exact absurd (List.lt_trans hab hba) (List.lt_irrefl _)

/-! ## The log as a store -/

/-- Samples in the order in which they were saved. -/
structure Log where
  samples : List Sample

namespace Log

/-- The sample is of a measurement and between two times. -/
def isAsked (m : String) (start stop : Nanos) (x : Sample) : Bool :=
  decide (x.measurement = m ∧ start ≤ x.timestamp ∧ x.timestamp ≤ stop)

/-- The samples of a measurement between two times in the order of time. -/
def chosen (log : Log) (m : String) (start stop : Nanos) : List Sample :=
  (log.samples.filter (isAsked m start stop)).mergeSort
    fun a b => decide (a.timestamp ≤ b.timestamp)

instance : PointStore Log where
  save log x := ⟨log.samples ++ [x]⟩
  range log m start stop := (log.chosen m start stop).map Sample.point
  measurements log := ascendingNames (log.samples.map Sample.measurement)

end Log

/-! ## The store of sorted series -/

namespace SeriesStore

variable {s : SeriesStore} {log : Log}

theorem Refines.range_eq (h : Refines s log.samples) (m : String) (start stop : Nanos) :
    PointStore.range s m start stop = PointStore.range log m start stop := by
  obtain ⟨rows, horder, hrange⟩ := h.range m start stop
  show s.range m start stop = (log.chosen m start stop).map Sample.point
  rw [hrange, horder.eq_mergeSort]
  rfl

theorem Refines.measurements_eq (h : Refines s log.samples) :
    PointStore.measurements s = PointStore.measurements log := by
  refine eq_ascendingNames (pairwise_utf8_keys s) fun m => ?_
  show m ∈ s.series.keys ↔ _
  rw [List.mem_map, Std.TreeMap.mem_keys, h.mem_series m]

theorem Refines.step (h : Refines s log.samples) (r : Request) :
    Refines (PointStore.serve s r).1 (PointStore.serve log r).1.samples ∧
      (PointStore.serve s r).2 = (PointStore.serve log r).2 := by
  cases r with
  | save x => exact ⟨h.save x, rfl⟩
  | range m start stop => exact ⟨h, congrArg Reply.points (h.range_eq m start stop)⟩
  | measurements => exact ⟨h, congrArg Reply.names h.measurements_eq⟩

/-- A store that holds a log replies as the log does. -/
theorem Refines.replies_eq (h : Refines s log.samples) (rs : List Request) :
    replies PointStore.serve s rs = replies PointStore.serve log rs := by
  have hreplies := replies_eq_of_step
    (fun (s : SeriesStore) (log : Log) => Refines s log.samples) id
    (fun s log r (h : Refines s log.samples) => h.step r) rs s log h
  rwa [List.map_id] at hreplies

/-- Sorting and halving cannot be told from a log that is searched through. -/
theorem replies_eq (rs : List Request) :
    replies PointStore.serve SeriesStore.empty rs =
      replies PointStore.serve (Log.mk []) rs := by
  have h : Refines SeriesStore.empty (Log.mk []).samples := Refines.empty
  exact h.replies_eq rs

end SeriesStore
end TimeSeries
