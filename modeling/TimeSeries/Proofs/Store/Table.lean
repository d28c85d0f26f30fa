/-
# TimeSeries.Proofs.Store.Table — what a store of rows remembers.

A row is numbered when it is added, and a query sorts by time and then by number. Rows of one time
therefore come in the order of their arrival (`TimeOrder.of_numbered`). A table replies as a log
does, but for the column of numbers: a negative zero that went in comes out as zero.
-/
import TimeSeries.Proofs.Store.Replies
import TimeSeries.Store.Table

namespace TimeSeries

/-! ## Values through a column of numbers -/

/-- Negative zero as zero, and every other value as it is. -/
def dropZeroSign (x : Float) : Float := if x = -0.0 then 0.0 else x

theorem isNaN_iff {x : Float} : x.isNaN = true ↔ x = Float.nan := by
  rw [Float.isNaN_eq_decide_eq_nan, decide_eq_true_eq]

theorem beq_zero_iff {x : Float} : (x == 0.0) = true ↔ x = 0.0 ∨ x = -0.0 := by
  have hzero : (0.0 : Float) = 0 := by decide
  have hnan : (0 : Float) ≠ Float.nan := by decide
  have hnan' : (-0 : Float) ≠ Float.nan := by decide
  have hsign : (0 : Float) ≠ -0 := by decide
  rw [Float.beq_iff_ne_nan_and_eq, hzero]
  constructor
  · rintro ⟨-, -, h | ⟨-, h⟩ | ⟨h, -⟩⟩
    · exact .inl h
    · exact absurd h hsign
    · exact .inr h
  · rintro (rfl | rfl)
    · exact ⟨hnan, hnan, .inl rfl⟩
    · exact ⟨hnan', hnan, .inr (.inr ⟨rfl, rfl⟩)⟩

/-- NaN survives: it is no negative zero. -/
theorem dropZeroSign_of_isNaN {x : Float} (h : x.isNaN = true) : dropZeroSign x = x := by
  rw [isNaN_iff.mp h]
  decide

/-- What comes out of a column of numbers. -/
theorem floatOfCell_cellOfFloat (x : Float) : floatOfCell (cellOfFloat x) = dropZeroSign x := by
  unfold cellOfFloat
  by_cases hnan : x.isNaN = true
  · rw [if_pos hnan, dropZeroSign_of_isNaN hnan, isNaN_iff.mp hnan]
    rfl
  · rw [if_neg hnan]
    by_cases hzero : (x == 0.0) = true
    · rw [if_pos hzero]
      rcases beq_zero_iff.mp hzero with rfl | rfl
      · decide
      · decide
    · rw [if_neg hzero, dropZeroSign, if_neg fun h => hzero (beq_zero_iff.mpr (.inr h))]
      rfl

/-- The sample as it comes out of a table. -/
def Sample.dropZeroSign (x : Sample) : Sample := { x with value := TimeSeries.dropZeroSign x.value }

/-- The point with all its values as they come out of a table. -/
def Point.dropZeroSigns (p : Point) : Point :=
  { p with fields := p.fields.map fun _ x => dropZeroSign x }

/-- The reply with all its values as they come out of a table. -/
def Reply.dropZeroSigns : Reply → Reply
  | .points ps => .points (ps.map Point.dropZeroSigns)
  | r => r

theorem Sample.point_dropZeroSign (x : Sample) : x.dropZeroSign.point = x.point.dropZeroSigns := by
  unfold point Point.dropZeroSigns dropZeroSign
  rw [Std.TreeMap.ofList_singleton, Std.TreeMap.ofList_singleton]
  rfl

/-! ## Rows in the order of time and number -/

/-- Sorting what was numbered in the order of arrival by time and then by number gives the order of
time. -/
theorem TimeOrder.of_numbered {ρ : Type} {number : ρ → Nat} {sample : ρ → Sample}
    {chosen stored : List ρ} (hperm : chosen.Perm stored)
    (hnumbers : stored.Pairwise fun a b => number a < number b)
    (hsorted : chosen.Pairwise fun a b => (sample a).timestamp < (sample b).timestamp ∨
      (sample a).timestamp = (sample b).timestamp ∧ number a ≤ number b) :
    TimeOrder (chosen.map sample) (stored.map sample) where
  perm := hperm.map sample
  ascending := by
    rw [List.pairwise_map]
    refine hsorted.imp fun {a b} h => ?_
    rcases h with h | ⟨h, -⟩
    · exact Int.le_of_lt h
    · exact Int.le_of_eq (congrArg Nanos.toInt h)
  arrival t := by
    rw [List.filter_map, List.filter_map]
    refine congrArg (List.map sample) ?_
    -- Rows of one time stand in the order of their numbers on both sides.
    refine (hperm.filter _).eq_of_pairwise ?_ ?_ ((hnumbers.filter _).imp Nat.le_of_lt)
    · intro a b ha hb hab hba
      have hnodup : (stored.map number).Nodup :=
        List.pairwise_map.mpr (hnumbers.imp Nat.ne_of_lt)
      exact List.inj_on_of_nodup_map hnodup (hperm.mem_iff.mp (List.mem_of_mem_filter ha))
        (List.mem_of_mem_filter hb) (Nat.le_antisymm hab hba)
    · refine (hsorted.filter _).imp_of_mem fun {a b} ha hb h => ?_
      have ha : (sample a).timestamp = t := of_decide_eq_true (List.mem_filter.mp ha).2
      have hb : (sample b).timestamp = t := of_decide_eq_true (List.mem_filter.mp hb).2
      rw [ha, hb] at h
      exact (h.resolve_left (Int.lt_irrefl _)).2

/-- A sort by time and then by number. -/
theorem pairwise_mergeSort_of_numbered {ρ : Type} (time : ρ → Nanos) (number : ρ → Nat)
    (rs : List ρ) :
    (rs.mergeSort fun a b => time a < time b || (time a = time b && number a ≤ number b)).Pairwise
      fun a b => time a < time b ∨ time a = time b ∧ number a ≤ number b := by
  have hlt : ∀ {a b : Nanos}, a < b ↔ a.toInt < b.toInt := Iff.rfl
  refine (List.pairwise_mergeSort (fun a b c => ?_) (fun a b => ?_) rs).imp fun {a b} h => ?_
  · simp only [Bool.or_eq_true, Bool.and_eq_true, decide_eq_true_eq, Nanos.ext_iff, hlt]
    omega
  · simp only [Bool.or_eq_true, Bool.and_eq_true, decide_eq_true_eq, Nanos.ext_iff, hlt]
    omega
  · simpa only [Bool.or_eq_true, Bool.and_eq_true, decide_eq_true_eq] using h

/-- Numbered rows that show a log, chosen by what is asked and sorted, are what the log chooses. -/
theorem Log.map_eq_chosen {ρ : Type} {number : ρ → Nat} {sample : ρ → Sample}
    {chosen stored : List ρ} {log : Log} {m : String} {start stop : Nanos}
    (hlog : stored.map sample = log.samples.map Sample.dropZeroSign)
    (hnumbers : stored.Pairwise fun a b => number a < number b)
    (hperm : chosen.Perm (stored.filter fun r => isAsked m start stop (sample r)))
    (hsorted : chosen.Pairwise fun a b => (sample a).timestamp < (sample b).timestamp ∨
      (sample a).timestamp = (sample b).timestamp ∧ number a ≤ number b) :
    chosen.map sample = (log.chosen m start stop).map Sample.dropZeroSign := by
  have horder := TimeOrder.of_numbered hperm (hnumbers.filter _) hsorted
  have hstored : (stored.filter fun r => isAsked m start stop (sample r)).map sample =
      (log.samples.filter (isAsked m start stop)).map Sample.dropZeroSign := by
    have h := congrArg (List.filter (isAsked m start stop)) hlog
    rw [List.filter_map, List.filter_map] at h
    exact h
  rw [hstored] at horder
  exact horder.unique ((TimeOrder.mergeSort _).map fun _ => rfl)

/-! ## The table -/

namespace TableStore

variable {t : TableStore} {log : Log}

/-- The sample of a row. -/
def sampleOf (r : TableRow) : Sample :=
  ⟨r.measurement, r.field, floatOfCell r.cell, r.tags, r.timestamp⟩

/-- A table holds a log: its rows have ascending numbers, all below the next one, and show the
samples in the order in which they were saved. -/
structure Holds (t : TableStore) (log : Log) : Prop where
  numbers : t.rows.toList.Pairwise fun a b => a.number < b.number
  lt_next : ∀ r ∈ t.rows.toList, r.number < t.next
  samples : t.rows.toList.map sampleOf = log.samples.map Sample.dropZeroSign

theorem Holds.empty : Holds TableStore.empty ⟨[]⟩ where
  numbers := .nil
  lt_next _ hr := absurd hr List.not_mem_nil
  samples := rfl

theorem Holds.save (h : Holds t log) (x : Sample) :
    Holds (t.save x) ⟨log.samples ++ [x]⟩ := by
  have hrows : (t.save x).rows.toList = t.rows.toList ++
      [⟨t.next, x.measurement, x.timestamp, x.tags, x.field, cellOfFloat x.value⟩] :=
    Array.toList_push
  refine ⟨?_, ?_, ?_⟩
  · rw [hrows, List.pairwise_append]
    refine ⟨h.numbers, List.pairwise_singleton _ _, fun a ha b hb => ?_⟩
    rw [List.mem_singleton.mp hb]
    exact h.lt_next a ha
  · rw [hrows]
    intro r hr
    rcases List.mem_append.mp hr with hr | hr
    · exact Nat.lt_succ_of_lt (h.lt_next r hr)
    · rw [List.mem_singleton.mp hr]
      exact Nat.lt_succ_self _
  · rw [hrows, List.map_append, List.map_append, h.samples, List.map_singleton,
      List.map_singleton, sampleOf, floatOfCell_cellOfFloat]
    rfl

theorem Holds.range (h : Holds t log) (m : String) (start stop : Nanos) :
    t.range m start stop =
      ((log.chosen m start stop).map Sample.point).map Point.dropZeroSigns := by
  have hasked : (fun r : TableRow => decide (r.measurement = m) && decide (start ≤ r.timestamp) &&
      decide (r.timestamp ≤ stop)) = fun r => Log.isAsked m start stop (sampleOf r) := by
    funext r
    rw [Log.isAsked, Bool.decide_and, Bool.decide_and, Bool.and_assoc]
    rfl
  have hchosen := Log.map_eq_chosen h.samples h.numbers
    (List.mergeSort_perm (t.rows.toList.filter fun r => Log.isAsked m start stop (sampleOf r))
      rowBefore) (pairwise_mergeSort_of_numbered _ _ _)
  have hpoints := congrArg (List.map Sample.point) hchosen
  rw [List.map_map, List.map_map] at hpoints
  rw [TableStore.range, hasked, List.map_map]
  refine hpoints.trans (List.map_congr_left fun x _ => ?_)
  exact x.point_dropZeroSign

theorem Holds.step (h : Holds t log) (r : Request) :
    Holds (PointStore.serve t r).1 (PointStore.serve log r).1 ∧
      (PointStore.serve t r).2 = (PointStore.serve log r).2.dropZeroSigns := by
  cases r with
  | save x => exact ⟨h.save x, rfl⟩
  | range m start stop => exact ⟨h, congrArg Reply.points (h.range m start stop)⟩
  | measurements =>
    refine ⟨h, congrArg Reply.names ?_⟩
    have hnames := congrArg (List.map Sample.measurement) h.samples
    rw [List.map_map, List.map_map] at hnames
    exact congrArg ascendingNames hnames

/-- A table cannot be told from a log that is searched through, but for the sign of zero. -/
theorem replies_eq (rs : List Request) :
    replies PointStore.serve TableStore.empty rs =
      (replies PointStore.serve (Log.mk []) rs).map Reply.dropZeroSigns :=
  replies_eq_of_step Holds Reply.dropZeroSigns (fun _ _ r h => h.step r) rs _ _ .empty

end TableStore
end TimeSeries
