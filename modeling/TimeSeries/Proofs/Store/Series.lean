/-
# TimeSeries.Proofs.Store.Series — what a store of sorted series remembers.

After any saves a store holds, for each measurement, the samples that were saved for it in the order
of time. That order is what both searches need, so it is part of what a save keeps
(`SeriesStore.Refines.save`), and everything that a store answers follows from it.
-/
import TimeSeries.Proofs.Store.Halving
import TimeSeries.Proofs.Store.TimeOrder
import TimeSeries.Proofs.Text.ByteOrder

namespace TimeSeries

/-! ## Samples and their points -/

/-- A point shows a sample: it has the sample's field alone, and all else as it was saved. -/
structure Point.Shows (p : Point) (x : Sample) : Prop where
  measurement : p.measurement = x.measurement
  tags : p.tags = x.tags
  fields : p.fields.toList = [(x.field, x.value)]
  timestamp : p.timestamp = x.timestamp

theorem Sample.shows_point (x : Sample) : x.point.Shows x where
  measurement := rfl
  tags := rfl
  fields := by
    rw [point, Std.TreeMap.ofList_singleton]
    rfl
  timestamp := rfl

namespace SeriesStore

variable {s : SeriesStore} {log rows : List Sample} {ps : Array Point}

/-! ## One series -/

/-- Points in ascending order of time. -/
def Ascending (l : List Point) : Prop := l.Pairwise fun a b => a.timestamp ≤ b.timestamp

theorem Ascending.passFirst_le {l : List Point} (h : Ascending l) (t : Nanos) :
    PassFirst (fun p => decide (p.timestamp ≤ t)) l := by
  refine h.imp fun {a b} hab hpass => ?_
  rw [decide_eq_true_eq] at hpass ⊢
  exact Int.le_trans hab hpass

theorem Ascending.passFirst_lt {l : List Point} (h : Ascending l) (t : Nanos) :
    PassFirst (fun p => decide (p.timestamp < t)) l := by
  refine h.imp fun {a b} hab hpass => ?_
  rw [decide_eq_true_eq] at hpass ⊢
  exact Int.lt_of_le_of_lt hab hpass

theorem insertIdx_length_append {α : Type} (l r : List α) (a : α) :
    (l ++ r).insertIdx l.length a = l ++ a :: r := by
  induction l with
  | nil => rfl
  | cons b l ih =>
    rw [List.cons_append, List.length_cons, List.insertIdx_succ_cons, ih]
    rfl

/-- A new point goes between the points that are not later and those that are. -/
theorem toList_insertPoint (h : Ascending ps.toList) (p : Point) :
    (insertPoint ps p).toList =
      ps.toList.filter (fun q => decide (q.timestamp ≤ p.timestamp)) ++
        p :: ps.toList.filter (fun q => !decide (q.timestamp ≤ p.timestamp)) := by
  have hpass := h.passFirst_le p.timestamp
  rw [insertPoint, partitionPoint_eq_countP hpass]
  obtain ⟨l⟩ := ps
  have hpass : PassFirst (fun q => decide (q.timestamp ≤ p.timestamp)) l := hpass
  show (l.toArray.insertIdxIfInBounds (l.countP _) p).toList = l.filter _ ++ p :: l.filter _
  rw [List.insertIdxIfInBounds_toArray, ← hpass.take_countP, ← hpass.drop_countP,
    ← insertIdx_length_append, List.take_append_drop, List.length_take,
    Nat.min_eq_left List.countP_le_length]

/-- Between two ends in order stand the points that are late enough and early enough. -/
theorem take_drop_eq_filter {l : List Point} (h : Ascending l) {start stop : Nanos}
    (hends : start ≤ stop) :
    (l.filter (fun p => !decide (p.timestamp < start))).take
        (l.countP (fun p => decide (p.timestamp ≤ stop)) -
          l.countP (fun p => decide (p.timestamp < start))) =
      (l.filter (fun p => !decide (p.timestamp < start))).filter
        (fun p => decide (p.timestamp ≤ stop)) := by
  have hrest : Ascending (l.filter (fun p => !decide (p.timestamp < start))) := h.filter _
  -- All that is too early for the start is early enough for the end.
  have hearly : (l.filter (fun p => decide (p.timestamp < start))).countP
      (fun p => decide (p.timestamp ≤ stop)) =
      l.countP (fun p => decide (p.timestamp < start)) := by
    have hcount : l.countP (fun p => decide (p.timestamp < start)) =
        (l.filter (fun p => decide (p.timestamp < start))).length := List.countP_eq_length_filter
    rw [hcount, List.countP_eq_length]
    intro p hp
    have hlt : p.timestamp.toInt < start.toInt := of_decide_eq_true (List.mem_filter.mp hp).2
    exact decide_eq_true (Int.le_of_lt (Int.lt_of_lt_of_le hlt hends))
  rw [List.countP_eq_countP_filter_add l (fun p => decide (p.timestamp ≤ stop))
    (fun p => decide (p.timestamp < start)), hearly, Nat.add_sub_cancel_left]
  exact (hrest.passFirst_le stop).take_countP

/-- Both ends of a range count, and a range whose ends are the wrong way round is empty. -/
theorem toList_extract_eq_filter (h : Ascending ps.toList) (start stop : Nanos) :
    (ps.extract (partitionPoint ps fun p => p.timestamp < start)
      (partitionPoint ps fun p => p.timestamp ≤ stop)).toList =
      ps.toList.filter (fun p => decide (start ≤ p.timestamp) && decide (p.timestamp ≤ stop)) := by
  have hlt := h.passFirst_lt start
  have hle := h.passFirst_le stop
  rw [partitionPoint_eq_countP hlt, partitionPoint_eq_countP hle, Array.toList_extract,
    List.extract_eq_take_drop, hlt.drop_countP]
  by_cases hends : start ≤ stop
  · rw [take_drop_eq_filter h hends, List.filter_filter]
    refine List.filter_congr fun p _ => ?_
    by_cases hstart : start ≤ p.timestamp
    · have hlate : ¬ p.timestamp < start := Int.not_lt.mpr hstart
      simp [hstart, hlate]
    · have hearly : p.timestamp < start := Int.not_le.mp hstart
      simp [hstart, hearly]
  · -- All that is early enough for the end is too early for the start.
    have hends : stop.toInt < start.toInt := Int.not_le.mp hends
    have hmono : ps.toList.countP (fun p => decide (p.timestamp ≤ stop)) ≤
        ps.toList.countP (fun p => decide (p.timestamp < start)) := by
      refine List.countP_mono_left fun p _ hp => ?_
      rw [decide_eq_true_eq] at hp ⊢
      exact Int.lt_of_le_of_lt hp hends
    rw [Nat.sub_eq_zero_of_le hmono, List.take_zero, eq_comm, List.filter_eq_nil_iff]
    intro p _ hp
    rw [Bool.and_eq_true, decide_eq_true_eq, decide_eq_true_eq] at hp
    obtain ⟨hstart, hstop⟩ := hp
    rw [Nanos.le_iff] at hstart hstop
    omega

/-! ## The store -/

/-- A store holds a log: the series of each measurement shows the samples that were saved for it in
the order of time, and there are no other series. -/
structure Refines (s : SeriesStore) (log : List Sample) : Prop where
  points : ∀ m, ∃ rows, TimeOrder rows (log.filter (fun x => decide (x.measurement = m))) ∧
    (s.points m).toList = rows.map Sample.point
  mem_series : ∀ m, m ∈ s.series ↔ ∃ x ∈ log, x.measurement = m

theorem Refines.empty : Refines SeriesStore.empty [] where
  points m := ⟨[], .nil, by
    rw [SeriesStore.points, SeriesStore.empty, Std.TreeMap.getD_emptyc]
    rfl⟩
  mem_series m := by
    refine ⟨fun hm => absurd hm Std.TreeMap.not_mem_emptyc, ?_⟩
    rintro ⟨x, hx, -⟩
    exact absurd hx List.not_mem_nil

theorem Refines.ascending (h : Refines s log) (m : String) : Ascending (s.points m).toList := by
  obtain ⟨rows, horder, hpoints⟩ := h.points m
  rw [hpoints]
  exact List.pairwise_map.mpr horder.ascending

theorem points_save (s : SeriesStore) (x : Sample) (m : String) :
    (s.save x).points m =
      if x.measurement = m then insertPoint (s.points x.measurement) x.point else s.points m := by
  rw [points, save, Std.TreeMap.getD_insert]
  by_cases hm : x.measurement = m
  · rw [if_pos hm, if_pos (Std.LawfulEqCmp.compare_eq_iff_eq.mpr hm)]
  · rw [if_neg hm, if_neg (mt Std.LawfulEqCmp.compare_eq_iff_eq.mp hm)]
    rfl

/-- A save adds its sample to the log. -/
theorem Refines.save (h : Refines s log) (x : Sample) : Refines (s.save x) (log ++ [x]) where
  points m := by
    rw [points_save, List.filter_append, List.filter_cons, List.filter_nil]
    by_cases hm : x.measurement = m
    · subst hm
      obtain ⟨rows, horder, hpoints⟩ := h.points x.measurement
      rw [if_pos rfl, if_pos (decide_eq_true rfl)]
      -- The search for the place relies on the order that was kept so far.
      refine ⟨TimeOrder.place rows x, horder.insert x, ?_⟩
      rw [toList_insertPoint (h.ascending x.measurement), hpoints, TimeOrder.place, List.map_append,
        List.map_cons, List.filter_map, List.filter_map]
      rfl
    · rw [if_neg hm, if_neg (by rw [decide_eq_true_eq]; exact hm), List.append_nil]
      exact h.points m
  mem_series m := by
    show m ∈ s.series.insert _ _ ↔ _
    rw [Std.TreeMap.mem_insert, Std.LawfulEqCmp.compare_eq_iff_eq, h.mem_series m]
    constructor
    · intro hm
      rcases hm with hm | ⟨y, hy, hm⟩
      · exact ⟨x, List.mem_concat_self, hm⟩
      · exact ⟨y, List.mem_append_left _ hy, hm⟩
    · intro hm
      obtain ⟨y, hy, hm⟩ := hm
      rcases List.mem_append.mp hy with hy | hy
      · exact .inr ⟨y, hy, hm⟩
      · obtain rfl := List.mem_singleton.mp hy
        exact .inl hm

/-- A store holds what was saved in it, in whatever order it was saved. -/
theorem Refines.saveAll (h : Refines s log) (xs : List Sample) :
    Refines (PointStore.saveAll s xs) (log ++ xs) := by
  induction xs generalizing s log with
  | nil => rwa [List.append_nil]
  | cons x xs ih =>
    rw [List.append_cons]
    exact ih (h.save x)

theorem refines_saveAll (log : List Sample) :
    Refines (PointStore.saveAll SeriesStore.empty log) log :=
  Refines.empty.saveAll log

/-! ## Answers -/

/-- A range is what its series has between its ends. -/
theorem Refines.range_eq_filter (h : Refines s log) (m : String) (start stop : Nanos) :
    s.range m start stop = (s.points m).toList.filter
      fun p => decide (start ≤ p.timestamp) && decide (p.timestamp ≤ stop) :=
  toList_extract_eq_filter (h.ascending m) start stop

theorem Refines.range (h : Refines s log) (m : String) (start stop : Nanos) :
    ∃ rows, TimeOrder rows (log.filter fun x => decide
      (x.measurement = m ∧ start ≤ x.timestamp ∧ x.timestamp ≤ stop)) ∧
      s.range m start stop = rows.map Sample.point := by
  obtain ⟨rows, horder, hpoints⟩ := h.points m
  refine ⟨rows.filter fun x => decide (start ≤ x.timestamp) && decide (x.timestamp ≤ stop), ?_, ?_⟩
  · have hrows := horder.filter
      fun x => decide (start ≤ x.timestamp) && decide (x.timestamp ≤ stop)
    have hlog : ∀ x ∈ log, decide (x.measurement = m ∧ start ≤ x.timestamp ∧ x.timestamp ≤ stop) =
        (decide (start ≤ x.timestamp) && decide (x.timestamp ≤ stop) &&
          decide (x.measurement = m)) := by
      intro x _
      rw [Bool.decide_and, Bool.decide_and, Bool.and_comm]
    rw [List.filter_filter] at hrows
    rwa [List.filter_congr hlog]
  · rw [h.range_eq_filter, hpoints, List.filter_map]
    rfl

/-! ## Size and names -/

theorem values_eq_map_snd (s : SeriesStore) :
    s.series.values = s.series.toList.map Prod.snd := by
  show s.series.foldr (fun _ v l => v :: l) [] = _
  rw [Std.TreeMap.foldr_eq_foldr_toList]
  induction s.series.toList with
  | nil => rfl
  | cons e l ih => rw [List.foldr_cons, ih, List.map_cons]

/-- Each series is counted once, under its measurement. -/
theorem size_eq_sum (s : SeriesStore) :
    s.size = (s.series.keys.map fun m => (s.points m).size).sum := by
  have hpoints : ∀ e ∈ s.series.toList, e.2.size = (s.points e.1).size := by
    intro e he
    have hget : s.series[e.1]? = some e.2 := Std.TreeMap.mem_toList_iff_getElem?_eq_some.mp he
    rw [points, Std.TreeMap.getD_eq_getD_getElem?, hget]
    rfl
  rw [size, ← List.foldl_map (f := Array.size), ← List.sum_eq_foldl, values_eq_map_snd,
    List.map_map, ← Std.TreeMap.map_fst_toList_eq_keys, List.map_map]
  exact congrArg List.sum (List.map_congr_left hpoints)

/-- A save adds one point, whatever the store holds. -/
theorem size_save (s : SeriesStore) (x : Sample) : (s.save x).size = s.size + 1 := by
  have hsum : ∀ s : SeriesStore,
      s.size = ∑ m ∈ s.series.keys.toFinset, (s.points m).size := fun s => by
    rw [size_eq_sum, List.sum_toFinset _ Std.TreeMap.nodup_keys]
  have hkeys : (s.save x).series.keys.toFinset =
      insert x.measurement s.series.keys.toFinset := by
    ext m
    rw [Finset.mem_insert, List.mem_toFinset, List.mem_toFinset, Std.TreeMap.mem_keys,
      Std.TreeMap.mem_keys, save, Std.TreeMap.mem_insert, Std.LawfulEqCmp.compare_eq_iff_eq,
      eq_comm]
  have hpoints : ∀ m, ((s.save x).points m).size =
      (s.points m).size + if x.measurement = m then 1 else 0 := by
    intro m
    rw [points_save]
    split
    · rename_i hm
      rw [← hm, insertPoint, Array.insertIdxIfInBounds, dif_pos (partitionPoint_le_size _ _),
        Array.size_insertIdx]
    · rfl
  -- A measurement that is not there has no points.
  have hnew : x.measurement ∉ s.series.keys.toFinset → (s.points x.measurement).size = 0 := by
    intro hm
    rw [List.mem_toFinset, Std.TreeMap.mem_keys] at hm
    rw [points, Std.TreeMap.getD_eq_fallback hm]
    rfl
  rw [hsum, hsum, hkeys, Finset.sum_congr rfl fun m _ => hpoints m, Finset.sum_add_distrib,
    Finset.sum_insert_of_eq_zero_if_notMem hnew, Finset.sum_ite_eq,
    if_pos (Finset.mem_insert_self _ _)]

theorem size_saveAll (s : SeriesStore) (xs : List Sample) :
    (PointStore.saveAll s xs).size = s.size + xs.length := by
  induction xs generalizing s with
  | nil => rfl
  | cons x xs ih =>
    rw [PointStore.saveAll, List.foldl_cons]
    refine (ih (s.save x)).trans ?_
    rw [size_save, List.length_cons]
    omega

/-- No sample is lost or held twice. -/
theorem Refines.size_eq (h : Refines s log) : s.size = log.length := by
  have hcount : ∀ m, (s.points m).size = (log.map Sample.measurement).count m := by
    intro m
    obtain ⟨rows, horder, hpoints⟩ := h.points m
    have hlength : (s.points m).size = rows.length := by
      rw [← Array.length_toList, hpoints, List.length_map]
    rw [hlength, horder.perm.length_eq, List.count, List.countP_map, List.countP_eq_length_filter]
    refine congrArg List.length (List.filter_congr fun x _ => ?_)
    exact (beq_eq_decide x.measurement m).symm
  -- Counting by series is counting the log by measurement.
  have hkeys : s.series.keys.Perm (log.map Sample.measurement).dedup := by
    rw [List.perm_ext_iff_of_nodup Std.TreeMap.nodup_keys (List.nodup_dedup _)]
    intro m
    rw [Std.TreeMap.mem_keys, h.mem_series, List.mem_dedup, List.mem_map]
  have hsum := List.sum_map_count_dedup_eq_length (log.map Sample.measurement)
  rw [List.length_map] at hsum
  rw [size_eq_sum, List.map_congr_left fun m _ => hcount m, (hkeys.map _).sum_eq, hsum]

/-- The names of the series come in ascending order of their bytes, and none comes twice. -/
theorem pairwise_utf8_keys (s : SeriesStore) :
    s.series.keys.Pairwise fun a b => Text.utf8 a < Text.utf8 b := by
  refine Std.TreeMap.ordered_keys.imp fun {a b} h => Text.utf8_lt ?_
  exact compareOfLessAndEq_eq_lt.mp h

/-- A store answers from the log of its saves, whatever their times and their order. A range is the
samples of its measurement between its ends in the order of time, each once and unchanged; the
measurements are the names in the log in ascending order of their bytes; and the size is the number
of saves. -/
theorem saveAll_answers (log : List Sample) :
    (∀ m start stop, ∃ rows,
      TimeOrder rows (log.filter fun x => decide
        (x.measurement = m ∧ start ≤ x.timestamp ∧ x.timestamp ≤ stop)) ∧
      List.Forall₂ Point.Shows
        (PointStore.range (PointStore.saveAll SeriesStore.empty log) m start stop) rows) ∧
    ((PointStore.measurements (PointStore.saveAll SeriesStore.empty log)).Pairwise fun a b =>
      Text.utf8 a < Text.utf8 b) ∧
    (∀ m, m ∈ PointStore.measurements (PointStore.saveAll SeriesStore.empty log) ↔
      ∃ x ∈ log, x.measurement = m) ∧
    (PointStore.saveAll SeriesStore.empty log).size = log.length := by
  have h := refines_saveAll log
  refine ⟨fun m start stop => ?_, pairwise_utf8_keys _, fun m => ?_, h.size_eq⟩
  · obtain ⟨rows, horder, hrange⟩ := h.range m start stop
    refine ⟨rows, horder, ?_⟩
    show List.Forall₂ Point.Shows (SeriesStore.range _ m start stop) rows
    rw [hrange, List.forall₂_map_left_iff, List.forall₂_same]
    exact fun x _ => x.shows_point
  · show m ∈ (PointStore.saveAll SeriesStore.empty log).series.keys ↔ _
    rw [Std.TreeMap.mem_keys]
    exact h.mem_series m

end SeriesStore
end TimeSeries
