/-
# TimeSeries.Proofs.Query.Grouped — reduced rows are the groups of the entries.

`Grouped` says what it means for rows to reduce entries bucket by bucket and name by name. It speaks
of entries and rows alone, so what follows from it (no two rows are of one time and label, and every
entry with a bucket is reduced once) needs nothing of how the buckets were filled.
-/
import TimeSeries.Proofs.Query.Bucket
import TimeSeries.Proofs.Text.ByteOrder

namespace TimeSeries.Query

variable {f : Aggregation} {selector : Selector} {width : Nanos} {es rows : List Row}
  {groups : List (Nanos × String)}

/-! ## Groups and their rows -/

/-- A row reduces one group: it stands at the start of the bucket, and its value is the reduction of
the values of the group. With all fields selected, its label also tells the field. -/
structure IsReduction (f : Aggregation) (selector : Selector) (width : Nanos) (es : List Row)
    (g : Nanos × String) (row : Row) : Prop where
  timestamp : row.timestamp = g.1
  label : row.label = if selector = .all then f.name ++ "_" ++ g.2 else f.name
  value : f.apply (groupValues width es g) = some row.value

/-- The rows reduce the groups of the entries, in ascending order of bucket and name. There is a
group for a bucket and a name exactly when the name is selected and some entry belongs there. -/
structure Grouped (f : Aggregation) (selector : Selector) (width : Nanos) (es : List Row)
    (groups : List (Nanos × String)) (rows : List Row) : Prop where
  ascending : groups.Pairwise fun g h => g.1 < h.1 ∨ g.1 = h.1 ∧ Text.utf8 g.2 < Text.utf8 h.2
  mem_groups : ∀ b n, (b, n) ∈ groups ↔
    selector.matches? n = true ∧ ∃ e ∈ es, e.label = n ∧ InBucket width b e.timestamp
  reduced : List.Forall₂ (IsReduction f selector width es) groups rows

theorem Grouped.nodup (h : Grouped f selector width es groups rows) : groups.Nodup := by
  refine h.ascending.imp ?_
  rintro g h (hlt | ⟨-, hlt⟩) rfl
  · exact absurd hlt (Int.lt_irrefl _)
  · exact absurd hlt (List.lt_irrefl _)

/-! ## No two rows alike -/

theorem map_timestamp_label (h : List.Forall₂ (IsReduction f selector width es) groups rows) :
    rows.map (fun row => (row.timestamp, row.label)) = groups.map fun g =>
      (g.1, if selector = .all then f.name ++ "_" ++ g.2 else f.name) := by
  induction h with
  | nil => rfl
  | cons hrow _ ih => rw [List.map_cons, List.map_cons, ih, hrow.timestamp, hrow.label]

/-- Where the label does not tell the field, there is only one field. -/
theorem Grouped.nodup_timestamp_label (h : Grouped f selector width es groups rows) :
    (rows.map fun row => (row.timestamp, row.label)).Nodup := by
  rw [map_timestamp_label h.reduced]
  refine h.nodup.map_on ?_
  rintro ⟨b, n⟩ hg ⟨b', n'⟩ hg' heq
  obtain ⟨hb, hlabel⟩ := Prod.mk.inj heq
  have hmatch := ((h.mem_groups b n).mp hg).1
  have hmatch' := ((h.mem_groups b' n').mp hg').1
  refine Prod.ext hb ?_
  cases selector with
  | all =>
    have hlist := congrArg String.toList hlabel
    simp only [if_true, String.toList_append] at hlist
    exact String.toList_inj.mp (List.append_cancel_left hlist)
  | field name =>
    have hn : name = n := beq_iff_eq.mp hmatch
    have hn' : name = n' := beq_iff_eq.mp hmatch'
    exact hn.symm.trans hn'

/-! ## Every entry once -/

/-- Among distinct groups an entry belongs to one at most. -/
theorem flatMap_singleton_of_unique {α β : Type} {l : List α} {p : α → Prop} [DecidablePred p]
    (hl : l.Nodup) (hunique : ∀ a b, p a → p b → a = b) (e : β) :
    (l.flatMap fun a => if p a then [e] else []) = if ∃ a ∈ l, p a then [e] else [] := by
  induction l with
  | nil => simp
  | cons a l ih =>
    obtain ⟨ha, hl⟩ := List.nodup_cons.mp hl
    rw [List.flatMap_cons, ih hl]
    by_cases hp : p a
    · have hrest : ¬ ∃ b ∈ l, p b := by
        rintro ⟨b, hb, hpb⟩
        exact ha (hunique a b hp hpb ▸ hb)
      have hsome : ∃ b ∈ a :: l, p b := ⟨a, List.mem_cons_self, hp⟩
      rw [if_pos hp, if_neg hrest, if_pos hsome, List.append_nil]
    · simp [hp]

/-- Group after group, distinct groups hold the entries that belong to any of them. -/
theorem flatMap_groupEntries_perm (hgroups : groups.Nodup) (es : List Row) :
    (groups.flatMap (groupEntries width es)).Perm (es.filter fun e =>
      decide (∃ g ∈ groups, InBucket width g.1 e.timestamp ∧ e.label = g.2)) := by
  induction es with
  | nil => simp [groupEntries]
  | cons e es ih =>
    have hcons : groupEntries width (e :: es) = fun g =>
        (if InBucket width g.1 e.timestamp ∧ e.label = g.2 then [e] else []) ++
          groupEntries width es g := by
      funext g
      by_cases hg : InBucket width g.1 e.timestamp ∧ e.label = g.2 <;> simp [groupEntries, hg]
    have hunique : ∀ g h : Nanos × String, (InBucket width g.1 e.timestamp ∧ e.label = g.2) →
        (InBucket width h.1 e.timestamp ∧ e.label = h.2) → g = h := by
      rintro g h ⟨hg, hg'⟩ ⟨hh, hh'⟩
      exact Prod.ext (hg.unique hh) (hg'.symm.trans hh')
    rw [hcons]
    refine (List.flatMap_append_perm _ _ _).symm.trans ?_
    rw [flatMap_singleton_of_unique hgroups hunique, List.filter_cons]
    by_cases he : ∃ g ∈ groups, InBucket width g.1 e.timestamp ∧ e.label = g.2
    · simp only [he, if_true, decide_true, List.singleton_append]
      exact ih.cons e
    · simp only [he, if_false, decide_false, List.nil_append]
      exact ih

/-- The groups hold every selected entry once, apart from those whose bucket starts too early. -/
theorem Grouped.perm_entries (hw : 0 < width.toInt) (h : Grouped f selector width es groups rows) :
    (groups.flatMap (groupEntries width es)).Perm (es.filter fun e =>
      selector.matches? e.label && decide (HasBucket width e.timestamp)) := by
  have hfilter : ∀ e ∈ es,
      decide (∃ g ∈ groups, InBucket width g.1 e.timestamp ∧ e.label = g.2) =
        (selector.matches? e.label && decide (HasBucket width e.timestamp)) := by
    intro e he
    rw [Bool.eq_iff_iff, decide_eq_true_eq, Bool.and_eq_true, decide_eq_true_eq, hasBucket_iff hw]
    constructor
    · rintro ⟨⟨b, n⟩, hg, hb, rfl⟩
      exact ⟨((h.mem_groups b _).mp hg).1, b, hb⟩
    · rintro ⟨hm, b, hb⟩
      exact ⟨(b, e.label), (h.mem_groups b _).mpr ⟨hm, e, he, rfl, hb⟩, hb, rfl⟩
  rw [← List.filter_congr hfilter]
  exact flatMap_groupEntries_perm h.nodup es

/-! ## The rows of buckets -/

theorem isSome_apply {xs : List Float} (h : xs ≠ []) : (f.apply xs).isSome = true := by
  simp [Aggregation.apply, h]

/-- The keys of a map come in ascending order of start and name. -/
theorem pairwise_keys (m : Buckets) : m.keys.Pairwise fun g h =>
    g.1 < h.1 ∨ g.1 = h.1 ∧ Text.utf8 g.2 < Text.utf8 h.2 := by
  refine Std.TreeMap.ordered_keys.imp fun {g h} hlt => ?_
  rcases Ordering.then_eq_lt.mp hlt with hlt | ⟨heq, hlt⟩
  · exact .inl (Int.compare_eq_lt.mp hlt)
  · exact .inr ⟨Std.LawfulEqOrd.eq_of_compare heq,
      Text.utf8_lt (compareOfLessAndEq_eq_lt.mp hlt)⟩

/-- A bucket that is not empty has one row. -/
theorem forall₂_isReduction {l : List ((Nanos × String) × List Float)}
    (h : ∀ entry ∈ l, entry.2 = groupValues width es entry.1 ∧ entry.2 ≠ []) :
    List.Forall₂ (fun entry row => IsReduction f selector width es entry.1 row) l
      (l.filterMap fun ((start, name), values) =>
        (f.apply values).map fun value => ⟨start, bucketLabel selector f name, value⟩) := by
  induction l with
  | nil => exact .nil
  | cons entry l ih =>
    obtain ⟨⟨b, n⟩, values⟩ := entry
    obtain ⟨⟨hvalues, hne⟩, hrest⟩ := List.forall_mem_cons.mp h
    obtain ⟨x, hx⟩ := Option.isSome_iff_exists.mp (isSome_apply (f := f) hne)
    have hx : f.apply values = some x := hx
    simp only [List.filterMap_cons, hx, Option.map_some]
    refine .cons ⟨rfl, ?_, ?_⟩ (ih hrest)
    · cases selector <;> rfl
    · rw [← hvalues]
      exact hx

/-- Rows of buckets that hold entries are the groups of these entries. -/
theorem Buckets.Collects.grouped {m : Buckets} (h : Collects selector width m es) :
    Grouped f selector width es m.keys (m.toList.filterMap fun ((start, name), values) =>
      (f.apply values).map fun value => ⟨start, bucketLabel selector f name, value⟩) where
  ascending := pairwise_keys m
  mem_groups b n := by
    rw [Std.TreeMap.mem_keys, Std.TreeMap.mem_iff_isSome_getElem?, h (b, n)]
    have hne : groupEntries width es (b, n) ≠ [] ↔
        ∃ e ∈ es, e.label = n ∧ InBucket width b e.timestamp := by
      rw [Ne, List.eq_nil_iff_forall_not_mem, not_forall_not]
      simp only [mem_groupEntries, and_comm]
    simp only [← hne]
    split
    · rename_i hmem
      simp [hmem]
    · rename_i hmem
      simpa using hmem
  reduced := by
    rw [← Std.TreeMap.map_fst_toList_eq_keys, List.forall₂_map_left_iff]
    apply forall₂_isReduction
    rintro ⟨g, values⟩ hg
    have hget := Std.TreeMap.mem_toList_iff_getElem?_eq_some.mp hg
    rw [h g] at hget
    split at hget
    · rename_i hmem
      obtain rfl := Option.some.inj hget
      exact ⟨rfl, by simpa [groupValues] using hmem.2⟩
    · cases hget

theorem grouped_bucketRows (hw : 0 < width.toInt) (ps : List Point) :
    Grouped f selector width (ps.flatMap (rawRows .all)) (Buckets.ofPoints selector width ps).keys
      (bucketRows f selector width ps) :=
  (Buckets.collects_ofPoints hw ps).grouped

/-- A selection with a reduction answers with the groups of the values of its points, whatever the
order of the points. No two rows have both time and label in common, and every selected value goes
into one row, unless its bucket starts before all times that can be told. -/
theorem rows_eq_groups {s : Select} (hf : s.aggregation = some f)
    (hwidth : s.bucketWidth = some width) (hpos : 0 < width.toInt) (ps : List Point) :
    ∃ groups rows, s.rows ps = .ok rows ∧
      Grouped f s.selector width (ps.flatMap (rawRows .all)) groups rows ∧
      (rows.map fun row => (row.timestamp, row.label)).Nodup ∧
      (groups.flatMap (groupEntries width (ps.flatMap (rawRows .all)))).Perm
        ((ps.flatMap (rawRows .all)).filter fun e =>
          s.selector.matches? e.label && decide (HasBucket width e.timestamp)) := by
  have hgrouped : Grouped f s.selector width _ _ _ := grouped_bucketRows hpos ps
  refine ⟨_, _, ?_, hgrouped, hgrouped.nodup_timestamp_label, hgrouped.perm_entries hpos⟩
  simp only [Select.rows, hf, hwidth, Option.getD_some]
  rw [if_neg (by omega)]

/-- The greatest values of all fields, minute by minute. -/
def maxByMinute : Select :=
  ((Select.upTo "cpu" .all .last).aggregate .max).withWidth (some .minute)

/-- Points of two fields: after a minute, at time zero, and just before it. -/
def threeMinutes : List Point :=
  [Sample.point ⟨"cpu", "load", 3.0, [], .minute⟩, Sample.point ⟨"cpu", "used", 1.0, [], .zero⟩,
    Sample.point ⟨"cpu", "load", 2.0, [], ⟨-1, by decide, by decide⟩⟩]

theorem rows_eq_groups_maxByMinute :
    maxByMinute.aggregation = some .max ∧ maxByMinute.bucketWidth = some .minute ∧
      0 < Nanos.minute.toInt ∧
      ∃ groups rows, maxByMinute.rows threeMinutes = .ok rows ∧
        Grouped .max .all .minute (threeMinutes.flatMap (rawRows .all)) groups rows ∧
        (rows.map fun row => (row.timestamp, row.label)).Nodup ∧
        (groups.flatMap (groupEntries .minute (threeMinutes.flatMap (rawRows .all)))).Perm
          ((threeMinutes.flatMap (rawRows .all)).filter fun e =>
            Selector.all.matches? e.label && decide (HasBucket .minute e.timestamp)) :=
  ⟨rfl, rfl, by decide, rows_eq_groups rfl rfl (by decide) threeMinutes⟩

end TimeSeries.Query
