/-
# TimeSeries.Proofs.Query.Split — a selection in two parts.

A time range may be cut in two, one part that ends just before a time and one that starts at it. Raw
rows of the whole are the rows of the first part and then those of the second. So are the rows of
buckets if the cut lies at the start of a bucket: no bucket has entries on both sides, so the groups
of either part are groups of the whole (`Grouped.append`), and there is only one way to have groups
(`Grouped.unique`).
-/
import TimeSeries.Proofs.Query.Grouped
import TimeSeries.Proofs.Store.Series
import TimeSeries.Query.Session

namespace TimeSeries

/-! ## Points before a time and from it on -/

/-- In the order of time, what is between two ends is what comes before a time between them and then
what does not. -/
theorem SeriesStore.Ascending.filter_split {l : List Point} (h : Ascending l)
    {start before t stop : Nanos} (hbefore : before.toInt = t.toInt - 1) (hstart : start < t)
    (hstop : t ≤ stop) :
    l.filter (fun p => decide (start ≤ p.timestamp) && decide (p.timestamp ≤ stop)) =
      l.filter (fun p => decide (start ≤ p.timestamp) && decide (p.timestamp ≤ before)) ++
        l.filter (fun p => decide (t ≤ p.timestamp) && decide (p.timestamp ≤ stop)) := by
  have hlt : ∀ {a b : Nanos}, a < b ↔ a.toInt < b.toInt := Iff.rfl
  have hrange : Ascending
      (l.filter fun p => decide (start ≤ p.timestamp) && decide (p.timestamp ≤ stop)) := h.filter _
  have hpass := hrange.passFirst_lt t
  conv_lhs => rw [← List.take_append_drop (List.countP _ _) (l.filter _), hpass.take_countP,
    hpass.drop_countP, List.filter_filter, List.filter_filter]
  congr 1
  · refine List.filter_congr fun p _ => ?_
    rw [Bool.eq_iff_iff]
    simp only [Bool.and_eq_true, decide_eq_true_eq, Nanos.le_iff, hlt] at hstart hstop ⊢
    omega
  · refine List.filter_congr fun p _ => ?_
    rw [Bool.eq_iff_iff]
    simp only [Bool.and_eq_true, Bool.not_eq_true', decide_eq_true_eq, decide_eq_false_iff_not,
      Nanos.le_iff, hlt] at hstart hstop ⊢
    omega

/-- A range may be cut in two: what is before a time between its ends, and what is not. -/
theorem SeriesStore.Refines.range_split {store : SeriesStore} {log : List Sample}
    (h : store.Refines log) (m : String) {start before t stop : Nanos}
    (hbefore : before.toInt = t.toInt - 1) (hstart : start < t) (hstop : t ≤ stop) :
    store.range m start stop = store.range m start before ++ store.range m t stop ∧
      (∀ p ∈ store.range m start before, p.timestamp < t) ∧
      ∀ p ∈ store.range m t stop, t ≤ p.timestamp := by
  rw [h.range_eq_filter, h.range_eq_filter, h.range_eq_filter]
  refine ⟨(h.ascending m).filter_split hbefore hstart hstop, fun p hp => ?_, fun p hp => ?_⟩
  · obtain ⟨-, hle⟩ := Bool.and_eq_true_iff.mp (List.mem_filter.mp hp).2
    have hle : p.timestamp.toInt ≤ before.toInt := of_decide_eq_true hle
    show p.timestamp.toInt < t.toInt
    omega
  · exact of_decide_eq_true (Bool.and_eq_true_iff.mp (List.mem_filter.mp hp).2).1

namespace Query

variable {f : Aggregation} {selector : Selector} {width t : Nanos} {es es' rows rows' : List Row}
  {groups groups' : List (Nanos × String)} {ps ps' : List Point}

/-! ## There is one way to have groups -/

theorem isReduction_rightUnique : Relator.RightUnique (IsReduction f selector width es) := by
  rintro g ⟨_, _, _⟩ ⟨_, _, _⟩ ⟨rfl, rfl, hvalue⟩ ⟨rfl, rfl, hvalue'⟩
  exact congrArg (Row.mk _ _) (Option.some.inj (hvalue.symm.trans hvalue'))

/-- Groups in ascending order are known by which groups there are, and each has one row. -/
theorem Grouped.unique (h : Grouped f selector width es groups rows)
    (h' : Grouped f selector width es groups' rows') : rows = rows' := by
  have hperm : groups.Perm groups' := by
    rw [List.perm_ext_iff_of_nodup h.nodup h'.nodup]
    rintro ⟨b, n⟩
    rw [h.mem_groups, h'.mem_groups]
  obtain rfl : groups = groups' := by
    refine hperm.eq_of_pairwise (fun g g' _ _ hlt hlt' => ?_) h.ascending h'.ascending
    rcases hlt with hlt | ⟨heq, hlt⟩
    · rcases hlt' with hlt' | ⟨heq', -⟩
      · exact absurd hlt' (Int.lt_asymm hlt)
      · rw [heq'] at hlt
        exact absurd hlt (Int.lt_irrefl _)
    · rcases hlt' with hlt' | ⟨-, hlt'⟩
      · rw [heq] at hlt'
        exact absurd hlt' (Int.lt_irrefl _)
      · exact absurd (List.lt_trans hlt hlt') (List.lt_irrefl _)
  exact List.right_unique_forall₂' isReduction_rightUnique h.reduced h'.reduced

/-! ## Buckets on either side of a cut -/

theorem groupValues_append (width : Nanos) (es es' : List Row) (g : Nanos × String) :
    groupValues width (es ++ es') g = groupValues width es g ++ groupValues width es' g := by
  rw [groupValues, groupEntries, List.filter_append, List.map_append]
  rfl

theorem groupValues_eq_nil {g : Nanos × String}
    (h : ∀ e ∈ es, ¬ InBucket width g.1 e.timestamp) : groupValues width es g = [] := by
  rw [groupValues, List.map_eq_nil_iff, List.eq_nil_iff_forall_not_mem]
  intro e he
  obtain ⟨hmem, hin, -⟩ := mem_groupEntries.mp he
  exact h e hmem hin

theorem forall₂_imp_of_mem {α β : Type} {R S : α → β → Prop} {as : List α} {bs : List β}
    (h : List.Forall₂ R as bs) (himp : ∀ a ∈ as, ∀ b, R a b → S a b) : List.Forall₂ S as bs := by
  induction h with
  | nil => exact .nil
  | cons hab _ ih =>
    obtain ⟨ha, has⟩ := List.forall_mem_cons.mp himp
    exact .cons (ha _ hab) (ih has)

/-- Rows depend on the values of their groups alone. -/
theorem forall₂_isReduction_congr (h : List.Forall₂ (IsReduction f selector width es) groups rows)
    (hvalues : ∀ g ∈ groups, groupValues width es' g = groupValues width es g) :
    List.Forall₂ (IsReduction f selector width es') groups rows := by
  refine forall₂_imp_of_mem h fun g hg row hrow => ⟨hrow.timestamp, hrow.label, ?_⟩
  rw [hvalues g hg]
  exact hrow.value

/-- The groups before a multiple of the width and those from it on are the groups of all. -/
theorem Grouped.append (hw : 0 < width.toInt) (ht : width.toInt ∣ t.toInt)
    (h : Grouped f selector width es groups rows) (h' : Grouped f selector width es' groups' rows')
    (hearly : ∀ e ∈ es, e.timestamp < t) (hlate : ∀ e ∈ es', t ≤ e.timestamp) :
    Grouped f selector width (es ++ es') (groups ++ groups') (rows ++ rows') := by
  have hgroups : ∀ g ∈ groups, g.1.toInt < t.toInt := by
    rintro ⟨b, n⟩ hg
    obtain ⟨-, e, he, -, hin⟩ := (h.mem_groups b n).mp hg
    exact Int.lt_of_le_of_lt (hin.le hw) (hearly e he)
  have hgroups' : ∀ g ∈ groups', t.toInt ≤ g.1.toInt := by
    rintro ⟨b, n⟩ hg
    obtain ⟨-, e, he, -, hin⟩ := (h'.mem_groups b n).mp hg
    exact hin.le_start hw ht (hlate e he)
  refine ⟨?_, fun b n => ?_, ?_⟩
  · rw [List.pairwise_append]
    refine ⟨h.ascending, h'.ascending, fun g hg g' hg' => .inl ?_⟩
    exact Int.lt_of_lt_of_le (hgroups g hg) (hgroups' g' hg')
  · rw [List.mem_append, h.mem_groups, h'.mem_groups, ← and_or_left]
    simp only [List.mem_append, or_and_right, exists_or]
  · refine List.rel_append (forall₂_isReduction_congr h.reduced fun g hg => ?_)
      (forall₂_isReduction_congr h'.reduced fun g hg => ?_)
    · have hnone : groupValues width es' g = [] := by
        refine groupValues_eq_nil fun e he hin => ?_
        have hle := hin.le_start hw ht (hlate e he)
        have hlt := hgroups g hg
        omega
      rw [groupValues_append, hnone, List.append_nil]
    · have hnone : groupValues width es g = [] := by
        refine groupValues_eq_nil fun e he hin => ?_
        have hle := hin.le hw
        have hlt : e.timestamp.toInt < t.toInt := hearly e he
        have hge := hgroups' g hg
        omega
      rw [groupValues_append, hnone, List.nil_append]

/-! ## Rows on either side of a cut -/

theorem timestamp_of_mem_rawRows {p : Point} {e : Row} (h : e ∈ rawRows .all p) :
    e.timestamp = p.timestamp := by
  obtain ⟨field, -, rfl⟩ := List.mem_map.mp h
  rfl

theorem bucketRows_append (hw : 0 < width.toInt) (ht : width.toInt ∣ t.toInt)
    (hearly : ∀ p ∈ ps, p.timestamp < t) (hlate : ∀ p ∈ ps', t ≤ p.timestamp) :
    bucketRows f selector width (ps ++ ps') =
      bucketRows f selector width ps ++ bucketRows f selector width ps' := by
  have hwhole : Grouped f selector width _ _ _ := grouped_bucketRows hw (ps ++ ps')
  rw [List.flatMap_append] at hwhole
  refine hwhole.unique ((grouped_bucketRows hw ps).append hw ht (grouped_bucketRows hw ps') ?_ ?_)
  · intro e he
    obtain ⟨p, hp, he⟩ := List.mem_flatMap.mp he
    rw [timestamp_of_mem_rawRows he]
    exact hearly p hp
  · intro e he
    obtain ⟨p, hp, he⟩ := List.mem_flatMap.mp he
    rw [timestamp_of_mem_rawRows he]
    exact hlate p hp

/-- A selection of early points and late ones, if it reduces them, reduces them apart. -/
theorem Select.rows_append {s : Select} (hearly : ∀ p ∈ ps, p.timestamp < t)
    (hlate : ∀ p ∈ ps', t ≤ p.timestamp)
    (hwidth : ∀ f, s.aggregation = some f → 0 < (s.bucketWidth.getD defaultWidth).toInt ∧
      (s.bucketWidth.getD defaultWidth).toInt ∣ t.toInt) :
    ∃ early late, s.rows ps = .ok early ∧ s.rows ps' = .ok late ∧
      s.rows (ps ++ ps') = .ok (early ++ late) := by
  unfold Select.rows
  cases hf : s.aggregation with
  | none => exact ⟨_, _, rfl, rfl, congrArg Except.ok List.flatMap_append⟩
  | some f =>
    obtain ⟨hpos, hdvd⟩ := hwidth f hf
    have hvalid : ¬ (s.bucketWidth.getD defaultWidth).toInt ≤ 0 := Int.not_le.mpr hpos
    refine ⟨_, _, if_neg hvalid, if_neg hvalid, (if_neg hvalid).trans ?_⟩
    exact congrArg Except.ok (bucketRows_append hpos hdvd hearly hlate)

/-! ## Answers -/

theorem execute_select_of_rows {σ : Type} [PointStore σ] {store : σ} {session : Session}
    {s : Select} (h : s.rows (PointStore.range store s.measurement s.start s.stop) = .ok rows) :
    Session.execute store session (.select s) =
      (.ok (.rows s.measurement (columns rows) rows), session) := by
  rw [Session.execute, Session.select, h]

/-- A selection may be answered in two parts. Where its range is cut at a time after its start, the
rows of the whole are those up to the moment before and then those from that time on. A selection
with a reduction may be cut at the multiples of the width, whether or not all buckets have a start
that can be told. -/
theorem execute_select_split (log : List Sample) (session : Session) (s : Select) (t : Nanos)
    (hstart : s.start < t) (hstop : t ≤ s.stop)
    (hwidth : ∀ f, s.aggregation = some f → 0 < (s.bucketWidth.getD defaultWidth).toInt ∧
      (s.bucketWidth.getD defaultWidth).toInt ∣ t.toInt) :
    ∃ (before : Nanos) (early late : List Row), before.toInt = t.toInt - 1 ∧
      Session.execute (PointStore.saveAll SeriesStore.empty log) session (.select s) =
        (.ok (.rows s.measurement (columns (early ++ late)) (early ++ late)), session) ∧
      Session.execute (PointStore.saveAll SeriesStore.empty log) session
        (.select (s.between s.start before)) =
        (.ok (.rows s.measurement (columns early) early), session) ∧
      Session.execute (PointStore.saveAll SeriesStore.empty log) session
        (.select (s.between t s.stop)) =
        (.ok (.rows s.measurement (columns late) late), session) := by
  have hlt : s.start.toInt < t.toInt := hstart
  have hlower := s.start.lower
  have hupper := t.upper
  obtain ⟨before, hbefore⟩ : ∃ before : Nanos, before.toInt = t.toInt - 1 :=
    ⟨⟨t.toInt - 1, by omega, by omega⟩, rfl⟩
  obtain ⟨hrange, hearly, hlate⟩ :=
    (SeriesStore.refines_saveAll log).range_split s.measurement hbefore hstart hstop
  have hwhole : PointStore.range (PointStore.saveAll SeriesStore.empty log) s.measurement s.start
      s.stop = _ := hrange
  obtain ⟨early, late, hrows, hrows', hall⟩ := Select.rows_append hearly hlate hwidth
  refine ⟨before, early, late, hbefore, execute_select_of_rows ?_,
    execute_select_of_rows (s := s.between s.start before) hrows,
    execute_select_of_rows (s := s.between t s.stop) hrows'⟩
  rw [hwhole, hall]

/-- Samples half a minute before time zero and at it, the later one saved first. -/
def aroundZero : List Sample :=
  [⟨"cpu", "load", 1.0, [], .zero⟩,
    ⟨"cpu", "load", 2.0, [], ⟨-30000000000, by decide, by decide⟩⟩]

/-- All points from a minute before time zero on, minute by minute. -/
def maxAroundZero : Select := maxByMinute.between ⟨-60000000000, by decide, by decide⟩ .last

theorem execute_select_split_aroundZero :
    maxAroundZero.start < .zero ∧ .zero ≤ maxAroundZero.stop ∧
    (∀ f, maxAroundZero.aggregation = some f →
      0 < (maxAroundZero.bucketWidth.getD defaultWidth).toInt ∧
      (maxAroundZero.bucketWidth.getD defaultWidth).toInt ∣ Nanos.zero.toInt) ∧
    ∃ (before : Nanos) (early late : List Row), before.toInt = Nanos.zero.toInt - 1 ∧
      Session.execute (PointStore.saveAll SeriesStore.empty aroundZero) (Session.start "db")
        (.select maxAroundZero) =
        (.ok (.rows "cpu" (columns (early ++ late)) (early ++ late)), Session.start "db") ∧
      Session.execute (PointStore.saveAll SeriesStore.empty aroundZero) (Session.start "db")
        (.select (maxAroundZero.between maxAroundZero.start before)) =
        (.ok (.rows "cpu" (columns early) early), Session.start "db") ∧
      Session.execute (PointStore.saveAll SeriesStore.empty aroundZero) (Session.start "db")
        (.select (maxAroundZero.between .zero maxAroundZero.stop)) =
        (.ok (.rows "cpu" (columns late) late), Session.start "db") := by
  have hstart : maxAroundZero.start < .zero := by decide
  have hstop : .zero ≤ maxAroundZero.stop := by decide
  have hwidth : ∀ f, maxAroundZero.aggregation = some f →
      0 < (maxAroundZero.bucketWidth.getD defaultWidth).toInt ∧
      (maxAroundZero.bucketWidth.getD defaultWidth).toInt ∣ Nanos.zero.toInt :=
    fun _ _ => by decide
  exact ⟨hstart, hstop, hwidth,
    execute_select_split aroundZero (Session.start "db") maxAroundZero .zero hstart hstop hwidth⟩

end Query
end TimeSeries
