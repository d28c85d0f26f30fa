/-
# TimeSeries.Proofs.Query.Columns — the columns of an answer.

The first column is `time`, and each label of the rows that is no column yet adds one, so the
columns are what is left of `time` and the labels without repetition (`columns_eq_eraseDups`). A
field may be named `time` as well. Its label has no column of its own then, and there are only as
many columns as labels (`columns_of_answer`).
-/
import TimeSeries.Ingest
import TimeSeries.Proofs.Query.Session
import TimeSeries.Proofs.Record.Built
import TimeSeries.Store.Series

namespace TimeSeries.Query

variable {l cs cols : List String} {rows : List Row} {ps : List Point} {selector : Selector}
  {s : Select} {name m : String}

/-! ## Lists without repetition -/

/-- A list has each element of another once, in the order in which they first appear there. -/
structure ListsOnce (l cs : List String) : Prop where
  nodup : cs.Nodup
  mem_iff : ∀ name, name ∈ cs ↔ name ∈ l
  ordered : cs.Pairwise fun a b => l.idxOf a < l.idxOf b

theorem listsOnce_eraseDups (l : List String) : ListsOnce l l.eraseDups where
  nodup := (pairwise_idxOf_eraseDups l).imp fun hlt heq => absurd hlt (by rw [heq]; omega)
  mem_iff _ := List.mem_eraseDups
  ordered := pairwise_idxOf_eraseDups l

/-- There is one such list only. -/
theorem listsOnce_iff : ListsOnce l cs ↔ cs = l.eraseDups := by
  constructor
  · intro h
    have h' := listsOnce_eraseDups l
    have hperm : cs.Perm l.eraseDups :=
      (List.perm_ext_iff_of_nodup h.nodup h'.nodup).mpr fun name => by
        rw [h.mem_iff, h'.mem_iff]
    refine hperm.eq_of_pairwise (fun a b _ _ hab hba => ?_) h.ordered h'.ordered
    omega
  · rintro rfl
    exact listsOnce_eraseDups l

theorem ListsOnce.length_eq (h : ListsOnce l cs) : cs.length = l.toFinset.card := by
  rw [← List.toFinset_card_of_nodup h.nodup]
  congr 1
  ext name
  rw [List.mem_toFinset, List.mem_toFinset, h.mem_iff]

/-! ## Columns -/

theorem columns_append_singleton (rows : List Row) (r : Row) :
    columns (rows ++ [r]) =
      if r.label ∈ columns rows then columns rows else columns rows ++ [r.label] := by
  rw [columns, List.foldl_append]
  rfl

theorem columns_eq_eraseDups (rows : List Row) :
    columns rows = ("time" :: rows.map Row.label).eraseDups := by
  -- One row more adds its label behind the columns, unless the label is one of them.
  induction rows using List.reverseRecOn with
  | nil => rfl
  | append_singleton rows r ih =>
    rw [columns_append_singleton, ih, List.map_append, ← List.cons_append, List.map_singleton,
      eraseDups_append_singleton]
    simp only [List.mem_eraseDups]

/-- The labels that are not `time` are the columns behind the first. -/
theorem columns_eq_cons (rows : List Row) :
    columns rows = "time" :: ((rows.map Row.label).filter (· ≠ "time")).eraseDups := by
  rw [columns_eq_eraseDups, List.eraseDups_cons]
  congr 2
  refine List.filter_congr fun name _ => ?_
  rw [decide_not, Bool.beq_eq_decide_eq]

/-! ## Labels -/

theorem mem_labels_rawRows {p : Point} : name ∈ (rawRows selector p).map Row.label ↔
    selector.matches? name = true ∧ (p.value? name).isSome = true := by
  cases selector with
  | all =>
    have hlabels : (rawRows .all p).map Row.label = p.fields.keys := by
      rw [rawRows, List.map_map, ← Std.TreeMap.map_fst_toList_eq_keys]
      rfl
    rw [hlabels, Std.TreeMap.mem_keys, Std.TreeMap.mem_iff_isSome_getElem?, Point.value?]
    simp [Selector.matches?]
  | field field =>
    rw [rawRows, Selector.matches?, beq_iff_eq]
    constructor
    · intro h
      obtain ⟨row, hrow, rfl⟩ := List.mem_map.mp h
      obtain ⟨value, hvalue, rfl⟩ := Option.map_eq_some_iff.mp (Option.mem_toList.mp hrow)
      exact ⟨rfl, Option.isSome_of_eq_some hvalue⟩
    · rintro ⟨rfl, h⟩
      obtain ⟨value, hvalue⟩ := Option.isSome_iff_exists.mp h
      simp [hvalue]

theorem bucketLabel_ne_time (selector : Selector) (f : Aggregation) (name : String) :
    bucketLabel selector f name ≠ "time" := by
  have hf : f.name ≠ "time" := by cases f <;> decide
  have hf' : f.name ++ "_" ++ name ≠ "time" := by
    intro h
    have h := congrArg String.toList h
    rw [String.toList_append, String.toList_append] at h
    cases f <;> simp [Aggregation.name] at h
  cases selector with
  | all => exact hf'
  | field => exact hf

/-- The labels of a reduction name it, so the rows that have the label `time` are values of a field
of that name. -/
theorem time_mem_labels_iff (h : s.rows ps = .ok rows) : "time" ∈ rows.map Row.label ↔
    s.aggregation = none ∧ s.selector.matches? "time" = true ∧
      ∃ p ∈ ps, (p.value? "time").isSome = true := by
  rw [Select.rows] at h
  cases hf : s.aggregation with
  | none =>
    rw [hf] at h
    obtain rfl := Except.ok.inj h
    rw [List.map_flatMap, List.mem_flatMap]
    simp only [mem_labels_rawRows, true_and]
    constructor
    · rintro ⟨p, hp, hmatch, hvalue⟩
      exact ⟨hmatch, p, hp, hvalue⟩
    · rintro ⟨hmatch, p, hp, hvalue⟩
      exact ⟨p, hp, hmatch, hvalue⟩
  | some f =>
    rw [hf] at h
    dsimp only at h
    split at h
    · cases h
    · obtain rfl := Except.ok.inj h
      refine iff_of_false ?_ (by simp)
      intro hmem
      obtain ⟨row, hrow, hlabel⟩ := List.mem_map.mp hmem
      obtain ⟨⟨⟨start, name⟩, values⟩, -, hreduced⟩ := List.mem_filterMap.mp hrow
      obtain ⟨value, -, rfl⟩ := Option.map_eq_some_iff.mp hreduced
      exact bucketLabel_ne_time s.selector f name hlabel

/-! ## Answers -/

/-- There are as many columns as labels, and one more unless a label is `time`. -/
theorem length_columns (rows : List Row) : (columns rows).length =
    (rows.map Row.label).toFinset.card + if "time" ∈ rows.map Row.label then 0 else 1 := by
  rw [columns_eq_cons, List.length_cons, (listsOnce_eraseDups _).length_eq]
  generalize rows.map Row.label = labels
  have herase : (labels.filter (· ≠ "time")).toFinset = labels.toFinset.erase "time" := by
    ext name
    simp [and_comm]
  rw [herase]
  split
  · rename_i hmem
    exact Finset.card_erase_add_one (List.mem_toFinset.mpr hmem)
  · rename_i hmem
    rw [Finset.erase_eq_of_notMem (mt List.mem_toFinset.mp hmem)]

/-- Each label has a column behind the first exactly when none of them is `time`. -/
theorem listsOnce_labels_iff : ListsOnce l (l.filter (· ≠ "time")).eraseDups ↔ "time" ∉ l := by
  constructor
  · intro h hmem
    have hfilter := List.mem_eraseDups.mp ((h.mem_iff "time").mpr hmem)
    simp at hfilter
  · intro hmem
    have hall : l.filter (· ≠ "time") = l := by
      refine List.filter_eq_self.mpr fun name hname => ?_
      rw [decide_eq_true_iff]
      rintro rfl
      exact hmem hname
    rw [hall]
    exact listsOnce_eraseDups l

theorem select_eq_ok {σ : Type} [PointStore σ] {store : σ}
    (h : Session.select store s = .ok (.rows m cols rows)) :
    cols = columns rows ∧
      s.rows (PointStore.range store s.measurement s.start s.stop) = .ok rows := by
  rw [Session.select] at h
  split at h
  · cases h
  · rename_i rows' hrows
    obtain ⟨-, rfl, rfl⟩ := Answer.rows.inj (Except.ok.inj h)
    exact ⟨rfl, hrows⟩

/-- The columns of an answer are `time`, and then each label of its rows but `time` once, in the
order in which they first appear: there is one such list. So every label has a column of its own
behind the first exactly when no label is `time`; such a label is that of a field which the
selection takes as it is. -/
theorem columns_of_answer {σ : Type} [PointStore σ] {store : σ} {session : Session}
    (h : (session.execute store (.select s)).1 = .ok (.rows m cols rows)) :
    ∃ cs, cols = "time" :: cs ∧
      (∀ cs', ListsOnce ((rows.map Row.label).filter (· ≠ "time")) cs' ↔ cs' = cs) ∧
      (ListsOnce (rows.map Row.label) cs ↔ "time" ∉ rows.map Row.label) ∧
      cols.length =
        (rows.map Row.label).toFinset.card + (if "time" ∈ rows.map Row.label then 0 else 1) ∧
      ("time" ∈ rows.map Row.label ↔ s.aggregation = none ∧ s.selector.matches? "time" = true ∧
        ∃ p ∈ PointStore.range store s.measurement s.start s.stop,
          (p.value? "time").isSome = true) := by
  obtain ⟨rfl, hrows⟩ := select_eq_ok h
  exact ⟨_, columns_eq_cons rows, fun _ => listsOnce_iff, listsOnce_labels_iff,
    length_columns rows, time_mem_labels_iff hrows⟩

/-- All fields of one measurement. -/
def everything : Select := .upTo "cpu" .all .minute

/-- The points of two lines, of which the second has a field named `time`. -/
def timed : SeriesStore :=
  (Ingest.run .abort (fun _ => .minute) "cpu temp=3,load=1 5\ncpu load=2,time=1 6" .empty).1

/-- The rows of all their fields. -/
def timedRows : List Row :=
  (PointStore.range timed "cpu" .zero .minute).flatMap (rawRows .all)

theorem labels_timedRows : timedRows.map Row.label = ["temp", "load", "load", "time"] := by
  decide +kernel

theorem execute_everything (session : Session) :
    (session.execute timed (.select everything)).1 =
      .ok (.rows "cpu" (columns timedRows) timedRows) := rfl

theorem columns_of_answer_timed :
    ((Session.start "db").execute timed (.select everything)).1 =
        .ok (.rows "cpu" (columns timedRows) timedRows) ∧
      ∃ cs, columns timedRows = "time" :: cs ∧ ListsOnce ["temp", "load", "load"] cs := by
  have hanswer := execute_everything (.start "db")
  obtain ⟨cs, hcols, hlists, -⟩ := columns_of_answer hanswer
  have hlists := (hlists cs).mpr rfl
  rw [labels_timedRows] at hlists
  exact ⟨hanswer, cs, hcols, hlists⟩

/-- A label under which no column stands. -/
theorem not_listsOnce_labels :
    ¬ ∀ (body query : String) (now : Nanos) (session : Session) (m : String) (cols : List String)
      (rows : List Row),
      (session.executeText (Ingest.run .abort (fun _ => now) body SeriesStore.empty).1 query
        now).1 = .ok (.rows m cols rows) →
          ∃ cs, cols = "time" :: cs ∧ ListsOnce (rows.map Row.label) cs := by
  intro h
  have hread : interpret "SELECT * FROM cpu" .minute = .ok (.select everything) := by
    decide +kernel
  have hanswer := execute_everything (.start "db")
  rw [← Session.executeText_eq_execute hread] at hanswer
  obtain ⟨cs, hcols, hlists⟩ := h _ _ _ _ _ _ _ hanswer
  obtain rfl := (List.cons.inj (hcols.symm.trans (columns_eq_cons timedRows))).2
  rw [listsOnce_labels_iff, labels_timedRows] at hlists
  exact hlists (by decide)

end TimeSeries.Query
