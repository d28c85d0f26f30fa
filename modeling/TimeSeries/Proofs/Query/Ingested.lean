/-
# TimeSeries.Proofs.Query.Ingested — from the lines of a text to the rows of a selection.

A text is stored line by line and then a selection is answered. What comes out is said in terms of
the text alone: each line of the selection's measurement gives an entry for every key written on it
(`LineEntries`), and the rows are those entries, chosen by time and name and sorted by time, or the
groups of them (`Answers`). Entries of one time stay in the order of the text.
-/
import TimeSeries.Proofs.Ingest
import TimeSeries.Proofs.Query.Grouped
import TimeSeries.Proofs.Store.Series
import TimeSeries.Query.Session

namespace TimeSeries

/-- A sample as an entry. -/
def Sample.row (x : Sample) : Query.Row := ⟨x.timestamp, x.field, x.value⟩

namespace Query

open Text (trim)
open PointStore (saveAll)

variable {s : Select} {now : Nanos} {es rows : List Row} {xs log : List Sample} {m : String}

/-! ## Entries of lines -/

/-- The line is read, as a record of this measurement. A blank line is never read. -/
def isAbout (measurement : String) (line : List Char) : Bool :=
  match Line.decode (String.ofList line) with
  | .ok r => r.measurement = measurement
  | .error _ => false

/-- The entries of a line. The line is the text of tokens that write a record, fields among them,
and each key of these fields gives one entry: keys come in the order in which they are first
written, the number is that of the value written last, and the time is that of the line, or `now`
if the line has none. -/
def LineEntries (now : Nanos) (line : List Char) (es : List Row) : Prop :=
  ∃ (r : Record) (w : Line.WrittenLine) (pairs : List (String × FieldValue)),
    Line.decode (String.ofList line) = .ok r ∧ w.text = trim line ∧ w.Writes r ∧
      List.Forall₂ Line.WritesField w.fields pairs ∧
      es.map Row.label = (pairs.map Prod.fst).eraseDups ∧
      ∀ e ∈ es, e.timestamp = (if r.timestamp = .zero then now else r.timestamp) ∧
        ∃ v, (pairs.reverse.find? (·.1 == e.label)).map Prod.snd = some v ∧
          v.toFloat? = some e.value

/-! ## Rows of entries -/

/-- The selection takes the entry: its name is selected, and its time lies in the range. -/
def Select.takes (s : Select) (e : Row) : Bool :=
  s.selector.matches? e.label && decide (s.start ≤ e.timestamp) && decide (e.timestamp ≤ s.stop)

/-- The entries that a selection takes, sorted by time; those of one time stay in order. -/
def Select.sorted (s : Select) (es : List Row) : List Row :=
  (es.filter s.takes).mergeSort fun a b => decide (a.timestamp ≤ b.timestamp)

/-- The rows answer the selection from entries: they are the sorted entries, or the groups of them
where the selection has a reduction. -/
def Answers (s : Select) (es rows : List Row) : Prop :=
  match s.aggregation with
  | none => rows = s.sorted es
  | some f => ∃ groups,
      Grouped f s.selector (s.bucketWidth.getD defaultWidth) (s.sorted es) groups rows

/-! ## Samples as entries -/

theorem rawRows_all_point (x : Sample) : rawRows .all x.point = [x.row] := by
  simp only [rawRows, x.shows_point.fields, List.map_cons, List.map_nil]
  rfl

theorem value?_point (x : Sample) (name : String) :
    x.point.value? name = if x.field = name then some x.value else none := by
  simp only [Point.value?, Sample.point, Std.TreeMap.ofList_singleton,
    Std.TreeMap.getElem?_insert, Std.TreeMap.getElem?_emptyc, Std.LawfulEqCmp.compare_eq_iff_eq]

/-- A point of one sample has one row at most. -/
theorem rawRows_point (selector : Selector) (x : Sample) :
    rawRows selector x.point = if selector.matches? x.field then [x.row] else [] := by
  cases selector with
  | all => exact rawRows_all_point x
  | field name =>
    by_cases hname : x.field = name
    · subst hname
      simp only [rawRows, value?_point, Selector.matches?, if_true, Option.map_some,
        Option.toList_some, BEq.rfl]
      rfl
    · simp [rawRows, value?_point, Selector.matches?, hname, Ne.symm hname]

theorem flatMap_rawRows_point (selector : Selector) (xs : List Sample) :
    (xs.map Sample.point).flatMap (rawRows selector) =
      (xs.map Sample.row).filter fun e => selector.matches? e.label := by
  induction xs with
  | nil => rfl
  | cons x xs ih =>
    rw [List.map_cons, List.map_cons, List.flatMap_cons, ih, rawRows_point, List.filter_cons]
    show _ = if selector.matches? x.field = true then _ else _
    split <;> rfl

/-- Sorting the entries of samples is sorting the samples. -/
theorem sorted_map_row (h : TimeOrder xs (log.filter fun x => decide
    (x.measurement = s.measurement ∧ s.start ≤ x.timestamp ∧ x.timestamp ≤ s.stop))) :
    s.sorted ((log.filter fun x => decide (x.measurement = s.measurement)).map Sample.row) =
      (xs.map Sample.row).filter fun e => s.selector.matches? e.label := by
  have hsort := (h.filter fun x => s.selector.matches? x.field).eq_mergeSort
  have htakes : ∀ x ∈ log, (s.selector.matches? x.field && decide
      (x.measurement = s.measurement ∧ s.start ≤ x.timestamp ∧ x.timestamp ≤ s.stop)) =
        (s.takes x.row && decide (x.measurement = s.measurement)) := by
    intro x _
    simp only [Select.takes, Sample.row, Bool.decide_and]
    ac_rfl
  rw [List.filter_filter, List.filter_congr htakes, ← List.filter_filter] at hsort
  rw [Select.sorted, List.filter_map, List.filter_map]
  show _ = (xs.filter fun x => s.selector.matches? x.field).map Sample.row
  rw [hsort]
  symm
  apply List.map_mergeSort
  intro a _ b _
  rfl

/-! ## Entries of the lines of a text -/

/-- The samples that a line leaves are its entries. -/
theorem lineEntries_map_row {line : List Char} (h : LineSaves now line xs) :
    LineEntries now line (xs.map Sample.row) := by
  obtain ⟨r, w, pairs, hread, htext, hw, hpairs, hfields, hsamples⟩ := h
  refine ⟨r, w, pairs, hread, htext, hw, hpairs, ?_, ?_⟩
  · rw [← hfields, List.map_map]
    rfl
  · intro e he
    obtain ⟨x, hx, rfl⟩ := List.mem_map.mp he
    obtain ⟨-, -, htime, hvalue⟩ := hsamples x hx
    exact ⟨htime, hvalue⟩

theorem measurement_of_mem_samples {r : Record} {x : Sample} (hx : x ∈ r.samples now) :
    x.measurement = r.measurement := by
  obtain ⟨field, -, hx⟩ := List.mem_filterMap.mp hx
  obtain ⟨y, -, rfl⟩ := Option.map_eq_some_iff.mp hx
  rfl

/-- Of the samples of a line, all or none are of a measurement. -/
theorem filter_lineSamples (now : Nanos) (m : String) (line : List Char) :
    (Ingest.lineSamples now (trim line)).filter (fun x => decide (x.measurement = m)) =
      if isAbout m line = true then Ingest.lineSamples now (trim line) else [] := by
  rw [isAbout, Line.decode, String.toList_ofList, Ingest.lineSamples]
  cases h : Line.decodeTrimmed (trim line) with
  | error e => simp
  | ok r =>
    by_cases hm : r.measurement = m
    · simp only [hm, decide_true, if_true]
      refine List.filter_eq_self.mpr fun x hx => ?_
      exact decide_eq_true ((measurement_of_mem_samples hx).trans hm)
    · simp only [hm, decide_false]
      refine List.filter_eq_nil_iff.mpr fun x hx => ?_
      rw [measurement_of_mem_samples hx]
      simp [hm]

/-- The entries of the lines of a measurement are the samples of that measurement. -/
theorem exists_lineEntries (now : Nanos) (m : String) (lines : List (List Char)) :
    ∃ parts, List.Forall₂ (LineEntries now) (lines.filter (isAbout m)) parts ∧
      parts.flatten = ((lines.flatMap fun line => Ingest.lineSamples now (trim line)).filter
        fun x => decide (x.measurement = m)).map Sample.row := by
  induction lines with
  | nil => exact ⟨[], .nil, rfl⟩
  | cons line lines ih =>
    obtain ⟨parts, hparts, hflatten⟩ := ih
    rw [List.flatMap_cons, List.filter_append, List.map_append, filter_lineSamples, ← hflatten]
    by_cases habout : isAbout m line = true
    · refine ⟨(Ingest.lineSamples now (trim line)).map Sample.row :: parts, ?_, ?_⟩
      · rw [List.filter_cons_of_pos habout]
        refine .cons ?_ hparts
        rw [isAbout, Line.decode, String.toList_ofList] at habout
        rw [Ingest.lineSamples]
        cases h : Line.decodeTrimmed (trim line) with
        | error e =>
          rw [h] at habout
          cases habout
        | ok r => exact lineEntries_map_row (lineSaves_samples h now)
      · rw [if_pos habout, List.flatten_cons]
    · refine ⟨parts, ?_, ?_⟩
      · rwa [List.filter_cons_of_neg habout]
      · rw [if_neg habout]
        rfl

/-! ## Answers -/

theorem flatMap_rawRows_all_point (xs : List Sample) :
    (xs.map Sample.point).flatMap (rawRows .all) = xs.map Sample.row := by
  rw [flatMap_rawRows_point]
  exact List.filter_eq_self.mpr fun _ _ => rfl

/-- A selection answers from the samples that it is given. -/
theorem rows_answer (hwidth : ∀ f, s.aggregation = some f →
    0 < (s.bucketWidth.getD defaultWidth).toInt)
    (hsorted : s.sorted es = (xs.map Sample.row).filter fun e => s.selector.matches? e.label) :
    ∃ rows, s.rows (xs.map Sample.point) = .ok rows ∧ Answers s es rows := by
  unfold Select.rows Answers
  rw [hsorted]
  cases hf : s.aggregation with
  | none => exact ⟨_, rfl, flatMap_rawRows_point s.selector xs⟩
  | some f =>
    have hpos := hwidth f hf
    have hcollects : Buckets.Collects s.selector _ _ _ :=
      Buckets.collects_ofPoints hpos (xs.map Sample.point)
    rw [flatMap_rawRows_all_point] at hcollects
    exact ⟨_, if_neg (by omega), _, hcollects.filter.grouped⟩

/-- A text is stored and a selection answered from the store. The rows are the entries of the lines
of the selection's measurement that it takes, sorted by time and otherwise in the order of the text,
or with a reduction the groups of these. -/
theorem execute_select_ingested (body : String) (now : Nanos) (session : Session) (s : Select)
    (hwidth : ∀ f, s.aggregation = some f → 0 < (s.bucketWidth.getD defaultWidth).toInt) :
    ∃ store report parts columns rows,
      Ingest.run .skip (fun _ => now) body SeriesStore.empty = (store, .ok report) ∧
      List.Forall₂ (LineEntries now)
        ((body.toList.splitOn '\n').filter (isAbout s.measurement)) parts ∧
      Session.execute store session (.select s) =
        (.ok (.rows s.measurement columns rows), session) ∧
      Answers s parts.flatten rows := by
  obtain ⟨report, hrun⟩ := Ingest.run_skip now body SeriesStore.empty
  obtain ⟨parts, hparts, hflatten⟩ :=
    exists_lineEntries now s.measurement (body.toList.splitOn '\n')
  generalize (body.toList.splitOn '\n').flatMap _ = log at hrun hflatten
  obtain ⟨xs, horder, hrange⟩ :=
    (SeriesStore.refines_saveAll log).range s.measurement s.start s.stop
  -- The range has tested measurement and times, so only names are left to be selected.
  have hsorted : s.sorted parts.flatten =
      (xs.map Sample.row).filter fun e => s.selector.matches? e.label := by
    rw [hflatten]
    exact sorted_map_row horder
  obtain ⟨rows, hrows, hanswers⟩ := rows_answer hwidth hsorted
  refine ⟨_, report, parts, columns rows, rows, hrun, hparts, ?_, hanswers⟩
  have hstore : PointStore.range (saveAll SeriesStore.empty log) s.measurement s.start s.stop =
      xs.map Sample.point := hrange
  rw [Session.execute, Session.select, hstore, hrows]

/-- A text with a repeated key, a blank line, a line that cannot be read, and one without a time. -/
theorem execute_select_ingested_maxByMinute :
    (∀ f, maxByMinute.aggregation = some f →
      0 < (maxByMinute.bucketWidth.getD defaultWidth).toInt) ∧
    ∃ store report parts columns rows,
      Ingest.run .skip (fun _ => .minute) "cpu load=3,used=1,load=2 60000000001\n\ncpu\ncpu load=1"
        SeriesStore.empty = (store, .ok report) ∧
      List.Forall₂ (LineEntries .minute)
        (("cpu load=3,used=1,load=2 60000000001\n\ncpu\ncpu load=1".toList.splitOn '\n').filter
          (isAbout maxByMinute.measurement)) parts ∧
      Session.execute store (Session.start "db") (.select maxByMinute) =
        (.ok (.rows maxByMinute.measurement columns rows), Session.start "db") ∧
      Answers maxByMinute parts.flatten rows :=
  ⟨fun _ _ => by decide, execute_select_ingested _ _ _ _ fun _ _ => by decide⟩

end Query
end TimeSeries
