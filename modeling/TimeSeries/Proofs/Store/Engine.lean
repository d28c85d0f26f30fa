/-
# TimeSeries.Proofs.Store.Engine — a store in a database engine.

A store may leave its rows to a database engine. What it relies on is little: a new row gets a
greater number than all others, a query chooses by measurement and time and sorts by time and
number, names come in the order of their bytes, and tags can be read back from their text. From
that alone the replies follow (`TableEngine.replies_eq`), and no store can be told from another but
by the sign of zero (`replies_agree`).
-/
import TimeSeries.Proofs.Store.Table
import TimeSeries.Proofs.Store.TagText

namespace TimeSeries

/-! ## The engine and its table -/

/-- A row of the table of points. -/
structure PointRow where
  number : Nat
  measurement : String
  timestamp : Nanos
  tags : String
  field : String
  cell : Option Float

/-- What a query selects of a row. -/
structure SelectedRow where
  timestamp : Nanos
  tags : String
  field : String
  cell : Option Float

/-- The columns of a row that a query selects. -/
def PointRow.selected (r : PointRow) : SelectedRow := ⟨r.timestamp, r.tags, r.field, r.cell⟩

/-- A database engine with a table of points, and the statements that a store has it run. -/
structure TableEngine where
  Table : Type
  /-- The table as it is made. -/
  create : Table
  /-- Adds a row with a measurement, a time, tags, a field and a value. -/
  insert : Table → String → Nanos → String → String → Float → Table
  /-- Selects the rows of a measurement between two times, sorted by time and number. -/
  select : Table → String → Nanos → Nanos → List SelectedRow
  /-- Selects the distinct measurements in ascending order. -/
  names : Table → List String

/-- Tags as the text of a column. -/
structure TagFormat where
  write : List (String × String) → String
  read? : String → Option (List (String × String))

/-- The engine does what its documentation says of the statements, where `rows` tells the rows that
a table has. -/
structure TableEngine.Documented (E : TableEngine) (rows : E.Table → List PointRow) : Prop where
  /-- A table is made without rows. -/
  rows_create : rows E.create = []
  /-- A row is added under a greater number. The column of numbers keeps what it can of the value. -/
  rows_insert : ∀ t m time tags field x, ∃ number, (∀ r ∈ rows t, r.number < number) ∧
    (rows (E.insert t m time tags field x)).Perm
      (rows t ++ [⟨number, m, time, tags, field, cellOfFloat x⟩])
  /-- The rows that a condition chooses come in the order that is asked for. -/
  select_eq : ∀ t m start stop, ∃ chosen : List PointRow,
    chosen.Perm ((rows t).filter fun r =>
      r.measurement = m && start ≤ r.timestamp && r.timestamp ≤ stop) ∧
    (chosen.Pairwise fun a b =>
      a.timestamp < b.timestamp ∨ a.timestamp = b.timestamp ∧ a.number ≤ b.number) ∧
    E.select t m start stop = chosen.map PointRow.selected
  /-- Texts are compared byte by byte. -/
  pairwise_names : ∀ t, (E.names t).Pairwise fun a b => Text.utf8 a < Text.utf8 b
  mem_names : ∀ t m, m ∈ E.names t ↔ m ∈ (rows t).map PointRow.measurement

/-- Tags that were written can be read. -/
def TagFormat.Lossless (F : TagFormat) : Prop := ∀ tags, F.read? (F.write tags) = some tags

/-! ## The store -/

namespace TableEngine

variable (E : TableEngine) (F : TagFormat)

/-- Saves a sample as a row. -/
def save (t : E.Table) (x : Sample) : E.Table :=
  E.insert t x.measurement x.timestamp (F.write x.tags) x.field x.value

/-- The point of a row of a measurement, if its tags can be read. -/
def pointOf? (m : String) (r : SelectedRow) : Option Point :=
  (F.read? r.tags).map fun tags =>
    Sample.point ⟨m, r.field, floatOfCell r.cell, tags, r.timestamp⟩

/-- The points of a measurement from one time to another, if the tags of all can be read. -/
def range? (t : E.Table) (m : String) (start stop : Nanos) : Option (List Point) :=
  (E.select t m start stop).mapM (pointOf? F m)

/-- What the store does with a request. -/
def serve (t : E.Table) : Request → E.Table × Reply
  | .save x => (E.save F t x, .saved)
  | .range m start stop =>
    (t, match E.range? F t m start stop with
      | some ps => .points ps
      | none => .failed)
  | .measurements => (t, .names (E.names t))

/-! ## What it remembers -/

/-- The sample of a row. -/
def sampleOf (r : PointRow) : Sample :=
  ⟨r.measurement, r.field, floatOfCell r.cell, (F.read? r.tags).getD [], r.timestamp⟩

variable {E F} {rows : E.Table → List PointRow} {t : E.Table} {log : Log}

/-- A table holds a log: by number its rows show the samples in the order in which they were saved,
and the tags of all can be read. -/
def Holds (F : TagFormat) (rows : E.Table → List PointRow) (t : E.Table) (log : Log) : Prop :=
  ∃ stored : List PointRow, stored.Perm (rows t) ∧
    (stored.Pairwise fun a b => a.number < b.number) ∧
    stored.map (sampleOf F) = log.samples.map Sample.dropZeroSign ∧
    ∀ r ∈ stored, (F.read? r.tags).isSome

theorem Documented.holds_create (hE : E.Documented rows) : Holds F rows E.create ⟨[]⟩ := by
  refine ⟨[], ?_, .nil, rfl, fun r hr => absurd hr List.not_mem_nil⟩
  rw [hE.rows_create]

theorem Documented.holds_save (hE : E.Documented rows) (hF : F.Lossless)
    (h : Holds F rows t log) (x : Sample) :
    Holds F rows (E.save F t x) ⟨log.samples ++ [x]⟩ := by
  obtain ⟨stored, hperm, hnumbers, hsamples, htags⟩ := h
  obtain ⟨number, hlt, hrows⟩ :=
    hE.rows_insert t x.measurement x.timestamp (F.write x.tags) x.field x.value
  refine ⟨stored ++ [⟨number, x.measurement, x.timestamp, F.write x.tags, x.field,
    cellOfFloat x.value⟩], (hperm.append_right _).trans hrows.symm, ?_, ?_, ?_⟩
  · rw [List.pairwise_append]
    refine ⟨hnumbers, List.pairwise_singleton _ _, fun a ha b hb => ?_⟩
    rw [List.mem_singleton.mp hb]
    exact hlt a (hperm.mem_iff.mp ha)
  · rw [List.map_append, List.map_append, hsamples, List.map_singleton, List.map_singleton,
      sampleOf, floatOfCell_cellOfFloat, hF]
    rfl
  · intro r hr
    rcases List.mem_append.mp hr with hr | hr
    · exact htags r hr
    · rw [List.mem_singleton.mp hr, hF]
      rfl

theorem mapM_pointOf? {m : String} {rs : List PointRow}
    (hrs : ∀ r ∈ rs, r.measurement = m ∧ (F.read? r.tags).isSome) :
    (rs.map PointRow.selected).mapM (pointOf? F m) =
      some ((rs.map (sampleOf F)).map Sample.point) := by
  induction rs with
  | nil => rfl
  | cons r rs ih =>
    obtain ⟨rfl, htags⟩ := hrs r List.mem_cons_self
    obtain ⟨tags, htags⟩ := Option.isSome_iff_exists.mp htags
    have hpoint : pointOf? F r.measurement r.selected = some (sampleOf F r).point := by
      rw [pointOf?, sampleOf, PointRow.selected, htags]
      rfl
    rw [List.map_cons, List.mapM_cons, hpoint, ih fun a ha => hrs a (List.mem_cons_of_mem r ha)]
    rfl

theorem Documented.range?_eq (hE : E.Documented rows) (h : Holds F rows t log) (m : String)
    (start stop : Nanos) :
    E.range? F t m start stop =
      some (((log.chosen m start stop).map Sample.point).map Point.dropZeroSigns) := by
  obtain ⟨stored, hperm, hnumbers, hsamples, htags⟩ := h
  obtain ⟨chosen, hchosen, hsorted, hselect⟩ := hE.select_eq t m start stop
  have hasked : (fun r : PointRow => decide (r.measurement = m) && decide (start ≤ r.timestamp) &&
      decide (r.timestamp ≤ stop)) = fun r => Log.isAsked m start stop (sampleOf F r) := by
    funext r
    rw [Log.isAsked, Bool.decide_and, Bool.decide_and, Bool.and_assoc]
    rfl
  rw [hasked] at hchosen
  have hchosen := hchosen.trans (hperm.symm.filter _)
  have hread : ∀ r ∈ chosen, r.measurement = m ∧ (F.read? r.tags).isSome := by
    intro r hr
    obtain ⟨hr, hr'⟩ := List.mem_filter.mp (hchosen.mem_iff.mp hr)
    exact ⟨(of_decide_eq_true hr').1, htags r hr⟩
  rw [range?, hselect, mapM_pointOf? hread,
    Log.map_eq_chosen hsamples hnumbers hchosen hsorted, List.map_map, List.map_map]
  exact congrArg some (List.map_congr_left fun x _ => x.point_dropZeroSign)

theorem Documented.names_eq (hE : E.Documented rows) (h : Holds F rows t log) :
    E.names t = ascendingNames (log.samples.map Sample.measurement) := by
  obtain ⟨stored, hperm, -, hsamples, -⟩ := h
  refine eq_ascendingNames (hE.pairwise_names t) fun m => ?_
  have hnames := congrArg (List.map Sample.measurement) hsamples
  rw [List.map_map, List.map_map] at hnames
  rw [hE.mem_names, (hperm.map PointRow.measurement).symm.mem_iff]
  exact iff_of_eq (congrArg (m ∈ ·) hnames)

theorem Documented.step (hE : E.Documented rows) (hF : F.Lossless) (h : Holds F rows t log)
    (r : Request) :
    Holds F rows (E.serve F t r).1 (PointStore.serve log r).1 ∧
      (E.serve F t r).2 = (PointStore.serve log r).2.dropZeroSigns := by
  cases r with
  | save x => exact ⟨hE.holds_save hF h x, rfl⟩
  | range m start stop =>
    refine ⟨h, ?_⟩
    rw [serve, hE.range?_eq h]
    rfl
  | measurements => exact ⟨h, congrArg Reply.names (hE.names_eq h)⟩

/-- A store in an engine cannot be told from a log that is searched through, but for the sign of
zero. -/
theorem Documented.replies_eq (hE : E.Documented rows) (hF : F.Lossless) (rs : List Request) :
    replies (E.serve F) E.create rs =
      (replies PointStore.serve (Log.mk []) rs).map Reply.dropZeroSigns :=
  replies_eq_of_step (Holds F rows) Reply.dropZeroSigns (fun _ _ r h => hE.step hF h r) rs _ _
    hE.holds_create

end TableEngine

/-! ## All stores -/

/-- Stores cannot be told apart by their replies, but for the sign of zero. A table of rows, and a
store in any engine that does what is asked of it, reply to requests as a store of sorted series
does, with negative zeros as zeros. NaN is kept as an empty cell and comes back. -/
theorem replies_agree :
    (∀ rs, replies PointStore.serve TableStore.empty rs =
      (replies PointStore.serve SeriesStore.empty rs).map Reply.dropZeroSigns) ∧
    (∀ (E : TableEngine) (rows : E.Table → List PointRow) (F : TagFormat),
      E.Documented rows → F.Lossless → ∀ rs, replies (E.serve F) E.create rs =
        (replies PointStore.serve SeriesStore.empty rs).map Reply.dropZeroSigns) ∧
    ∀ x : Float, x.isNaN = true → cellOfFloat x = none ∧ floatOfCell none = x := by
  refine ⟨fun rs => ?_, fun E rows F hE hF rs => ?_, fun x hx => ⟨?_, ?_⟩⟩
  · rw [TableStore.replies_eq, SeriesStore.replies_eq]
  · rw [hE.replies_eq hF, SeriesStore.replies_eq]
  · rw [cellOfFloat, if_pos hx]
  · rw [isNaN_iff.mp hx]
    rfl

/-! ## A plain engine -/

/-- An engine whose tables are lists of rows. -/
def listEngine : TableEngine where
  Table := List PointRow
  create := []
  insert rs m time tags field x :=
    rs ++ [⟨(rs.map PointRow.number).foldr max 0 + 1, m, time, tags, field, cellOfFloat x⟩]
  select rs m start stop :=
    ((rs.filter fun r =>
      r.measurement = m && start ≤ r.timestamp && r.timestamp ≤ stop).mergeSort fun a b =>
        a.timestamp < b.timestamp || (a.timestamp = b.timestamp && a.number ≤ b.number)).map
      PointRow.selected
  names rs := ascendingNames (rs.map PointRow.measurement)

theorem listEngine_documented : listEngine.Documented id where
  rows_create := rfl
  rows_insert rs m time tags field x := by
    refine ⟨_, fun r hr => ?_, List.Perm.refl _⟩
    have hle : ∀ {ns : List Nat} {n : Nat}, n ∈ ns → n ≤ ns.foldr max 0 := by
      intro ns n hn
      exact List.le_max_of_le hn (Nat.le_refl n)
    exact Nat.lt_succ_of_le (hle (List.mem_map_of_mem hr))
  select_eq rs m start stop :=
    ⟨_, List.mergeSort_perm _ _, pairwise_mergeSort_of_numbered _ _ _, rfl⟩
  pairwise_names rs := pairwise_ascendingNames _
  mem_names rs m := mem_ascendingNames

/-- Tags as JSON texts. -/
def jsonTags : TagFormat := ⟨tagText, readTags?⟩

theorem jsonTags_lossless : jsonTags.Lossless := readTags?_tagText

/-! ### A run -/

/-- A value that is not a number. -/
def noon : Sample := ⟨"température", "v", 0.0 / 0.0, [("room", "\"a\"")], .minute⟩

/-- A negative zero, at an earlier time. -/
def dawn : Sample := ⟨"température", "v", -0.0, [], .zero⟩

/-- The later sample is saved first. -/
def visit : List Request :=
  [.save noon, .save dawn, .range "température" .zero .minute, .measurements]

theorem replies_visit :
    replies PointStore.serve (Log.mk []) visit =
      [.saved, .saved, .points [dawn.point, noon.point], .names ["température"]] := by
  have hlate : ¬ noon.timestamp ≤ dawn.timestamp := by decide
  have hchosen : Log.chosen ⟨[noon, dawn]⟩ "température" .zero .minute = [dawn, noon] := by
    have hasked : [noon, dawn].filter (Log.isAsked "température" .zero .minute) = [noon, dawn] :=
      rfl
    rw [Log.chosen, hasked]
    simp [List.mergeSort, List.MergeSort.Internal.splitInTwo, hlate]
  have hnames : ascendingNames ["température", "température"] = ["température"] := by decide
  show [Reply.saved, .saved,
    .points ((Log.chosen ⟨[noon, dawn]⟩ "température" .zero .minute).map Sample.point),
    .names (ascendingNames ["température", "température"])] = _
  rw [hchosen, hnames]
  rfl

/-- Here the later sample is saved first, a negative zero comes out as zero, and NaN comes out. -/
theorem replies_agree_visit :
    listEngine.Documented id ∧ jsonTags.Lossless ∧
    replies (listEngine.serve jsonTags) listEngine.create visit =
      [.saved, .saved, .points [Sample.point { dawn with value := 0.0 }, noon.point],
        .names ["température"]] := by
  refine ⟨listEngine_documented, jsonTags_lossless, ?_⟩
  rw [replies_agree.2.1 listEngine id jsonTags listEngine_documented jsonTags_lossless,
    SeriesStore.replies_eq, replies_visit]
  have hdawn : dawn.dropZeroSign = { dawn with value := 0.0 } := rfl
  have hnoon : noon.dropZeroSign = noon :=
    congrArg (fun x => { noon with value := x }) (dropZeroSign_of_isNaN (by decide))
  show [Reply.saved, .saved, .points [dawn.point.dropZeroSigns, noon.point.dropZeroSigns], _] = _
  rw [← Sample.point_dropZeroSign, ← Sample.point_dropZeroSign, hdawn, hnoon]
  rfl

end TimeSeries
