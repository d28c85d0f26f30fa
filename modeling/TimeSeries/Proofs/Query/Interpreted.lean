/-
# TimeSeries.Proofs.Query.Interpreted — every written SELECT is read as what was written.

The keyword at the start tells a selection from the other statements, and the clauses behind it are
read as its parts (`WritesSelect.readSelect_eq`). So a text of the grammar is interpreted as the
selection that it writes (`interpret_eq_select`), at any time, with any gaps and in any case.
-/
import TimeSeries.Proofs.Query.Clauses

namespace TimeSeries.Query

variable {now : Nanos} {s : Select} {ps : List Piece} {select text rest : List Char}

/-! ## The selection -/

/-- The pieces after SELECT are read as the selection that they write. -/
theorem WritesSelect.readSelect_eq (h : WritesSelect now s ps) (hps : ∀ p ∈ ps, p.IsGapped)
    (query : List Char) : readSelect (textOf ps) query now = .ok s := by
  cases h with
  | intro hselected hfrom hsource hclauses =>
    obtain ⟨c, hc, hread⟩ := hclauses.exists_areRead hselected hfrom hsource hps
    have hname := List.isEmpty_eq_false_iff.mpr hsource.ne_nil
    have hrange := hread.range
    rw [readSelect, hc]
    dsimp only
    rw [hread.selector]
    dsimp only
    rw [hread.source, hread.grouping, hname]
    cases hcondition : c.condition with
    | none =>
      rw [hcondition] at hrange
      obtain ⟨rfl, rfl⟩ := Prod.mk.inj (Except.ok.inj hrange)
      rfl
    | some condition =>
      rw [hcondition] at hrange
      dsimp only
      rw [show readRange condition now = _ from hrange]
      rfl

theorem WritesSelect.head?_textOf (h : WritesSelect now s ps) (hps : ∀ p ∈ ps, p.IsGapped) :
    ∀ c ∈ (textOf ps).head?, Text.isBlank c = true := by
  cases h with
  | @intro _ _ _ _ _ _ selected =>
    have hselected := hps selected List.mem_cons_self
    intro c hc
    rw [textOf_cons, List.head?_append_of_ne_nil _ hselected.1] at hc
    exact hselected.isBlank c (List.mem_of_head? hc)

/-! ## The keyword at the start -/

theorem readShow?_eq_none (h : keyword? "show" text = none) : readShow? text = none := by
  rw [readShow?, h]
  rfl

/-- A text that starts with CREATE is an order to create a database, or refused. -/
theorem interpretTrimmed_of_create (h : keyword? "create" text = some rest) (now : Nanos) :
    interpretTrimmed text now =
      (readCreate? rest).elim (.error (.invalidSyntax (String.ofList text)))
        fun name => .ok (.createDatabase name) := by
  obtain ⟨w, hcreate, rfl⟩ := exists_of_keyword? h
  have hempty : (w ++ rest).isEmpty = false := by
    simp [hcreate.ne_nil]
  have hshow : readShow? (w ++ rest) = none :=
    readShow?_eq_none (keyword?_eq_none_of_isKeyword hcreate (by decide) (by decide) rest)
  rw [interpretTrimmed, hempty, hshow, h]
  cases hread : readCreate? rest <;> simp [hread]

/-- A text that starts with USE is an order to use a database, or refused. -/
theorem interpretTrimmed_of_use (h : keyword? "use" text = some rest) (now : Nanos) :
    interpretTrimmed text now =
      (readName? rest).elim (.error (.invalidSyntax (String.ofList text)))
        fun database => .ok (.use database) := by
  obtain ⟨w, huse, rfl⟩ := exists_of_keyword? h
  have hempty : (w ++ rest).isEmpty = false := by
    simp [huse.ne_nil]
  have hshow : readShow? (w ++ rest) = none :=
    readShow?_eq_none (keyword?_eq_none_of_isKeyword huse (by decide) (by decide) rest)
  rw [interpretTrimmed, hempty, hshow,
    keyword?_eq_none_of_isKeyword huse (by decide) (by decide), h]
  cases hread : readName? rest <;> simp [hread]

/-- A text that starts with SELECT is read as a selection or refused. -/
theorem interpretTrimmed_of_select (h : keyword? "select" text = some rest) (now : Nanos) :
    interpretTrimmed text now = (readSelect rest text now).map .select := by
  obtain ⟨w, hselect, rfl⟩ := exists_of_keyword? h
  have hempty : (w ++ rest).isEmpty = false := by
    simp [hselect.ne_nil]
  have hshow : readShow? (w ++ rest) = none :=
    readShow?_eq_none (keyword?_eq_none_of_isKeyword hselect (by decide) (by decide) rest)
  rw [interpretTrimmed, hempty, hshow,
    keyword?_eq_none_of_isKeyword hselect (by decide) (by decide),
    keyword?_eq_none_of_isKeyword hselect (by decide) (by decide), h]
  cases hread : readSelect rest (w ++ rest) now <;> simp [Except.map, hread]

/-- A text that starts with SELECT is read as a selection. -/
theorem interpretTrimmed_select (hselect : IsKeyword "select" select)
    (hrest : ∀ c ∈ rest.head?, Text.isNameChar c = false)
    (hread : ∀ query, readSelect rest query now = .ok s) :
    interpretTrimmed (select ++ rest) now = .ok (.select s) := by
  rw [interpretTrimmed_of_select (keyword?_eq_some hselect hrest), hread]
  rfl

/-- A text of the grammar is interpreted as the selection that it writes. -/
theorem interpret_eq_select {query : String} (h : WritesQuery now s query.toList) :
    interpret query now = .ok (.select s) := by
  rw [interpret]
  generalize query.toList = text at h
  cases h with
  | @intro front select back ps hfront hback hselect hps hwritten =>
    have hword : IsWord select := hselect.isWord
    have hstart : Text.StartsSolid (select ++ textOf ps) :=
      (Text.startsSolid_append hword.ne_nil).mpr hword.starts
    have hend : Text.EndsSolid (select ++ textOf ps) := by
      obtain htext | htext := eq_or_ne (textOf ps) []
      · rw [htext, List.append_nil]
        exact hword.ends
      · exact (Text.endsSolid_append htext).mpr (endsSolid_textOf (hwritten.isSpaced hps))
    have htrim : Text.trim (front ++ (select ++ textOf ps) ++ back) = select ++ textOf ps :=
      Text.trim_append_append (fun c hc => (hfront c hc).isBlank) (fun c hc => (hback c hc).isBlank)
        (by simp [hword.ne_nil]) hstart hend
    rw [htrim]
    exact interpretTrimmed_select hselect
      (fun c hc => Text.isNameChar_of_isBlank (hwritten.head?_textOf hps c hc))
      (hwritten.readSelect_eq hps)

/-- A query for names that hold keywords, with GROUP BY before WHERE and the later bound first. -/
def peaksQuery : String :=
  "Select MAX(\"load from\")\n\tFrom \\\"group by\\\" GROUP  BY time(2M)" ++
    " where TIME <= 20Ms AND time >= -5\n"

/-- The greatest loads of every two minutes. -/
def peaks : Select :=
  ⟨"group by", .field "load from", some .max, ⟨-5, by decide, by decide⟩,
    ⟨20000000, by decide, by decide⟩, some ⟨120000000000, by decide, by decide⟩⟩

/-- Two minutes, with a gap of two blanks before BY. -/
def peaksGroup : List Piece :=
  [⟨[' '], "GROUP".toList⟩, ⟨[' ', ' '], "BY".toList⟩,
    ⟨[' '], "time".toList ++ '(' :: ['2'] ++ ['M'] ++ [')']⟩]

/-- The upper bound in milliseconds, then the lower one below zero. -/
def peaksWhere : List Piece :=
  ⟨[' '], "where".toList⟩ ::
    ([⟨[' '], "TIME".toList⟩, ⟨[' '], ['<', '=']⟩, ⟨[' '], ['2', '0'] ++ "Ms".toList⟩] ++
      ⟨[' '], "AND".toList⟩ ::
        [⟨[' '], "time".toList⟩, ⟨[' '], ['>', '=']⟩, ⟨[' '], ['-', '5']⟩])

/-- All that stands behind SELECT. -/
def peaksPieces : List Piece :=
  ⟨[' '], "MAX".toList ++ '(' :: ('"' :: "load from".toList ++ ['"']) ++ [')']⟩ ::
    ⟨['\n', '\t'], "From".toList⟩ ::
    ⟨[' '], '\\' :: '"' :: "group by".toList ++ ['\\', '"']⟩ :: (peaksGroup ++ peaksWhere)

theorem writesSelector_peaks : WritesSelector peaks.selector peaks.aggregation
    ("MAX".toList ++ '(' :: ('"' :: "load from".toList ++ ['"']) ++ [')']) := by
  have hname : WritesName "load from".toList ('"' :: "load from".toList ++ ['"']) :=
    .quoted ⟨by decide, by decide, by decide, by decide⟩
  have hfield := WritesFields.field hname (by decide) (by decide)
  rw [String.ofList_toList] at hfield
  exact .reduced (by decide) hfield

theorem writesGroup_peaks : WritesGroup peaks.bucketWidth peaksGroup := by
  have hdigits : IsDigits ['2'] := ⟨by decide, by simp⟩
  have hwidth : widthOfMinutes? (Nat.ofDigitChars 10 ['2'] 0) = peaks.bucketWidth := by decide
  rw [← hwidth]
  exact ⟨by decide, by decide, .intro (by decide) hdigits (by decide)⟩

theorem writesWhere_peaks : WritesWhere .zero peaks.start peaks.stop peaksWhere := by
  have hdigits : IsDigits ['2', '0'] := ⟨by decide, by simp⟩
  have hdigits' : IsDigits ['5'] := ⟨by decide, by simp⟩
  have hstop : WritesTime peaks.stop (['2', '0'] ++ "Ms".toList) :=
    .millis (.plain hdigits) (by decide) (by decide)
  have hstart : WritesTime peaks.start ['-', '5'] := .nanos (.negative hdigits')
  exact ⟨by decide, .upperLower ⟨by decide, rfl, hstop⟩ (by decide) ⟨by decide, rfl, hstart⟩⟩

theorem writesSelect_peaks : WritesSelect .zero peaks peaksPieces := by
  have hname : WritesName "group by".toList ('\\' :: '"' :: "group by".toList ++ ['\\', '"']) :=
    .escaped ⟨by decide, by decide, by decide, by decide⟩
  exact .intro writesSelector_peaks (by decide) hname
    (.groupRange writesGroup_peaks writesWhere_peaks)

theorem interpret_eq_select_peaks :
    WritesQuery .zero peaks peaksQuery.toList ∧
      interpret peaksQuery .zero = .ok (.select peaks) := by
  have htext : peaksQuery.toList = [] ++ ("Select".toList ++ textOf peaksPieces) ++ ['\n'] := by
    decide
  have hgapped : ∀ p ∈ peaksPieces, p.IsGapped := by
    simp [peaksPieces, peaksGroup, peaksWhere, Piece.IsGapped, IsSpacing]
  have hquery : WritesQuery .zero peaks peaksQuery.toList := by
    rw [htext]
    exact .intro (by simp) (by simp [IsSpacing]) (by decide) hgapped writesSelect_peaks
  exact ⟨hquery, interpret_eq_select hquery⟩

end TimeSeries.Query
