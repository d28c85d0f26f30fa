/-
# TimeSeries.Proofs.Query.Selector — which texts are taken for a selector.

A selector is flat text, or the name of a reduction with flat text in parentheses behind it. The
closing parentheses are not read but taken off the end, so it does not matter how many there are:
none, one or more (`TakenFor`). What is left names the fields, and a query is refused for its syntax
where nothing is left, or where a parenthesis is (`interpret_selector`).
-/
import TimeSeries.Proofs.Query.TimeLiteral

namespace TimeSeries.Query

open Text (isBlank trim EndsSolid)

variable {s text clause fields rest : List Char} {f : Aggregation} {g : Option Aggregation}
  {selector : Selector} {c : Clauses} {query : String} {now : Nanos} {n : Nat}

/-! ## The start of a reduction -/

/-- A reduction is read where its name, a gap and an opening parenthesis stand. -/
theorem readAggregation?_eq_some_iff : readAggregation? s = some (f, rest) ↔
    ∃ name gap, IsKeyword f.name name ∧ (∀ c ∈ gap, isGap c = true) ∧
      s = name ++ (gap ++ '(' :: rest) := by
  constructor
  · intro h
    rw [readAggregation?_eq] at h
    obtain ⟨g, -, hg⟩ := List.exists_of_findSome?_eq_some h
    obtain ⟨inside, hinside, heq⟩ := Option.map_eq_some_iff.mp hg
    obtain ⟨rfl, rfl⟩ := Prod.mk.inj heq
    obtain ⟨behind, hkeyword, hopen⟩ := Option.bind_eq_some_iff.mp hinside
    obtain ⟨name, hname, rfl⟩ := exists_of_keyword? hkeyword
    obtain ⟨gap, hgap, hbehind⟩ := exists_gap behind
    rw [afterMark?_eq_some_iff.mp hopen] at hbehind
    exact ⟨name, gap, hname, hgap, by rw [hbehind]⟩
  · rintro ⟨name, gap, hname, hgap, rfl⟩
    exact readAggregation?_eq_some hname hgap

/-! ## Parentheses -/

/-- No parenthesis stands in the text. -/
def IsFlat (s : List Char) : Prop := '(' ∉ s ∧ ')' ∉ s

theorem isFlat_append {t : List Char} : IsFlat (s ++ t) ↔ IsFlat s ∧ IsFlat t := by
  simp only [IsFlat, List.mem_append, not_or]
  exact and_and_and_comm

/-- Of the characters that are taken off a name, none is a parenthesis. -/
theorem isFlat_bareName_iff : IsFlat (bareName s) ↔ IsFlat s := by
  have hmem : ∀ c : Char, isBlank c = false → (c == '"' || c == '\\') = false →
      (c ∈ bareName s ↔ c ∈ s) :=
    fun c hblank hquote => ⟨(bareName_isInfix s).mem,
      fun hc => Text.mem_strip (Text.mem_strip hc hblank) hquote⟩
  rw [IsFlat, hmem '(' (by decide) (by decide), hmem ')' (by decide) (by decide), IsFlat]

/-! ## Texts of selectors -/

/-- What is taken for a selector, with the part of it that names the fields: flat text, or the name
of a reduction, an opening parenthesis, flat text and so many closing parentheses. -/
inductive TakenFor (closings : Nat) : Option Aggregation → List Char → List Char → Prop
  | plain {fields : List Char} (flat : IsFlat fields) : TakenFor closings none fields fields
  | reduced {f : Aggregation} {name gap fields : List Char} (keyword : IsKeyword f.name name)
      (gapped : ∀ c ∈ gap, isGap c = true) (flat : IsFlat fields) :
      TakenFor closings (some f) fields
        (name ++ (gap ++ '(' :: (fields ++ List.replicate closings ')')))

theorem TakenFor.isFlat (h : TakenFor n g fields text) : IsFlat fields := by
  cases h with
  | plain hflat => exact hflat
  | reduced _ _ hflat => exact hflat

/-- A reduction that is closed ends with a parenthesis. -/
theorem TakenFor.getLast?_eq (h : TakenFor (n + 1) (some f) fields text) :
    text.getLast? = some ')' := by
  cases h with
  | @reduced _ name gap _ _ _ _ =>
    have htext : name ++ (gap ++ '(' :: (fields ++ List.replicate (n + 1) ')')) =
        name ++ (gap ++ '(' :: (fields ++ List.replicate n ')')) ++ [')'] := by
      simp [List.replicate_succ']
    rw [htext, List.getLast?_concat]

theorem bareName_dropWhile (s : List Char) : bareName (s.dropWhile isBlank) = bareName s := by
  rw [bareName, bareName]
  conv_rhs => rw [← List.takeWhile_append_dropWhile (p := isBlank) (l := s),
    Text.trim_blank_append fun _ => List.mem_takeWhile_imp]

/-- The closing parentheses behind the fields are taken off. -/
theorem bareName_stripEnd_trim (hfields : IsFlat fields)
    (hends : EndsSolid (fields ++ List.replicate n ')')) :
    bareName (Text.stripEnd (· == ')') (trim (fields ++ List.replicate n ')'))) =
      bareName fields := by
  have hsolid : Text.StartsSolid (List.replicate n ')') := by
    intro c hc
    rw [List.eq_of_mem_replicate (List.mem_of_head? hc)]
    decide
  have hclosings : ∀ c ∈ List.replicate n ')', (c == ')') = true := by
    intro c hc
    rw [List.eq_of_mem_replicate hc]
    rfl
  have hlast : ∀ c ∈ (fields.dropWhile isBlank).getLast?, (c == ')') = false := by
    intro c hc
    rw [beq_eq_false_iff_ne]
    rintro rfl
    exact hfields.2 ((List.dropWhile_suffix isBlank).mem (List.mem_of_getLast? hc))
  rw [Text.trim_eq_dropWhile hends, Text.dropWhile_append_of_startsSolid hsolid,
    Text.stripEnd_append_of_getLast? hclosings hlast, bareName_dropWhile]

/-- A text is taken for a selector in one way, but for the blanks and quotes around the fields. -/
theorem TakenFor.fieldsOf_eq (h : TakenFor n g fields (trim clause)) :
    (fieldsOf clause).2 = g ∧ bareName (fieldsOf clause).1 = bareName fields := by
  have hends := Text.endsSolid_trim clause
  rw [fieldsOf]
  generalize trim clause = text at h hends
  cases h with
  | plain hflat =>
    rw [readAggregation?_eq_none hflat.1]
    exact ⟨rfl, rfl⟩
  | @reduced _ name gap _ hkeyword hgap hflat =>
    have hinside : EndsSolid (fields ++ List.replicate n ')') :=
      hends.of_suffix ⟨name ++ (gap ++ ['(']), by simp⟩
    rw [readAggregation?_eq_some hkeyword hgap]
    exact ⟨rfl, bareName_stripEnd_trim hflat hinside⟩

/-- Text that is flat without its closing parentheses is flat up to them. -/
theorem exists_append_replicate (hends : EndsSolid rest)
    (hflat : IsFlat (Text.stripEnd (· == ')') (trim rest))) :
    ∃ fields n, rest = fields ++ List.replicate n ')' ∧ IsFlat fields ∧
      bareName (Text.stripEnd (· == ')') (trim rest)) = bareName fields := by
  obtain ⟨r, hr, hstrip⟩ := Text.exists_stripEnd_append (· == ')') (trim rest)
  have hclosings : r = List.replicate r.length ')' :=
    List.eq_replicate_iff.mpr ⟨rfl, fun c hc => beq_iff_eq.mp (hr c hc)⟩
  have hblank : ∀ c ∈ rest.takeWhile isBlank, isBlank c = true := fun _ => List.mem_takeWhile_imp
  refine ⟨rest.takeWhile isBlank ++ Text.stripEnd (· == ')') (trim rest), r.length, ?_, ?_, ?_⟩
  · rw [← hclosings, List.append_assoc, hstrip, Text.trim_eq_dropWhile hends,
      List.takeWhile_append_dropWhile]
  · refine isFlat_append.mpr ⟨⟨fun hc => ?_, fun hc => ?_⟩, hflat⟩ <;>
      exact absurd (hblank _ hc) (by decide)
  · rw [bareName, bareName, Text.trim_blank_append hblank]

/-- A selector whose fields are flat once they are taken out of it was written so. -/
theorem exists_takenFor (h : IsFlat (bareName (fieldsOf clause).1)) :
    ∃ n fields, TakenFor n (fieldsOf clause).2 fields (trim clause) ∧
      bareName (fieldsOf clause).1 = bareName fields := by
  rw [isFlat_bareName_iff, fieldsOf] at h
  rw [fieldsOf]
  have hends := Text.endsSolid_trim clause
  cases hread : readAggregation? (trim clause) with
  | none =>
    rw [hread] at h
    exact ⟨0, trim clause, .plain h, rfl⟩
  | some read =>
    obtain ⟨f, rest⟩ := read
    rw [hread] at h
    obtain ⟨name, gap, hkeyword, hgap, htext⟩ := readAggregation?_eq_some_iff.mp hread
    have hrest : EndsSolid rest := hends.of_suffix ⟨name ++ (gap ++ ['(']), by simp [htext]⟩
    obtain ⟨fields, n, hfields, hflat, hbare⟩ := exists_append_replicate hrest h
    refine ⟨n, fields, ?_, hbare⟩
    rw [htext, hfields]
    exact .reduced hkeyword hgap hflat

/-- A selector is read from the texts that are taken for one and name fields. -/
theorem readSelector?_eq_some_iff : readSelector? clause = some (selector, g) ↔
    ∃ n fields, TakenFor n g fields (trim clause) ∧ bareName fields ≠ [] ∧
      selectorOf (bareName fields) = selector := by
  rw [readSelector?_eq]
  constructor
  · intro h
    split at h
    · cases h
    · rename_i hplain
      obtain ⟨hne, hflat⟩ := not_or.mp hplain
      obtain ⟨hselector, hf⟩ := Prod.mk.inj (Option.some.inj h)
      obtain ⟨n, fields, htaken, hbare⟩ := exists_takenFor (not_or.mp hflat)
      rw [hf] at htaken
      rw [hbare] at hne hselector
      exact ⟨n, fields, htaken, hne, hselector⟩
  · rintro ⟨n, fields, htaken, hne, rfl⟩
    obtain ⟨hf, hbare⟩ := htaken.fieldsOf_eq
    have hflat : IsFlat (bareName fields) := isFlat_bareName_iff.mpr htaken.isFlat
    rw [hbare, hf, if_neg (not_or.mpr ⟨hne, not_or.mpr hflat⟩)]

/-! ## Queries -/

/-- A time range is refused for its literals alone. -/
theorem exists_of_range_eq_error {e : Error} (h : c.range now = .error e) :
    ∃ literal, e = .invalidTimeFormat literal := by
  rw [Clauses.range] at h
  cases hcondition : c.condition with
  | none =>
    rw [hcondition] at h
    cases h
  | some condition =>
    rw [hcondition] at h
    obtain ⟨_, after, -, h⟩ := readRange_eq_error_iff.mp h
    obtain ⟨literal, rfl, -⟩ := readBounds_eq_error_iff.mp h
    exact ⟨String.ofList literal, rfl⟩

/-- A selection is refused for its syntax exactly when it has no selector. -/
theorem interpret_eq_invalidSyntax_iff (hc : selectClauses? query = some c) :
    interpret query now = .error (.invalidSyntax (String.ofList (trim query.toList))) ↔
      readSelector? c.selector = none := by
  obtain ⟨rest, hselect, hclauses⟩ := Option.bind_eq_some_iff.mp hc
  rw [interpret, interpretTrimmed_of_select hselect, readSelect_eq, hclauses]
  dsimp only
  cases hread : readSelector? c.selector with
  | none => exact iff_of_true rfl rfl
  | some read =>
    refine iff_of_false ?_ (Option.some_ne_none _)
    dsimp only
    split
    · rintro ⟨⟩
    · intro h
      cases hrange : c.range now with
      | ok range =>
        rw [hrange] at h
        cases h
      | error e =>
        obtain ⟨literal, rfl⟩ := exists_of_range_eq_error hrange
        rw [hrange] at h
        cases h

/-- A selection is read exactly when the text between SELECT and FROM is taken for a selector, with
any number of closing parentheses, and FROM names a measurement and the time range is one. A text
that is taken for no selector is refused for its syntax. -/
theorem interpret_selector (query : String) (now : Nanos) :
    (∀ s, interpret query now = .ok (.select s) ↔
      ∃ c n f fields range, selectClauses? query = some c ∧ TakenFor n f fields (trim c.selector) ∧
        bareName fields ≠ [] ∧ bareName c.source ≠ [] ∧ c.range now = .ok range ∧
        s = c.select (selectorOf (bareName fields)) f range) ∧
    ∀ c, selectClauses? query = some c →
      (interpret query now = .error (.invalidSyntax (String.ofList (trim query.toList))) ↔
        ∀ n f fields, TakenFor n f fields (trim c.selector) → bareName fields = []) := by
  constructor
  · intro s
    rw [interpret_eq_select_iff]
    constructor
    · rintro ⟨c, selector, f, range, ⟨hc, hselector, hsource⟩, hrange, rfl⟩
      obtain ⟨n, fields, htaken, hne, rfl⟩ := readSelector?_eq_some_iff.mp hselector
      exact ⟨c, n, f, fields, range, hc, htaken, hne, hsource, hrange, rfl⟩
    · rintro ⟨c, n, f, fields, range, hc, htaken, hne, hsource, hrange, rfl⟩
      have hselector := readSelector?_eq_some_iff.mpr ⟨n, fields, htaken, hne, rfl⟩
      exact ⟨c, _, f, range, ⟨hc, hselector, hsource⟩, hrange, rfl⟩
  · intro c hc
    rw [interpret_eq_invalidSyntax_iff hc, Option.eq_none_iff_forall_ne_some]
    constructor
    · intro h n f fields htaken
      by_contra hne
      exact h _ (readSelector?_eq_some_iff.mpr ⟨n, fields, htaken, hne, rfl⟩)
    · rintro h ⟨selector, f⟩ hselector
      obtain ⟨n, fields, htaken, hne, -⟩ := readSelector?_eq_some_iff.mp hselector
      exact hne (h n f fields htaken)

/-- A query with text behind the closing parenthesis. -/
def trailedQuery : String := "SELECT mean(value) load FROM cpu"

/-- What is selected in it, and where from. -/
def trailed : Clauses := ⟨" mean(value) load ".toList, " cpu".toList, none, none⟩

theorem interpret_selector_trailed :
    selectClauses? trailedQuery = some trailed ∧
      ∀ n f fields, TakenFor n f fields "mean(value) load".toList → bareName fields = [] := by
  have hclauses : selectClauses? trailedQuery = some trailed := by decide +kernel
  have hrefused : interpret trailedQuery .zero = .error (.invalidSyntax trailedQuery) := by
    decide +kernel
  exact ⟨hclauses, ((interpret_selector trailedQuery .zero).2 trailed hclauses).mp hrefused⟩

/-- A query with a reduction that is not closed. -/
def unclosedQuery : String := "SELECT mean(value FROM cpu"

/-- The selection that it is read as. -/
def unclosed : Select := ⟨"cpu", .field "value", some .mean, .zero, .zero, some defaultWidth⟩

/-- A reduction is read also if it is not closed once. -/
theorem not_takenFor_one :
    ¬ ∀ (query : String) (now : Nanos) (s : Select) (c : Clauses),
      interpret query now = .ok (.select s) → selectClauses? query = some c →
        ∃ fields, TakenFor 1 s.aggregation fields (trim c.selector) := by
  intro h
  have hread : interpret unclosedQuery .zero = .ok (.select unclosed) := by decide +kernel
  have hclauses : selectClauses? unclosedQuery =
      some ⟨" mean(value ".toList, " cpu".toList, none, none⟩ := by decide +kernel
  obtain ⟨fields, htaken⟩ := h _ _ _ _ hread hclauses
  have hlast := htaken.getLast?_eq
  revert hlast
  decide

end TimeSeries.Query
