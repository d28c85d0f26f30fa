/-
# TimeSeries.Proofs.Query.Executable — every selection that is read can be answered.

A reader takes what it finds and passes over what it does not know, so a query may hold any text
beside its clauses. Still a selection that comes out of it has names to look up, a width wherever
it has a reduction, and the width counts whole minutes (`exists_writesMinutes`). This is all that
could keep rows from being made (`interpret_executable`).
-/
import TimeSeries.Proofs.Query.Select
import TimeSeries.Query.Session

namespace TimeSeries.Query

variable {now : Nanos} {s : Select} {text grouping inside : List Char} {query : String} {w : Nanos}
  {f : Option Aggregation}

/-! ## Names -/

/-- A name as it stands in a statement: some text, with no quote and no backslash at its ends. -/
structure IsName (name : String) : Prop where
  ne_nil : name.toList ≠ []
  head : ∀ c ∈ name.toList.head?, c ≠ '"' ∧ c ≠ '\\'
  last : ∀ c ∈ name.toList.getLast?, c ≠ '"' ∧ c ≠ '\\'

theorem isName_bareName (h : bareName text ≠ []) : IsName (String.ofList (bareName text)) := by
  have hends : ∀ c : Char, (c == '"' || c == '\\') = false → c ≠ '"' ∧ c ≠ '\\' := by
    intro c hc
    simpa using hc
  constructor
  · rwa [String.toList_ofList]
  · rw [String.toList_ofList]
    exact fun c hc => hends c (Text.head?_strip _ _ c hc)
  · rw [String.toList_ofList]
    exact fun c hc => hends c (Text.getLast?_stripEnd _ _ c hc)

theorem isName_of_readSelector? {name : String}
    (h : readSelector? text = some (.field name, f)) :
    IsName name ∧ '(' ∉ name.toList ∧ ')' ∉ name.toList := by
  obtain ⟨hname, hne, hopen, hclose⟩ := name_of_readSelector? h
  rw [hname] at hne
  have hbare := isName_bareName hne
  rw [← hname, String.ofList_toList] at hbare
  exact ⟨hbare, hopen, hclose⟩

/-! ## Widths -/

/-- The ways to write a number of minutes as a width, with gaps between the parts. -/
inductive WritesMinutes (n : Nat) : List Char → Prop
  | intro {time ds unit gap₁ gap₂ gap₃ gap₄ : List Char} (keyword : IsKeyword "time" time)
      (digits : IsDigits ds) (value : Nat.ofDigitChars 10 ds 0 = n) (minutes : IsKeyword "m" unit)
      (gaps : ∀ gap ∈ [gap₁, gap₂, gap₃, gap₄], ∀ c ∈ gap, isGap c = true) :
      WritesMinutes n
        (time ++ (gap₁ ++ '(' :: (gap₂ ++ (ds ++ (gap₃ ++ (unit ++ (gap₄ ++ [')'])))))))

theorem isKeyword_minutes {m : Char} (h : m = 'm' ∨ m = 'M') : IsKeyword "m" [m] := by
  rcases h with rfl | rfl <;> decide

theorem isDigits_of_read? {ds : List Char} {count : Nanos}
    (h : Nanos.read? (ds.takeWhile Char.isDigit) = some count) :
    IsDigits (ds.takeWhile Char.isDigit) := by
  refine ⟨?_, fun c hc => List.mem_takeWhile_imp hc⟩
  intro hnil
  rw [hnil] at h
  cases h

theorem IsDigits.toInt_of_read? {ds : List Char} {count : Nanos} (h : IsDigits ds)
    (hcount : Nanos.read? ds = some count) : count.toInt = Nat.ofDigitChars 10 ds 0 := by
  rw [Nanos.read?, h.readInt?_eq] at hcount
  exact Nanos.ofInt?_eq_some_iff.mp hcount

/-- The width behind an opening parenthesis is the number that stands there, in minutes: a number
too great to be counted in nanoseconds gives none. -/
theorem exists_of_readMinutes? (h : readMinutes? inside = some w) :
    ∃ ds gap unit gap' back, IsDigits ds ∧ IsKeyword "m" unit ∧
      (∀ c ∈ gap, isGap c = true) ∧ (∀ c ∈ gap', isGap c = true) ∧
      ds ++ (gap ++ (unit ++ (gap' ++ ')' :: back))) = inside ∧
      0 < Nat.ofDigitChars 10 ds 0 ∧
      w.toInt = (Nat.ofDigitChars 10 ds 0 : Nat) * 60000000000 := by
  unfold readMinutes? at h
  obtain ⟨count, hread, h⟩ := Option.bind_eq_some_iff.mp h
  have hdigits := isDigits_of_read? hread
  have hcount := hdigits.toInt_of_read? hread
  have hspan := List.takeWhile_append_dropWhile (p := Char.isDigit) (l := inside)
  obtain ⟨gap, hgap, hunit⟩ := exists_gap (inside.dropWhile Char.isDigit)
  split at h
  · cases h
  rename_i m behind hm
  obtain ⟨back, hback, h⟩ := Option.bind_eq_some_iff.mp h
  obtain ⟨gap', hgap', hclose⟩ := exists_gap behind
  split at h
  · rename_i hminutes
    obtain ⟨hm', hpos⟩ := hminutes
    rw [hm] at hunit
    rw [afterMark?_eq_some_iff.mp hback] at hclose
    refine ⟨_, gap, [m], gap', back, hdigits, isKeyword_minutes hm', hgap, hgap', ?_, ?_, ?_⟩
    · rw [hclose, List.singleton_append, hunit, hspan]
    · rw [hcount] at hpos
      exact_mod_cast hpos
    · rw [← hcount]
      exact Nanos.ofInt?_eq_some_iff.mp h
  · cases h

/-- A width that is read is the number of minutes that is written where the grouping starts. -/
theorem exists_writesMinutes (h : readWidth? grouping = some w) :
    ∃ n text, WritesMinutes n text ∧ text <+: Text.trimStart grouping ∧ 0 < n ∧
      w.toInt = n * 60000000000 := by
  rw [readWidth?_eq] at h
  obtain ⟨rest, hkeyword, h⟩ := Option.bind_eq_some_iff.mp h
  obtain ⟨time, htime, hrest⟩ := exists_of_keyword? hkeyword
  obtain ⟨gap₁, hgap₁, hopen⟩ := exists_gap rest
  obtain ⟨inside, hinside, h⟩ := Option.bind_eq_some_iff.mp h
  rw [afterMark?_eq_some_iff.mp hinside] at hopen
  obtain ⟨gap₂, hgap₂, hnumber⟩ := exists_gap inside
  obtain ⟨ds, gap₃, unit, gap₄, back, hdigits, hunit, hgap₃, hgap₄, hback, hpos, hvalue⟩ :=
    exists_of_readMinutes? h
  have hgaps : ∀ gap ∈ [gap₁, gap₂, gap₃, gap₄], ∀ c ∈ gap, isGap c = true := by
    simp only [List.forall_mem_cons]
    exact ⟨hgap₁, hgap₂, hgap₃, hgap₄, List.forall_mem_nil _⟩
  refine ⟨_, _, .intro htime hdigits rfl hunit hgaps, ⟨back, ?_⟩, hpos, hvalue⟩
  calc
    _ = time ++ (gap₁ ++ '(' :: (gap₂ ++ (ds ++ (gap₃ ++ (unit ++ (gap₄ ++ ')' :: back)))))) := by
      simp
    _ = Text.trimStart grouping := by rw [hback, hnumber, hopen, hrest]

/-! ## Rows -/

/-- A reduction in buckets of a positive width refuses no points. -/
theorem exists_rows (h : ∀ f, s.aggregation = some f → 0 < (s.bucketWidth.getD defaultWidth).toInt)
    (ps : List Point) : ∃ rows, s.rows ps = .ok rows := by
  rw [Select.rows]
  cases hf : s.aggregation with
  | none => exact ⟨_, rfl⟩
  | some f =>
    dsimp only
    rw [if_neg (Int.not_le.mpr (h f hf))]
    exact ⟨_, rfl⟩

theorem exists_executeText {σ : Type} [PointStore σ] (h : interpret query now = .ok (.select s))
    (hrows : ∀ ps, ∃ rows, s.rows ps = .ok rows) (store : σ) (session : Session) :
    ∃ rows, session.executeText store query now =
      (.ok (.rows s.measurement (columns rows) rows), session) := by
  obtain ⟨rows, hanswer⟩ := hrows (PointStore.range store s.measurement s.start s.stop)
  refine ⟨rows, ?_⟩
  rw [Session.executeText, h]
  dsimp only [Session.execute, Session.select]
  rw [hanswer]

/-! ## Selections that are read -/

/-- The width is a number of minutes that can be counted in nanoseconds: the number that is written
where the grouping of the query starts, or else five, for a reduction. -/
def IsWidth (query : String) (f : Option Aggregation) (w : Nanos) : Prop :=
  ∃ n : Nat, 0 < n ∧ w.toInt = n * 60000000000 ∧ w.toInt ≤ 9223372036854775807 ∧
    ((∃ c grouping text, selectClauses? query = some c ∧ c.grouping = some grouping ∧
        WritesMinutes n text ∧ text <+: Text.trimStart grouping) ∨
      n = 5 ∧ f.isSome = true)

/-- All that a selection needs to be answered, and that it is answered, over any points and from
any store. -/
structure Select.IsExecutable (query : String) (now : Nanos) (s : Select) : Prop where
  measurement : IsName s.measurement
  field : ∀ name, s.selector = .field name →
    IsName name ∧ '(' ∉ name.toList ∧ ')' ∉ name.toList
  isSome_width : s.aggregation.isSome = true → s.bucketWidth.isSome = true
  width : ∀ w ∈ s.bucketWidth, IsWidth query s.aggregation w
  answered : ∀ ps, ∃ rows, (Statement.select s).rows ps = .ok rows
  executed : ∀ {σ : Type} [PointStore σ] (store : σ) (session : Session),
    ∃ rows, session.executeText store query now =
      (.ok (.rows s.measurement (columns rows) rows), session)

theorem HasClauses.isWidth {c : Clauses} {selector : Selector} {range : Nanos × Nanos}
    (hc : HasClauses query c selector f) (hw : (c.select selector f range).bucketWidth = some w) :
    IsWidth query f w := by
  rcases Option.or_eq_some_iff.mp hw with hw | ⟨-, hw⟩
  · obtain ⟨grouping, hgrouping, hw⟩ := Option.bind_eq_some_iff.mp hw
    obtain ⟨n, text, htext, hprefix, hpos, hvalue⟩ := exists_writesMinutes hw
    exact ⟨n, hpos, hvalue, w.upper,
      .inl ⟨c, grouping, text, hc.clauses_eq, hgrouping, htext, hprefix⟩⟩
  · obtain ⟨f, rfl, rfl⟩ := Option.map_eq_some_iff.mp hw
    exact ⟨5, by decide, by decide, by decide, .inr ⟨rfl, rfl⟩⟩

/-- Whatever a query is made of, if it is read as a selection, the selection has an answer. -/
theorem interpret_executable (h : interpret query now = .ok (.select s)) :
    s.IsExecutable query now := by
  obtain ⟨c, selector, f, range, hc, hrange, rfl⟩ := interpret_eq_select_iff.mp h
  have hsome : f.isSome = true → (c.select selector f range).bucketWidth.isSome = true := by
    intro hf
    obtain ⟨f, rfl⟩ := Option.isSome_iff_exists.mp hf
    simp [Clauses.select]
  have hrows := exists_rows (s := c.select selector f range) fun f' hf' => by
    obtain ⟨w, hw⟩ := Option.isSome_iff_exists.mp (hsome (Option.isSome_of_eq_some hf'))
    obtain ⟨n, hpos, hvalue, -⟩ := hc.isWidth hw
    rw [hw, Option.getD_some]
    omega
  refine ⟨isName_bareName hc.source_ne_nil, ?_, hsome, fun _ => hc.isWidth, hrows, ?_⟩
  · rintro name rfl
    exact isName_of_readSelector? hc.selector_eq
  · intro σ _ store session
    exact exists_executeText h hrows store session

/-- The most minutes whose nanoseconds can be counted, behind zeros that count nothing, in a query
that ends in a text that is not read. -/
def longestQuery : String :=
  "select Max(\"up\\\")) from \"a b\"c where time>=1 group by TIME ( 0153722867\tM ) fill(0"

/-- What the query is read as. -/
def longest : Select :=
  ⟨"a b\"c", .field "up", some .max, ⟨1, by decide, by decide⟩, .zero,
    some ⟨9223372020000000000, by decide, by decide⟩⟩

theorem interpret_executable_longest :
    interpret longestQuery .zero = .ok (.select longest) ∧
      longest.IsExecutable longestQuery .zero := by
  have h : interpret longestQuery .zero = .ok (.select longest) := by decide +kernel
  exact ⟨h, interpret_executable h⟩

end TimeSeries.Query
