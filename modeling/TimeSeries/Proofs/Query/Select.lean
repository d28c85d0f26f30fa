/-
# TimeSeries.Proofs.Query.Select — a query taken apart.

What a query is read as comes from one of four readers (`cases_of_interpretTrimmed`). A selection is
read in four steps, from its clauses on, and each step may refuse it (`readSelect_eq`). So the
selections that are read are told by their clauses alone (`interpret_eq_select_iff`). The readers of
the clauses are put as the steps they take, one after the other.
-/
import TimeSeries.Proofs.Query.Interpreted

namespace TimeSeries.Query

variable {now : Nanos} {s : Select} {statement : Statement} {text : List Char} {query : String}
  {c : Clauses} {selector : Selector} {f : Option Aggregation}

/-! ## The kinds of statements -/

theorem eq_of_readShow? (h : readShow? text = some statement) :
    statement = .showDatabases ∨ statement = .showMeasurements := by
  unfold readShow? at h
  obtain ⟨rest, -, h⟩ := Option.bind_eq_some_iff.mp h
  obtain ⟨⟨shown, r⟩, hshown, h⟩ := Option.bind_eq_some_iff.mp h
  obtain rfl : shown = statement := by
    dsimp only at h
    split at h
    · exact Option.some.inj h
    · cases h
  rcases Option.or_eq_some_iff.mp hshown with hshown | ⟨-, hshown⟩
  · obtain ⟨_, -, heq⟩ := Option.map_eq_some_iff.mp hshown
    exact .inl (Prod.mk.inj heq).1.symm
  · obtain ⟨_, -, heq⟩ := Option.map_eq_some_iff.mp hshown
    exact .inr (Prod.mk.inj heq).1.symm

/-- A query that is read shows, creates, uses or selects something. -/
theorem cases_of_interpretTrimmed (h : interpretTrimmed text now = .ok statement) :
    (statement = .showDatabases ∨ statement = .showMeasurements) ∨
    (∃ rest name, keyword? "create" text = some rest ∧ readCreate? rest = some name ∧
      statement = .createDatabase name) ∨
    (∃ rest name, keyword? "use" text = some rest ∧ readName? rest = some name ∧
      statement = .use name) ∨
    ∃ rest s, keyword? "select" text = some rest ∧ readSelect rest text now = .ok s ∧
      statement = .select s := by
  unfold interpretTrimmed at h
  dsimp only at h
  split at h
  · cases h
  split at h
  · rename_i shown hshow
    cases h
    exact .inl (eq_of_readShow? hshow)
  split at h
  · rename_i rest hcreate
    split at h
    · rename_i name hname
      cases h
      exact .inr (.inl ⟨rest, name, hcreate, hname, rfl⟩)
    · cases h
  split at h
  · rename_i rest huse
    split at h
    · rename_i name hname
      cases h
      exact .inr (.inr (.inl ⟨rest, name, huse, hname, rfl⟩))
    · cases h
  split at h
  · rename_i rest hselect
    split at h
    · rename_i s hread
      cases h
      exact .inr (.inr (.inr ⟨rest, s, hselect, hread, rfl⟩))
    · cases h
  · cases h

/-! ## The steps of a selection -/

/-- The time range that the clauses give: all times from zero to now, if there is no condition. -/
def Clauses.range (c : Clauses) (now : Nanos) : Except Error (Nanos × Nanos) :=
  c.condition.elim (.ok (.zero, now)) (readRange · now)

/-- The selection that the clauses make, with a selector and a time range. -/
def Clauses.select (c : Clauses) (selector : Selector) (f : Option Aggregation)
    (range : Nanos × Nanos) : Select :=
  ⟨String.ofList (bareName c.source), selector, f, range.1, range.2,
    (c.grouping.bind readWidth?).or (f.map fun _ => defaultWidth)⟩

theorem readSelect_eq (body query : List Char) (now : Nanos) :
    readSelect body query now =
      match clauses? body with
      | none => .error (.invalidQuery (String.ofList query))
      | some c =>
        match readSelector? c.selector with
        | none => .error (.invalidSyntax (String.ofList query))
        | some (selector, f) =>
          if bareName c.source = [] then .error (.missingMeasurement (String.ofList query))
          else (c.range now).map (c.select selector f) := by
  unfold readSelect
  dsimp only
  cases clauses? body with
  | none => rfl
  | some c =>
    dsimp only
    cases readSelector? c.selector with
    | none => rfl
    | some selected =>
      obtain ⟨selector, f⟩ := selected
      dsimp only
      by_cases hname : bareName c.source = []
      · rw [if_pos (List.isEmpty_iff.mpr hname), if_pos hname]
        rfl
      · rw [if_neg (mt List.isEmpty_iff.mp hname), if_neg hname, Clauses.range]
        cases c.condition with
        | none => rfl
        | some condition =>
          dsimp only [Option.elim]
          cases readRange condition now <;> rfl

/-! ## The steps of the clauses -/

/-- The clauses that FROM and the words behind it cut out of what follows SELECT. -/
def clausesAt (body : List Char) (fromWord : Word) (later : List Word) : Clauses :=
  let whereWord := later.find? (·.is "where")
  let groupBy := findGroupBy? later
  let whereStart := (whereWord.map Word.start).getD body.length
  let groupStart := (groupBy.map (·.1.start)).getD body.length
  { selector := slice body 0 fromWord.start
    source := slice body fromWord.stop (min whereStart groupStart)
    condition := whereWord.map fun w =>
      slice body w.stop (if w.start < groupStart then groupStart else body.length)
    grouping := groupBy.map fun g => body.drop g.2.stop }

theorem clauses?_eq (body : List Char) :
    clauses? body =
      match (words body).dropWhile (!·.is "from") with
      | [] => none
      | fromWord :: later => some (clausesAt body fromWord later) := rfl

/-! ## Marks -/

/-- What follows a mark at the start of a text. -/
def afterMark? (mark : Char) : List Char → Option (List Char)
  | [] => none
  | c :: s => if c = mark then some s else none

theorem afterMark?_eq_some_iff {mark : Char} {s rest : List Char} :
    afterMark? mark s = some rest ↔ s = mark :: rest := by
  cases s with
  | nil => simp [afterMark?]
  | cons c s => simp [afterMark?]

theorem afterMark?_eq_none {mark : Char} {s : List Char} (h : ∀ rest, s = mark :: rest → False) :
    afterMark? mark s = none := by
  rw [Option.eq_none_iff_forall_ne_some]
  exact fun rest hrest => h rest (afterMark?_eq_some_iff.mp hrest)

/-! ## The steps of a selector -/

theorem readAggregation?_eq (s : List Char) :
    readAggregation? s = Aggregation.all.findSome? fun f =>
      ((keyword? f.name s).bind fun rest => afterMark? '(' (dropGap rest)).map fun rest =>
        (f, rest) := by
  rw [readAggregation?]
  congr 1
  funext f
  cases keyword? f.name s with
  | none => rfl
  | some rest =>
    simp only [Option.map_some, Option.bind_some]
    split
    · rename_i inside hopen
      rw [Option.some.inj hopen, afterMark?_eq_some_iff.mpr rfl]
      rfl
    · rename_i hopen
      rw [afterMark?_eq_none fun inside hinside => hopen inside (congrArg some hinside)]
      rfl

/-- The text that names the fields of a selector, and the reduction around it. -/
def fieldsOf (clause : List Char) : List Char × Option Aggregation :=
  match readAggregation? (Text.trim clause) with
  | some (f, rest) => (Text.stripEnd (· == ')') (Text.trim rest), some f)
  | none => (Text.trim clause, none)

/-- The selector that a name makes; a star selects all fields. -/
def selectorOf (name : List Char) : Selector :=
  if name = ['*'] then .all else .field (String.ofList name)

theorem isRefused_iff (name : List Char) :
    (name.isEmpty || name.any fun c => c == '(' || c == ')') = true ↔
      name = [] ∨ '(' ∈ name ∨ ')' ∈ name := by
  simp only [Bool.or_eq_true, List.isEmpty_iff, List.any_eq_true, beq_iff_eq]
  refine or_congr_right ⟨?_, ?_⟩
  · rintro ⟨c, hc, rfl | rfl⟩
    · exact .inl hc
    · exact .inr hc
  · rintro (hc | hc)
    · exact ⟨_, hc, .inl rfl⟩
    · exact ⟨_, hc, .inr rfl⟩

theorem readSelector?_eq (clause : List Char) :
    readSelector? clause =
      if bareName (fieldsOf clause).1 = [] ∨ '(' ∈ bareName (fieldsOf clause).1 ∨
        ')' ∈ bareName (fieldsOf clause).1 then none
      else some (selectorOf (bareName (fieldsOf clause).1), (fieldsOf clause).2) := by
  cases hread : readAggregation? (Text.trim clause) <;>
    simp only [readSelector?, fieldsOf, hread, isRefused_iff, selectorOf] <;>
    split_ifs <;> rfl

/-- A field that is read has the name that stands in the clause. -/
theorem name_of_readSelector? {name : String} (h : readSelector? text = some (.field name, f)) :
    name.toList = bareName (fieldsOf text).1 ∧ name.toList ≠ [] ∧ '(' ∉ name.toList ∧
      ')' ∉ name.toList := by
  rw [readSelector?_eq] at h
  split at h
  · cases h
  · rename_i hplain
    have heq := (Prod.mk.inj (Option.some.inj h)).1
    rw [selectorOf] at heq
    split at heq
    · cases heq
    · obtain rfl := Selector.field.inj heq
      rw [String.toList_ofList]
      exact ⟨rfl, by simpa only [not_or] using hplain⟩

/-! ## The steps of a time -/

/-- The time that digits and their unit denote, with a sign put before them. -/
def readCount? (sign : Int) (unsigned : List Char) : Option Nanos :=
  (Decimal.readNat? (unsigned.takeWhile Char.isDigit)).bind fun n =>
    (Nanos.ofInt? (sign * n)).bind fun count =>
      if (Text.lower (unsigned.dropWhile Char.isDigit)).isEmpty then some count
      else if Text.lower (unsigned.dropWhile Char.isDigit) = ['m', 's'] then count.mul? .milli
      else none

theorem readTime?_eq (literal : List Char) :
    readTime? literal =
      match afterMark? '-' literal with
      | some unsigned => readCount? (-1) unsigned
      | none => readCount? 1 literal := by
  cases literal with
  | nil => rfl
  | cons c s =>
    by_cases hc : c = '-'
    · rw [hc]
      rfl
    · have hnone : afterMark? '-' (c :: s) = none := if_neg hc
      rw [hnone]
      dsimp only
      unfold readTime?
      split
      rename_i sign unsigned hsign
      split at hsign
      · rename_i heq
        exact absurd (List.cons.inj heq).1 hc
      · obtain ⟨rfl, rfl⟩ := Prod.mk.inj hsign
        rfl

/-! ## The steps of a width -/

/-- The number, its unit and the closing parenthesis of a width, behind the opening one. -/
def readMinutes? (inside : List Char) : Option Nanos :=
  (Nanos.read? (inside.takeWhile Char.isDigit)).bind fun count =>
    match dropGap (inside.dropWhile Char.isDigit) with
    | [] => none
    | unit :: behind =>
      (afterMark? ')' (dropGap behind)).bind fun _ =>
        if (unit = 'm' ∨ unit = 'M') ∧ 0 < count.toInt then count.mul? .minute else none

theorem readWidth?_eq (grouping : List Char) :
    readWidth? grouping =
      (keyword? "time" (Text.trimStart grouping)).bind fun rest =>
        (afterMark? '(' (dropGap rest)).bind fun inside => readMinutes? (dropGap inside) := by
  rw [readWidth?]
  cases keyword? "time" (Text.trimStart grouping) with
  | none => rfl
  | some rest =>
    simp only [Option.bind_eq_bind, Option.bind_some]
    split
    · rename_i inside hopen
      rw [hopen, afterMark?_eq_some_iff.mpr rfl, Option.bind_some, readMinutes?]
      congr 1
      funext count
      cases dropGap ((dropGap inside).dropWhile Char.isDigit) with
      | nil => rfl
      | cons unit behind =>
        dsimp only
        split
        · rename_i back hclose
          rw [hclose, afterMark?_eq_some_iff.mpr rfl]
          rfl
        · rename_i hclose
          rw [afterMark?_eq_none hclose]
          rfl
    · rename_i hopen
      rw [afterMark?_eq_none hopen]
      rfl

/-! ## Selections by their clauses -/

/-- The clauses of a query that starts with SELECT. -/
def selectClauses? (query : String) : Option Clauses :=
  (keyword? "select" (Text.trim query.toList)).bind clauses?

/-- The clauses are those of the query, and they name what is selected, and where from. -/
structure HasClauses (query : String) (c : Clauses) (selector : Selector)
    (f : Option Aggregation) : Prop where
  clauses_eq : selectClauses? query = some c
  selector_eq : readSelector? c.selector = some (selector, f)
  source_ne_nil : bareName c.source ≠ []

/-- Once the clauses are read, it is left to the time range whether a selection is refused. -/
theorem HasClauses.interpret_eq (h : HasClauses query c selector f) (now : Nanos) :
    interpret query now = (c.range now).map fun range => .select (c.select selector f range) := by
  obtain ⟨rest, hselect, hc⟩ := Option.bind_eq_some_iff.mp h.clauses_eq
  rw [interpret, interpretTrimmed_of_select hselect, readSelect_eq, hc]
  dsimp only
  rw [h.selector_eq]
  dsimp only
  rw [if_neg h.source_ne_nil]
  cases c.range now <;> rfl

theorem interpret_eq_select_iff : interpret query now = .ok (.select s) ↔
    ∃ c selector f range, HasClauses query c selector f ∧ c.range now = .ok range ∧
      s = c.select selector f range := by
  constructor
  · intro h
    rcases cases_of_interpretTrimmed h with (h | h) | ⟨_, _, -, -, h⟩ | ⟨_, _, -, -, h⟩ |
      ⟨rest, s', hselect, hread, heq⟩
    · cases h
    · cases h
    · cases h
    · cases h
    · obtain rfl := Statement.select.inj heq
      rw [readSelect_eq] at hread
      split at hread
      · cases hread
      rename_i c hc
      split at hread
      · cases hread
      rename_i selector f hselector
      split at hread
      · cases hread
      rename_i hname
      cases hrange : c.range now with
      | error e =>
        rw [hrange] at hread
        cases hread
      | ok range =>
        rw [hrange] at hread
        have hclauses : selectClauses? query = some c := by
          rw [selectClauses?, hselect]
          exact hc
        exact ⟨c, selector, f, range, ⟨hclauses, hselector, hname⟩, hrange,
          (Except.ok.inj hread).symm⟩
  · rintro ⟨c, selector, f, range, h, hrange, rfl⟩
    rw [h.interpret_eq, hrange]
    rfl

end TimeSeries.Query
