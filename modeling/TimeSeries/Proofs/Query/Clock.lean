/-
# TimeSeries.Proofs.Query.Clock — what the clock does to a reading.

The clock is read for one thing, the end of a time range that gives none. So it neither makes a
query readable nor makes it unreadable, and two readings of one query at two times differ in the end
of the range at most. They do when the clauses leave the end to the clock (`EndsNow`), which is told
by the letters of the condition alone: `time` is not among them, or no `<=` comes behind.
-/
import TimeSeries.Proofs.Query.Bounds

namespace TimeSeries.Query

open Text (IsFirstCut IsAbsent lower)

variable {query : String} {condition : List Char} {c : Clauses} {now : Nanos}

/-! ## Upper bounds of conditions -/

/-- The letters `time` stand in the condition, in any case, and a `<=` behind them. -/
def HasUpper (condition : List Char) : Prop :=
  ∃ before between behind,
    lower condition = before ++ "time".toList ++ between ++ "<=".toList ++ behind

/-- The condition gives an upper bound: the time behind the first `<=` behind the first `time`. -/
def GivesUpper (condition : List Char) (stop : Nanos) : Prop :=
  ∃ before after front back, IsFirstCut "time".toList condition before after ∧
    IsFirstCut "<=".toList after front back ∧ readTime back = .ok stop

/-- It is enough to look behind the first `time`. -/
theorem hasUpper_iff : HasUpper condition ↔ ∃ before after front back,
    IsFirstCut "time".toList condition before after ∧ IsFirstCut "<=".toList after front back := by
  constructor
  · rintro ⟨a, b, c, h⟩
    obtain ⟨_, behind, rfl, h, -⟩ := List.map_eq_append_iff.mp h
    obtain ⟨_, sign, rfl, h, hsign⟩ := List.map_eq_append_iff.mp h
    obtain ⟨_, between, rfl, h, -⟩ := List.map_eq_append_iff.mp h
    obtain ⟨front, w, rfl, -, hw⟩ := List.map_eq_append_iff.mp h
    -- This need not be the first `time`, but then the `<=` stands behind the first one, too.
    have hs : front ++ w ++ between ++ sign ++ behind =
      front ++ (w ++ (between ++ (sign ++ behind))) := by simp
    rw [hs]
    cases hcut : Text.cut? "time".toList (front ++ (w ++ (between ++ (sign ++ behind)))) with
    | none => exact absurd rfl (Text.cut?_eq_none_iff.mp hcut _ _ _ hw)
    | some parts =>
      obtain ⟨before, after⟩ := parts
      have hfirst := Text.cut?_eq_some_iff.mp hcut
      obtain ⟨more, rfl⟩ := hfirst.suffix hw rfl
      cases hupper : Text.cut? "<=".toList (more ++ (between ++ (sign ++ behind))) with
      | none =>
        refine absurd ?_ (Text.cut?_eq_none_iff.mp hupper (more ++ between) sign behind hsign)
        rw [List.append_assoc]
      | some parts => exact ⟨before, _, parts.1, parts.2, hfirst, Text.cut?_eq_some_iff.mp hupper⟩
  · rintro ⟨before, after, front, back, ⟨⟨w, hw, rfl⟩, -⟩, ⟨⟨sign, hsign, rfl⟩, -⟩⟩
    exact ⟨lower before, lower front, lower back, by simp [hw, hsign]⟩

/-! ## Ranges at two times -/

/-- A condition without an upper bound leaves the end to the clock. -/
theorem exists_readRange_eq_map (h : ¬ HasUpper condition) :
    ∃ start : Except Error Nanos, ∀ now, readRange condition now = start.map (·, now) := by
  cases hcut : Text.cut? "time".toList condition with
  | none =>
    refine ⟨.ok .zero, fun now => ?_⟩
    rw [readRange, hcut]
    rfl
  | some parts =>
    obtain ⟨before, after⟩ := parts
    refine ⟨readBound ">=" .zero after, fun now => ?_⟩
    have habsent : Text.cut? "<=".toList after = none := by
      rw [Option.eq_none_iff_forall_ne_some]
      rintro ⟨front, back⟩ hupper
      exact h (hasUpper_iff.mpr ⟨before, after, front, back, Text.cut?_eq_some_iff.mp hcut,
        Text.cut?_eq_some_iff.mp hupper⟩)
    rw [readRange, hcut]
    dsimp only
    rw [readBound_eq_ok_iff.mpr (.default (Text.cut?_eq_none_iff.mp habsent))]
    cases readBound ">=" .zero after <;> rfl

theorem readBound_eq_readTime {sign : String} {text front back : List Char}
    (h : IsFirstCut sign.toList text front back) (default : Nanos) :
    readBound sign default text = readTime back := by
  rw [readBound, Text.cut?_eq_some_iff.mpr h]

/-- A condition with an upper bound has no use for the clock. -/
theorem HasUpper.readRange_eq (h : HasUpper condition) :
    ∃ range : Except Error (Nanos × Nanos), (∀ now, readRange condition now = range) ∧
      ∀ bounds, range = .ok bounds → GivesUpper condition bounds.2 := by
  obtain ⟨before, after, front, back, htime, hupper⟩ := hasUpper_iff.mp h
  refine ⟨do let start ← readBound ">=" .zero after; let stop ← readTime back; .ok (start, stop),
    fun now => ?_, fun bounds hbounds => ?_⟩
  · rw [readRange, Text.cut?_eq_some_iff.mpr htime]
    dsimp only
    rw [readBound_eq_readTime hupper]
  · obtain ⟨start, -, hbounds⟩ := Outcome.bind_eq_ok_iff.mp hbounds
    obtain ⟨stop, hstop, hbounds⟩ := Outcome.bind_eq_ok_iff.mp hbounds
    obtain rfl := Except.ok.inj hbounds
    exact ⟨before, after, front, back, htime, hupper, hstop⟩

/-! ## Queries at two times -/

/-- The query selects, without a condition or under one without an upper bound. -/
def EndsNow (query : String) : Prop :=
  ∃ c, selectClauses? query = some c ∧ ∀ condition ∈ c.condition, ¬ HasUpper condition

theorem endsNow_iff (hc : selectClauses? query = some c) :
    EndsNow query ↔ ∀ condition ∈ c.condition, ¬ HasUpper condition := by
  simp only [EndsNow, hc, Option.some.injEq, exists_eq_left']

theorem Clauses.exists_range_eq_map (h : ∀ condition ∈ c.condition, ¬ HasUpper condition) :
    ∃ start : Except Error Nanos, ∀ now, c.range now = start.map (·, now) := by
  cases hcondition : c.condition with
  | none =>
    refine ⟨.ok .zero, fun now => ?_⟩
    rw [Clauses.range, hcondition]
    rfl
  | some condition =>
    obtain ⟨start, hstart⟩ := exists_readRange_eq_map (h condition hcondition)
    refine ⟨start, fun now => ?_⟩
    rw [Clauses.range, hcondition]
    exact hstart now

theorem Clauses.range_eq_of_hasUpper (hc : c.condition = some condition) (h : HasUpper condition) :
    ∃ range : Except Error (Nanos × Nanos), (∀ now, c.range now = range) ∧
      ∀ bounds, range = .ok bounds → GivesUpper condition bounds.2 := by
  obtain ⟨range, hrange, hgives⟩ := h.readRange_eq
  refine ⟨range, fun now => ?_, hgives⟩
  rw [Clauses.range, hc]
  exact hrange now

/-- Only a query that has the clauses of a selection is read with an eye to the clock. -/
theorem interpret_eq_of_selectClauses?_eq_none (h : selectClauses? query = none) (n₁ n₂ : Nanos) :
    interpret query n₁ = interpret query n₂ := by
  rw [interpret, interpret]
  cases hselect : keyword? "select" (Text.trim query.toList) with
  | none => simp only [interpretTrimmed, hselect]
  | some rest =>
    have hnone : clauses? rest = none := by
      rw [selectClauses?, hselect] at h
      exact h
    rw [interpretTrimmed_of_select hselect, interpretTrimmed_of_select hselect, readSelect_eq,
      readSelect_eq, hnone]

/-- A selection is refused for its selector or its source whatever the time is. -/
theorem error_or_hasClauses (h : selectClauses? query = some c) :
    (∃ e, ∀ now, interpret query now = .error e) ∨
      ∃ selector f, HasClauses query c selector f := by
  obtain ⟨rest, hselect, hc⟩ := Option.bind_eq_some_iff.mp h
  have hread : ∀ now, interpret query now = _ := fun now => interpretTrimmed_of_select hselect now
  simp only [readSelect_eq, hc] at hread
  cases hselector : readSelector? c.selector with
  | none =>
    simp only [hselector] at hread
    exact .inl ⟨_, hread⟩
  | some selected =>
    obtain ⟨selector, f⟩ := selected
    by_cases hsource : bareName c.source = []
    · simp only [hselector, if_pos hsource] at hread
      exact .inl ⟨_, hread⟩
    · exact .inr ⟨selector, f, h, hselector, hsource⟩

/-- What a selection that leaves the end to the clock is read as, or refused for, is told without
the end. -/
theorem EndsNow.interpret_eq (h : EndsNow query) : ∃ read : Except Error Select,
    ∀ now, interpret query now = read.map fun s => .select { s with stop := now } := by
  obtain ⟨c, hc, hends⟩ := h
  rcases error_or_hasClauses hc with ⟨e, he⟩ | ⟨selector, f, hclauses⟩
  · exact ⟨.error e, he⟩
  obtain ⟨start, hstart⟩ := Clauses.exists_range_eq_map hends
  refine ⟨start.map fun t => c.select selector f (t, .zero), fun now => ?_⟩
  rw [hclauses.interpret_eq, hstart]
  cases start <;> rfl

/-- Any other query is read as one statement, or refused for one reason, at all times. The end of a
selection is the upper bound that its condition gives. -/
theorem interpret_eq_of_not_endsNow (h : ¬ EndsNow query) : ∃ read : Except Error Statement,
    (∀ now, interpret query now = read) ∧ ∀ s, read = .ok (.select s) →
      ∃ c condition, selectClauses? query = some c ∧ c.condition = some condition ∧
        GivesUpper condition s.stop := by
  cases hc : selectClauses? query with
  | none =>
    refine ⟨_, fun now => interpret_eq_of_selectClauses?_eq_none hc now .zero, fun s hs => ?_⟩
    obtain ⟨c, _, _, _, hclauses, -⟩ := interpret_eq_select_iff.mp hs
    rw [hclauses.clauses_eq] at hc
    cases hc
  | some c =>
    rw [endsNow_iff hc] at h
    push Not at h
    obtain ⟨condition, hcondition, hupper⟩ := h
    rcases error_or_hasClauses hc with ⟨e, he⟩ | ⟨selector, f, hclauses⟩
    · exact ⟨.error e, he, fun s hs => nomatch hs⟩
    obtain ⟨range, hrange, hgives⟩ := Clauses.range_eq_of_hasUpper hcondition hupper
    refine ⟨range.map fun bounds => .select (c.select selector f bounds), fun now => ?_, ?_⟩
    · rw [hclauses.interpret_eq, hrange]
    · intro s hs
      cases range with
      | error e => cases hs
      | ok bounds =>
        obtain rfl := Statement.select.inj (Except.ok.inj hs)
        exact ⟨c, condition, rfl, hcondition, hgives bounds rfl⟩

/-- At two times a query is refused for one reason, or it is read at both, and what it is read as
differs in the end of the range at most. A selection that leaves the end to the clock ends at the
one time and at the other. Any other query is read as one statement, and the end of its range, if it
has one, is the upper bound that its condition gives. -/
theorem interpret_two_times (query : String) (n₁ n₂ : Nanos) :
    (∃ e, interpret query n₁ = .error e ∧ interpret query n₂ = .error e) ∨
      ∃ st₁ st₂, interpret query n₁ = .ok st₁ ∧ interpret query n₂ = .ok st₂ ∧
        (EndsNow query → ∃ s : Select,
          st₁ = .select { s with stop := n₁ } ∧ st₂ = .select { s with stop := n₂ }) ∧
        (¬ EndsNow query → st₁ = st₂ ∧ ∀ s, st₁ = .select s →
          ∃ c condition, selectClauses? query = some c ∧ c.condition = some condition ∧
            GivesUpper condition s.stop) := by
  by_cases h : EndsNow query
  · obtain ⟨read, hread⟩ := h.interpret_eq
    rw [hread n₁, hread n₂]
    cases read with
    | error e => exact .inl ⟨e, rfl, rfl⟩
    | ok s => exact .inr ⟨_, _, rfl, rfl, fun _ => ⟨s, rfl, rfl⟩, fun hnot => absurd h hnot⟩
  · obtain ⟨read, hread, hgives⟩ := interpret_eq_of_not_endsNow h
    rw [hread n₁, hread n₂]
    cases read with
    | error e => exact .inl ⟨e, rfl, rfl⟩
    | ok st =>
      exact .inr ⟨st, st, rfl, rfl, fun hends => absurd hends h,
        fun _ => ⟨rfl, fun s hs => hgives s (congrArg Except.ok hs)⟩⟩

end TimeSeries.Query
