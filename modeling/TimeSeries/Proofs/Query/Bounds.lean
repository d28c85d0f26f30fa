/-
# TimeSeries.Proofs.Query.Bounds — which comparisons set the ends of a time range.

A condition is not taken apart into comparisons. Behind the word `time` the first `>=` gives the
start and the first `<=` the stop, whatever stands to their left, and what stands before the word
gives nothing (`interpret_bounds`). So a comparison of something else behind `time` sets a bound
(`not_takesTimesOnly`).
-/
import TimeSeries.Proofs.Outcome
import TimeSeries.Proofs.Query.Select

namespace TimeSeries.Query

open Text (IsFirstCut IsAbsent)

variable {now default t : Nanos} {s text condition before w after : List Char} {sign query : String}
  {c : Clauses} {selector : Selector} {f : Option Aggregation}

/-! ## Bounds behind a text -/

/-- The bound that a comparison sets: the time behind its first place in the text, or the default
if it stands nowhere. -/
inductive SetsBound (sign : String) (default : Nanos) (text : List Char) : Nanos → Prop
  | default (absent : IsAbsent sign.toList text) : SetsBound sign default text default
  | read {before after : List Char} {t : Nanos} (first : IsFirstCut sign.toList text before after)
      (literal : readTime after = .ok t) : SetsBound sign default text t

theorem readBound_eq_ok_iff :
    readBound sign default text = .ok t ↔ SetsBound sign default text t := by
  unfold readBound
  cases hcut : Text.cut? sign.toList text with
  | none =>
    have habsent := Text.cut?_eq_none_iff.mp hcut
    constructor
    · intro h
      obtain rfl := Except.ok.inj h
      exact .default habsent
    · rintro (_ | ⟨hfirst, -⟩)
      · rfl
      · rw [Text.cut?_eq_some_iff.mpr hfirst] at hcut
        cases hcut
  | some parts =>
    have hfirst := Text.cut?_eq_some_iff.mp hcut
    constructor
    · exact fun h => .read hfirst h
    · rintro (habsent | ⟨hfirst', hread⟩)
      · rw [Text.cut?_eq_none_iff.mpr habsent] at hcut
        cases hcut
      · obtain ⟨rfl, rfl⟩ := hfirst.unique hfirst'
        exact hread

theorem readBound_append (habsent : IsAbsent sign.toList s)
    (hlast : ∀ d ∈ s.getLast?, d.toLower ∉ sign.toList) (default : Nanos) (text : List Char) :
    readBound sign default (s ++ text) = readBound sign default text := by
  rw [readBound, readBound, Text.cut?_append_of_isAbsent habsent hlast]
  cases Text.cut? sign.toList text <;> rfl

/-! ## The word `time` -/

/-- No comparison stands behind the first letters `time` of the text, if it has them. -/
def IsUncompared (text : List Char) : Prop :=
  ∀ before after, IsFirstCut "time".toList text before after →
    IsAbsent ">=".toList after ∧ IsAbsent "<=".toList after

/-- The word `time` stands in the text on its own, with no character of a name beside it. Its
letters may stand inside other words before it, but no comparison does between them and the word. -/
structure IsTimeAt (text before w after : List Char) : Prop where
  eq : text = before ++ (w ++ after)
  keyword : IsKeyword "time" w
  starts : ∀ c ∈ before.getLast?, Text.isNameChar c = false
  ends : ∀ c ∈ after.head?, Text.isNameChar c = false
  uncompared : IsUncompared (before ++ w)

/-- No letter of `time` is a character of a comparison. -/
theorem IsKeyword.toLower_not_mem (h : IsKeyword "time" w) {d : Char} (hd : d ∈ w) :
    d.toLower ∉ ">=".toList ∧ d.toLower ∉ "<=".toList := by
  have hletters : ∀ l ∈ ['t', 'i', 'm', 'e'], l ∉ ['>', '='] ∧ l ∉ ['<', '='] := by simp
  refine hletters _ ?_
  rw [← show Text.lower w = ['t', 'i', 'm', 'e'] from h]
  exact List.mem_map_of_mem hd

/-- The time range that the comparisons of a text give. -/
def readBounds (text : List Char) (now : Nanos) : Except Error (Nanos × Nanos) := do
  let start ← readBound ">=" .zero text
  let stop ← readBound "<=" now text
  .ok (start, stop)

theorem readBounds_eq_ok_iff {range : Nanos × Nanos} : readBounds text now = .ok range ↔
    SetsBound ">=" .zero text range.1 ∧ SetsBound "<=" now text range.2 := by
  rw [readBounds, ← readBound_eq_ok_iff, ← readBound_eq_ok_iff]
  constructor
  · intro h
    obtain ⟨start, hstart, h⟩ := Outcome.bind_eq_ok_iff.mp h
    obtain ⟨stop, hstop, h⟩ := Outcome.bind_eq_ok_iff.mp h
    obtain rfl := Except.ok.inj h
    exact ⟨hstart, hstop⟩
  · rintro ⟨hstart, hstop⟩
    rw [hstart, hstop]
    rfl

/-- The bounds are read behind the word `time`: the letters that are found may stand before it, but
nothing between them and the word is a comparison. -/
theorem IsTimeAt.readRange_eq (h : IsTimeAt text before w after) (now : Nanos) :
    readRange text now = readBounds after now := by
  obtain ⟨rfl, hw, -, -, huncompared⟩ := h
  cases hcut : Text.cut? "time".toList (before ++ w) with
  | none =>
    have hwhole : before ++ w = before ++ (w ++ []) := by rw [List.append_nil]
    exact absurd hwhole (Text.cut?_eq_none_iff.mp hcut before w [] hw)
  | some parts =>
    obtain ⟨front, back⟩ := parts
    have hfirst := Text.cut?_eq_some_iff.mp hcut
    obtain ⟨hlower, hupper⟩ := huncompared _ _ hfirst
    have happend := Text.cut?_eq_some_iff.mpr (hfirst.append after)
    rw [List.append_assoc] at happend
    rw [readRange, happend]
    dsimp only
    -- No comparison starts in `back`, which ends with the word, and reaches beyond it.
    have hlast : ∀ d ∈ back.getLast?, d ∈ w := fun d hd => hfirst.mem_of_getLast? hw.ne_nil hd
    rw [readBound_append hlower fun d hd => (hw.toLower_not_mem (hlast d hd)).1,
      readBound_append hupper fun d hd => (hw.toLower_not_mem (hlast d hd)).2, readBounds]

theorem IsUncompared.readRange_eq (h : IsUncompared text) (now : Nanos) :
    readRange text now = .ok (.zero, now) := by
  rw [readRange]
  cases hcut : Text.cut? "time".toList text with
  | none => rfl
  | some parts =>
    obtain ⟨hlower, hupper⟩ := h _ _ (Text.cut?_eq_some_iff.mp hcut)
    dsimp only
    rw [readBound_eq_ok_iff.mpr (.default hlower), readBound_eq_ok_iff.mpr (.default hupper)]
    rfl

/-! ## Bounds of selections -/

/-- A selection with a condition takes its bounds from behind the word `time`, each from the first
comparison that stands there, and it is refused if no time can be read at one. A condition with no
comparison behind `time` leaves the range from zero to now. -/
theorem interpret_bounds (hc : HasClauses query c selector f)
    (hcondition : c.condition = some condition) (now : Nanos) :
    (IsUncompared condition →
      ∃ s, interpret query now = .ok (.select s) ∧ s.start = .zero ∧ s.stop = now) ∧
    ∀ before w after, IsTimeAt condition before w after → ∀ start stop,
      (∃ s, interpret query now = .ok (.select s) ∧ s.start = start ∧ s.stop = stop) ↔
        SetsBound ">=" .zero after start ∧ SetsBound "<=" now after stop := by
  have hrange : c.range now = readRange condition now := by
    rw [Clauses.range, hcondition]
    rfl
  rw [hc.interpret_eq, hrange]
  constructor
  · intro huncompared
    rw [huncompared.readRange_eq]
    exact ⟨_, rfl, rfl, rfl⟩
  · intro before w after htime start stop
    rw [htime.readRange_eq]
    constructor
    · rintro ⟨s, hs, rfl, rfl⟩
      cases hread : readBounds after now with
      | error e =>
        rw [hread] at hs
        cases hs
      | ok range =>
        rw [hread] at hs
        obtain rfl := Statement.select.inj (Except.ok.inj hs)
        exact readBounds_eq_ok_iff.mp hread
    · intro hbounds
      have hread : readBounds after now = .ok (start, stop) := readBounds_eq_ok_iff.mpr hbounds
      rw [hread]
      exact ⟨_, rfl, rfl, rfl⟩

/-- A query whose condition has `time` inside a word, then as a word, and compares `load` behind
it. -/
def loadQuery : String :=
  "SELECT value FROM cpu WHERE uptime = 1 and Time >= 5ms and load >= 7 and load <= -8"

/-- The clauses of the query. -/
def loadClauses : Clauses where
  selector := " value ".toList
  source := " cpu ".toList
  condition := some " uptime = 1 and Time >= 5ms and load >= 7 and load <= -8".toList
  grouping := none

theorem hasClauses_load : HasClauses loadQuery loadClauses (.field "value") none :=
  ⟨by decide +kernel, by decide +kernel, by decide +kernel⟩

theorem isTimeAt_load : IsTimeAt " uptime = 1 and Time >= 5ms and load >= 7 and load <= -8".toList
    " uptime = 1 and ".toList "Time".toList " >= 5ms and load >= 7 and load <= -8".toList where
  eq := by decide +kernel
  keyword := by decide
  starts := by
    intro c hc
    obtain rfl : ' ' = c := Option.some.inj hc
    decide +kernel
  ends := by
    intro c hc
    obtain rfl : ' ' = c := Option.some.inj hc
    decide +kernel
  uncompared := by
    intro before after hfirst
    have hcut : Text.cut? "time".toList (" uptime = 1 and ".toList ++ "Time".toList) =
      some (" up".toList, " = 1 and Time".toList) := by decide +kernel
    rw [Text.cut?_eq_some_iff.mpr hfirst] at hcut
    obtain ⟨-, rfl⟩ := Prod.mk.inj (Option.some.inj hcut)
    constructor <;> exact Text.cut?_eq_none_iff.mp (by decide +kernel)

theorem interpret_bounds_load :
    HasClauses loadQuery loadClauses (.field "value") none ∧
      ∃ s, interpret loadQuery .zero = .ok (.select s) ∧
        s.start = ⟨5000000, by decide, by decide⟩ ∧ s.stop = ⟨-8, by decide, by decide⟩ := by
  refine ⟨hasClauses_load,
    ((interpret_bounds hasClauses_load rfl .zero).2 _ _ _ isTimeAt_load _ _).mpr ⟨?_, ?_⟩⟩
  · exact readBound_eq_ok_iff.mp (by decide +kernel)
  · exact readBound_eq_ok_iff.mp (by decide +kernel)

/-! ## Comparisons of time and of other things -/

/-- The word to the left of a comparison, with blanks between them. -/
def leftOperand (before : List Char) : List Char :=
  ((Text.stripEnd Text.isBlank before).reverse.takeWhile Text.isNameChar).reverse

/-- The text compares time with `t`: at some place the sign stands behind the word `time`, and `t`
can be read behind the sign. -/
def ComparesTime (sign : String) (text : List Char) (t : Nanos) : Prop :=
  ∃ n < text.length, sign.toList <+: text.drop n ∧ IsKeyword "time" (leftOperand (text.take n)) ∧
    readTime (text.drop (n + sign.length)) = .ok t

instance (sign : String) (text : List Char) (t : Nanos) : Decidable (ComparesTime sign text t) :=
  inferInstanceAs (Decidable (∃ n < _, _))

/-- If the query is read as a selection, comparisons of time alone set the ends of its range. -/
def TakesTimesOnly (query : String) (now : Nanos) : Prop :=
  ∀ c condition s, selectClauses? query = some c → c.condition = some condition →
    interpret query now = .ok (.select s) →
    (s.start = .zero ∨ ComparesTime ">=" condition s.start) ∧
      (s.stop = now ∨ ComparesTime "<=" condition s.stop)

theorem not_takesTimesOnly_of_start (hc : selectClauses? query = some c)
    (hcondition : c.condition = some condition) {s : Select}
    (hs : interpret query now = .ok (.select s)) (hzero : s.start ≠ .zero)
    (hnot : ¬ ComparesTime ">=" condition s.start) : ¬ TakesTimesOnly query now :=
  fun h => (h c condition s hc hcondition hs).1.elim hzero hnot

/-- The selection of a value of `cpu` in a time range. -/
def cpuBetween (start stop : Nanos) : Select := ⟨"cpu", .field "value", none, start, stop, none⟩

/-- A comparison of `load` behind `time` sets the start, and so does one of a word that ends in
those letters. -/
theorem not_takesTimesOnly :
    ¬ TakesTimesOnly "SELECT value FROM cpu WHERE time <= 9 and load >= 3" .zero ∧
      ¬ TakesTimesOnly "SELECT value FROM cpu WHERE uptime >= 5" .zero := by
  constructor
  · exact not_takesTimesOnly_of_start
      (c := ⟨" value ".toList, " cpu ".toList, some " time <= 9 and load >= 3".toList, none⟩)
      (s := cpuBetween ⟨3, by decide, by decide⟩ ⟨9, by decide, by decide⟩)
      (by decide +kernel) rfl (by decide +kernel) (by decide) (by decide +kernel)
  · exact not_takesTimesOnly_of_start
      (c := ⟨" value ".toList, " cpu ".toList, some " uptime >= 5".toList, none⟩)
      (s := cpuBetween ⟨5, by decide, by decide⟩ .zero)
      (by decide +kernel) rfl (by decide +kernel) (by decide) (by decide +kernel)

end TimeSeries.Query
