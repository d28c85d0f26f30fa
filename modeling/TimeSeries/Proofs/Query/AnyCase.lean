/-
# TimeSeries.Proofs.Query.AnyCase — queries in letters of any case.

Queries that differ only in the case of their letters are read alike: both are refused for the same
cause, or both are the same statement but for the case of its names. The names themselves keep the
case they were written in, for each stands in the query as it is (`interpret_anyCase`).
-/
import TimeSeries.Proofs.Query.Lowered

namespace TimeSeries.Query

open Text (lower sameLetters)

variable {s text rest : List Char} {c : Clauses} {selector : Selector} {f : Option Aggregation}
  {query other name : String} {now : Nanos} {statement : Statement}

/-! ## Names stand in the query -/

theorem slice_isInfix (s : List Char) (start stop : Nat) : slice s start stop <:+: s :=
  (List.take_prefix _ _).isInfix.trans (List.drop_suffix _ _).isInfix

theorem dropGap_isSuffix (s : List Char) : dropGap s <:+ s := List.dropWhile_suffix _

theorem isSuffix_of_keyword? {word : String} (h : keyword? word s = some rest) : rest <:+ s := by
  obtain ⟨w, -, hw⟩ := exists_of_keyword? h
  exact ⟨w, hw⟩

theorem isSuffix_of_dropGap? (h : dropGap? s = some rest) : rest <:+ s := by
  cases s with
  | nil => cases h
  | cons c s =>
    rw [dropGap?] at h
    split at h
    · obtain rfl := Option.some.inj h
      exact (dropGap_isSuffix s).trans (List.suffix_cons c s)
    · cases h

theorem isSuffix_of_readAggregation? {f : Aggregation} (h : readAggregation? s = some (f, rest)) :
    rest <:+ s := by
  rw [readAggregation?_eq] at h
  obtain ⟨g, -, hg⟩ := List.exists_of_findSome?_eq_some h
  obtain ⟨inside, hinside, heq⟩ := Option.map_eq_some_iff.mp hg
  obtain ⟨rfl, rfl⟩ := Prod.mk.inj heq
  obtain ⟨behind, hkeyword, hopen⟩ := Option.bind_eq_some_iff.mp hinside
  have hmark : inside <:+ dropGap behind := ⟨['('], (afterMark?_eq_some_iff.mp hopen).symm⟩
  exact (hmark.trans (dropGap_isSuffix behind)).trans (isSuffix_of_keyword? hkeyword)

theorem fieldsOf_isInfix (clause : List Char) : (fieldsOf clause).1 <:+: clause := by
  have htrim : Text.trim clause <:+: clause := Text.strip_isInfix _ _
  rw [fieldsOf]
  split
  · rename_i f rest hread
    have hstrip : Text.stripEnd (· == ')') (Text.trim rest) <:+: Text.trim rest :=
      (Text.stripEnd_isPrefix _ _).isInfix
    have hrest : Text.trim rest <:+: rest := Text.strip_isInfix _ _
    exact (hstrip.trans hrest).trans ((isSuffix_of_readAggregation? hread).isInfix.trans htrim)
  · exact htrim

theorem isInfix_of_readSelector? (h : readSelector? text = some (.field name, f)) :
    name.toList <:+: text := by
  rw [(name_of_readSelector? h).1]
  exact (bareName_isInfix _).trans (fieldsOf_isInfix text)

theorem isInfix_of_readName? (h : readName? s = some name) : name.toList <:+: s := by
  unfold readName? at h
  dsimp only at h
  split at h
  · cases h
  · obtain rfl := Option.some.inj h
    rw [String.toList_ofList]
    exact (bareName_isInfix _).trans (Text.firstWord_isInfix s)

theorem isInfix_of_readCreate? (h : readCreate? s = some name) : name.toList <:+: s := by
  obtain ⟨behind, hdatabase, hname⟩ := Option.bind_eq_some_iff.mp h
  obtain ⟨gapped, hgap, hkeyword⟩ := Option.bind_eq_some_iff.mp hdatabase
  exact (isInfix_of_readName? hname).trans
    ((isSuffix_of_keyword? hkeyword).trans (isSuffix_of_dropGap? hgap)).isInfix

theorem isInfix_of_selectClauses? (h : selectClauses? query = some c) :
    c.selector <:+: query.toList ∧ c.source <:+: query.toList := by
  obtain ⟨body, hselect, hc⟩ := Option.bind_eq_some_iff.mp h
  have hbody : body <:+: query.toList :=
    (isSuffix_of_keyword? hselect).isInfix.trans (Text.strip_isInfix _ _)
  rw [clauses?_eq] at hc
  split at hc
  · cases hc
  · obtain rfl := Option.some.inj hc
    exact ⟨(slice_isInfix _ _ _).trans hbody, (slice_isInfix _ _ _).trans hbody⟩

/-- The names that a statement holds: of a measurement and a field, or of a database. -/
def Statement.names : Statement → List String
  | .select s =>
    match s.selector with
    | .all => [s.measurement]
    | .field name => [s.measurement, name]
  | .createDatabase name => [name]
  | .use database => [database]
  | _ => []

theorem HasClauses.isInfix (h : HasClauses query c selector f) {range : Nanos × Nanos}
    (hname : name ∈ (Statement.select (c.select selector f range)).names) :
    name.toList <:+: query.toList := by
  obtain ⟨hselector, hsource⟩ := isInfix_of_selectClauses? h.clauses_eq
  have hmeasurement : (String.ofList (bareName c.source)).toList <:+: query.toList := by
    rw [String.toList_ofList]
    exact (bareName_isInfix _).trans hsource
  cases selector with
  | all =>
    obtain rfl := List.mem_singleton.mp hname
    exact hmeasurement
  | field field =>
    rcases List.mem_pair.mp hname with rfl | rfl
    · exact hmeasurement
    · exact (isInfix_of_readSelector? h.selector_eq).trans hselector

/-- Every name is taken from the query as it was written there. -/
theorem names_isInfix (h : interpret query now = .ok statement) (hname : name ∈ statement.names) :
    name.toList <:+: query.toList := by
  have htrim : Text.trim query.toList <:+: query.toList := Text.strip_isInfix _ _
  rcases cases_of_interpretTrimmed h with (rfl | rfl) | ⟨rest, created, hcreate, hread, rfl⟩ |
    ⟨rest, used, huse, hread, rfl⟩ | ⟨_, s, -, -, rfl⟩
  · cases hname
  · cases hname
  · obtain rfl := List.mem_singleton.mp hname
    exact (isInfix_of_readCreate? hread).trans ((isSuffix_of_keyword? hcreate).isInfix.trans htrim)
  · obtain rfl := List.mem_singleton.mp hname
    exact (isInfix_of_readName? hread).trans ((isSuffix_of_keyword? huse).isInfix.trans htrim)
  · obtain ⟨c, selector, f, range, hc, -, rfl⟩ := interpret_eq_select_iff.mp h
    exact hc.isInfix hname

/-! ## Queries in other letters -/

/-- Two outcomes of reading are the same but for the case of the letters in their texts: those of
names, and those that a refusal shows. -/
inductive SameButCase : Except Error Statement → Except Error Statement → Prop
  | ok {a b : Statement} (same : a.lower = b.lower) : SameButCase (.ok a) (.ok b)
  | error {e e' : Error} (same : e.lower = e'.lower)
      (message : sameLetters e.message.toList e'.message.toList = true) :
      SameButCase (.error e) (.error e')

theorem lower_lowerText (s : String) : lower (lowerText s).toList = lower s.toList := by
  rw [lowerText, String.toList_ofList, Text.lower_lower]

theorem lower_append_lowerText (front s : String) :
    lower (front ++ lowerText s).toList = lower (front ++ s).toList := by
  rw [String.toList_append, String.toList_append, Text.lower_append, Text.lower_append,
    lower_lowerText]

theorem Error.message_lower (e : Error) :
    Text.lower e.lower.message.toList = Text.lower e.message.toList := by
  cases e with
  | invalidSyntax query => exact lower_append_lowerText _ query
  | invalidTimeFormat literal => exact lower_append_lowerText _ literal
  | invalidQuery reason => exact lower_append_lowerText _ reason
  | missingMeasurement query => exact lower_append_lowerText _ query
  | invalidBucketWidth width => rw [Error.lower]

theorem sameButCase_of_lowered_eq {r r' : Except Error Statement} (h : lowered r = lowered r') :
    SameButCase r r' := by
  cases r with
  | error e =>
    cases r' with
    | error e' =>
      have he : e.lower = e'.lower := Except.error.inj h
      refine .error he (Text.sameLetters_iff.mpr ?_)
      rw [← e.message_lower, he, e'.message_lower]
    | ok b => cases h
  | ok a =>
    cases r' with
    | error e' => cases h
    | ok b => exact .ok (Except.ok.inj h)

/-- Keywords are read in letters of any case, and names keep theirs. Queries in the same letters
are read alike but for the case of their names, and the names of a statement stand in its query. -/
theorem interpret_anyCase (h : sameLetters query.toList other.toList = true) (now : Nanos) :
    SameButCase (interpret query now) (interpret other now) ∧
      ∀ statement, interpret query now = .ok statement → ∀ name ∈ statement.names,
        name.toList <:+: query.toList := by
  refine ⟨sameButCase_of_lowered_eq ?_, fun statement hs name => names_isInfix hs⟩
  have hlower : lowerText query = lowerText other :=
    congrArg String.ofList (Text.sameLetters_iff.mp h)
  rw [← interpret_lower, ← interpret_lower, hlower]

/-- A query that uses all keywords of a selection, and quotes its field. -/
def mixedQuery : String :=
  "Select MAX(\"Up\") From Cpu Where time>=5ms And Time<=9 Group By time(1M)"

/-- The query with the case of every letter changed. -/
def flippedQuery : String :=
  "sELECT max(\"uP\") fROM cPU wHERE TIME>=5MS aND tIME<=9 gROUP bY TIME(1m)"

theorem interpret_anyCase_flipped :
    sameLetters mixedQuery.toList flippedQuery.toList = true ∧
      SameButCase (interpret mixedQuery .zero) (interpret flippedQuery .zero) ∧
      ∀ statement, interpret mixedQuery .zero = .ok statement → ∀ name ∈ statement.names,
        name.toList <:+: mixedQuery.toList := by
  have h : sameLetters mixedQuery.toList flippedQuery.toList = true := by decide +kernel
  exact ⟨h, interpret_anyCase h .zero⟩

end TimeSeries.Query
