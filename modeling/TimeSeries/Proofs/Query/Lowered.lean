/-
# TimeSeries.Proofs.Query.Lowered — reading a query in lower case.

Every reader of a query gives for the lowered text what it gives for the text, with the letters of
names and of refusals lowered and all else the same: words stand at their places, clauses are cut
out at the same places, and numbers have no letters. So the whole reader does (`interpret_lower`).
-/
import TimeSeries.Proofs.Query.Select
import TimeSeries.Proofs.Text.Lower

namespace TimeSeries.Query

open Text (lower lower_cons IsCaseless)

variable {now : Nanos}

instance : IsCaseless isGap := Text.isCaseless_of_isAlphanum (by decide +kernel)
instance : IsCaseless isBreak := Text.isCaseless_of_isAlphanum (by decide +kernel)

/-! ## Keywords, gaps, marks and names -/

theorem dropGap_lower (s : List Char) : dropGap (lower s) = lower (dropGap s) :=
  Text.dropWhile_lower isGap s

theorem dropGap?_lower (s : List Char) : dropGap? (lower s) = (dropGap? s).map lower := by
  cases s with
  | nil => rfl
  | cons c s =>
    rw [lower_cons, dropGap?, dropGap?, IsCaseless.toLower isGap, dropGap_lower]
    split <;> rfl

theorem keyword?_lower (word : String) (s : List Char) :
    keyword? word (lower s) = (keyword? word s).map lower := by
  rw [keyword?, keyword?, Text.dropWord?_lower]
  cases Text.dropWord? word.toList s with
  | none => rfl
  | some rest =>
    have hhead : (lower rest).head?.any Text.isNameChar = rest.head?.any Text.isNameChar := by
      cases rest with
      | nil => rfl
      | cons c rest => exact IsCaseless.toLower Text.isNameChar c
    dsimp only [Option.map_some]
    rw [hhead]
    split <;> rfl

theorem afterMark?_lower {mark : Char} (hmark : mark.isAlpha = false) (s : List Char) :
    afterMark? mark (lower s) = (afterMark? mark s).map lower := by
  cases s with
  | nil => rfl
  | cons c s =>
    rw [lower_cons, afterMark?, afterMark?]
    simp only [Text.toLower_eq_iff hmark]
    split <;> rfl

theorem bareName_lower (s : List Char) : bareName (lower s) = lower (bareName s) := by
  rw [bareName, Text.trim_lower, Text.strip_lower]
  rfl

/-! ## Words -/

/-- The word with its letters lowered, at its place. -/
def Word.lower (w : Word) : Word := ⟨Text.lower w.text, w.start⟩

theorem Word.stop_lower (w : Word) : w.lower.stop = w.stop := by
  rw [Word.stop, Word.stop, Word.lower, Text.lower, List.length_map]

theorem Word.is_lower (keyword : String) (w : Word) : w.lower.is keyword = w.is keyword := by
  rw [Word.is, Word.is, Word.lower, Text.sameLetters, Text.sameLetters, Text.lower_lower]

theorem readWord_lower (quoted : Bool) (s : List Char) :
    readWord quoted (lower s) = Prod.map lower lower (readWord quoted s) := by
  induction s generalizing quoted with
  | nil => rfl
  | cons c s ih =>
    have hquote : c.toLower = '"' ↔ c = '"' := Text.toLower_eq_iff (by decide)
    rw [lower_cons, readWord, readWord, IsCaseless.toLower isBreak]
    simp only [hquote, ih]
    split <;> rfl

theorem wordsFrom_lower (place : Nat) (s : List Char) :
    wordsFrom place (lower s) = (wordsFrom place s).map Word.lower := by
  fun_induction wordsFrom place s with
  | case1 place =>
    rw [show lower [] = [] from rfl, wordsFrom]
    rfl
  | case2 place c s hbreak ih =>
    rw [lower_cons, wordsFrom, IsCaseless.toLower isBreak, if_pos hbreak, ih]
  | case3 place c s hbreak tail word ih =>
    have hquote : (c.toLower == '"') = (c == '"') := IsCaseless.toLower (· == '"') c
    have hstop : (⟨c.toLower :: lower tail.1, place⟩ : Word).stop = word.stop :=
      Word.stop_lower word
    rw [lower_cons, wordsFrom, IsCaseless.toLower isBreak, if_neg hbreak, hquote, readWord_lower]
    simp only [Prod.map]
    rw [hstop, ih]
    rfl

theorem words_lower (s : List Char) : words (lower s) = (words s).map Word.lower :=
  wordsFrom_lower 0 s

theorem find?_is_lower (keyword : String) (ws : List Word) :
    (ws.map Word.lower).find? (·.is keyword) = (ws.find? (·.is keyword)).map Word.lower := by
  have hcomp : ((·.is keyword) ∘ Word.lower) = (·.is keyword) := funext (Word.is_lower keyword)
  rw [List.find?_map, hcomp]

theorem dropWhile_is_lower (keyword : String) (ws : List Word) :
    (ws.map Word.lower).dropWhile (!·.is keyword) =
      (ws.dropWhile (!·.is keyword)).map Word.lower := by
  have hcomp : ((!·.is keyword) ∘ Word.lower) = (!·.is keyword) :=
    funext fun w => congrArg (!·) (Word.is_lower keyword w)
  rw [List.dropWhile_map, hcomp]

theorem findGroupBy?_lower (ws : List Word) :
    findGroupBy? (ws.map Word.lower) = (findGroupBy? ws).map (Prod.map Word.lower Word.lower) := by
  fun_induction findGroupBy? ws with
  | case1 a b ws h =>
    rw [List.map_cons, List.map_cons, findGroupBy?, Word.is_lower, Word.is_lower, if_pos h]
    rfl
  | case2 a b ws h ih =>
    rw [List.map_cons, List.map_cons, findGroupBy?, Word.is_lower, Word.is_lower, if_neg h, ← ih,
      List.map_cons]
  | case3 ws h =>
    cases ws with
    | nil => rfl
    | cons a ws =>
      cases ws with
      | nil => rfl
      | cons b ws => exact absurd rfl (h a b ws)

/-! ## Clauses -/

/-- The clauses with their letters lowered. -/
def Clauses.lower (c : Clauses) : Clauses where
  selector := Text.lower c.selector
  source := Text.lower c.source
  condition := c.condition.map Text.lower
  grouping := c.grouping.map Text.lower

theorem slice_lower (s : List Char) (start stop : Nat) :
    slice (lower s) start stop = lower (slice s start stop) := by
  rw [slice, slice, lower, lower, List.map_take, List.map_drop]

theorem clausesAt_lower (body : List Char) (fromWord : Word) (later : List Word) :
    clausesAt (lower body) fromWord.lower (later.map Word.lower) =
      (clausesAt body fromWord later).lower := by
  have hlength : (lower body).length = body.length := List.length_map _
  have hdrop : ∀ n, (lower body).drop n = lower (body.drop n) := fun n => List.map_drop.symm
  have hstart : ∀ w : Word, w.lower.start = w.start := fun w => rfl
  rw [clausesAt, clausesAt, find?_is_lower, findGroupBy?_lower]
  cases later.find? (·.is "where") <;> cases findGroupBy? later <;>
    simp only [Clauses.lower, Option.map_some, Option.map_none, Option.getD_some, Option.getD_none,
      Prod.map, hlength, hdrop, hstart, slice_lower, Word.stop_lower]

theorem clauses?_lower (body : List Char) :
    clauses? (lower body) = (clauses? body).map Clauses.lower := by
  rw [clauses?_eq, clauses?_eq, words_lower, dropWhile_is_lower]
  cases (words body).dropWhile (!·.is "from") with
  | nil => rfl
  | cons fromWord later => exact congrArg some (clausesAt_lower body fromWord later)

/-! ## Selectors -/

/-- A text with its letters lowered. -/
def lowerText (s : String) : String := String.ofList (lower s.toList)

theorem lowerText_ofList (s : List Char) :
    lowerText (String.ofList s) = String.ofList (lower s) := by
  rw [lowerText, String.toList_ofList]

/-- The selector with the letters of its field lowered. -/
def Selector.lower : Selector → Selector
  | .all => .all
  | .field name => .field (lowerText name)

theorem readAggregation?_lower (s : List Char) :
    readAggregation? (lower s) = (readAggregation? s).map (Prod.map id lower) := by
  rw [readAggregation?_eq, readAggregation?_eq, List.map_findSome?]
  congr 1
  funext f
  rw [Function.comp_apply, keyword?_lower]
  cases keyword? f.name s with
  | none => rfl
  | some rest =>
    simp only [Option.map_some, Option.bind_some]
    rw [dropGap_lower, afterMark?_lower (by decide), Option.map_map, Option.map_map]
    rfl

theorem fieldsOf_lower (clause : List Char) :
    fieldsOf (lower clause) = Prod.map lower id (fieldsOf clause) := by
  rw [fieldsOf, fieldsOf, Text.trim_lower, readAggregation?_lower]
  cases readAggregation? (Text.trim clause) with
  | none => rfl
  | some read =>
    dsimp only [Option.map_some, Prod.map, id]
    rw [Text.trim_lower, Text.stripEnd_lower]

theorem lower_eq_star_iff {name : List Char} : lower name = ['*'] ↔ name = ['*'] := by
  rw [lower, List.map_eq_singleton_iff]
  simp only [Text.toLower_eq_iff (show '*'.isAlpha = false by decide)]
  constructor
  · rintro ⟨c, rfl, rfl⟩
    rfl
  · rintro rfl
    exact ⟨'*', rfl, rfl⟩

theorem selectorOf_lower (name : List Char) :
    selectorOf (lower name) = (selectorOf name).lower := by
  rw [selectorOf, selectorOf]
  simp only [lower_eq_star_iff]
  split
  · rfl
  · rw [Selector.lower, lowerText_ofList]

theorem readSelector?_lower (clause : List Char) :
    readSelector? (lower clause) = (readSelector? clause).map (Prod.map Selector.lower id) := by
  have hopen : '('.isAlpha = false := by decide
  have hclose : ')'.isAlpha = false := by decide
  rw [readSelector?_eq, readSelector?_eq, fieldsOf_lower]
  simp only [Prod.map, id, bareName_lower, Text.lower_eq_nil_iff, Text.mem_lower_iff hopen,
    Text.mem_lower_iff hclose, selectorOf_lower]
  split <;> rfl

/-! ## Time ranges -/

/-- The refusal with the letters of its text lowered. -/
def Error.lower : Error → Error
  | .invalidSyntax query => .invalidSyntax (lowerText query)
  | .invalidTimeFormat literal => .invalidTimeFormat (lowerText literal)
  | .invalidQuery reason => .invalidQuery (lowerText reason)
  | .missingMeasurement query => .missingMeasurement (lowerText query)
  | .invalidBucketWidth width => .invalidBucketWidth width

theorem timeLiteral_lower (s : List Char) : timeLiteral (lower s) = lower (timeLiteral s) := by
  rw [timeLiteral, timeLiteral, Text.firstWord_lower, Text.cut?_lower]
  cases Text.cut? "and".toList (Text.firstWord s) <;> rfl

theorem lower_eq_self_of_isDigit {ds : List Char} (h : ∀ c ∈ ds, c.isDigit = true) :
    lower ds = ds := by
  refine (List.map_congr_left fun c hc => ?_).trans (List.map_id _)
  exact Text.of_isAlphanum (P := fun c => c.isDigit = true → c.toLower = c) (by decide +kernel)
    (Text.isAlphanum_of_isDigit (h c hc)) (h c hc)

/-- Digits have no case. -/
theorem takeWhile_isDigit_lower (s : List Char) :
    (lower s).takeWhile Char.isDigit = s.takeWhile Char.isDigit := by
  rw [Text.takeWhile_lower]
  exact lower_eq_self_of_isDigit fun c hc => List.mem_takeWhile_imp hc

theorem readCount?_lower (sign : Int) (unsigned : List Char) :
    readCount? sign (lower unsigned) = readCount? sign unsigned := by
  rw [readCount?, readCount?, takeWhile_isDigit_lower, Text.dropWhile_lower, Text.lower_lower]

theorem readTime?_lower (literal : List Char) : readTime? (lower literal) = readTime? literal := by
  rw [readTime?_eq, readTime?_eq, afterMark?_lower (by decide)]
  cases afterMark? '-' literal with
  | none => exact readCount?_lower 1 literal
  | some unsigned => exact readCount?_lower (-1) unsigned

theorem readTime_lower (s : List Char) :
    readTime (lower s) = (readTime s).mapError Error.lower := by
  rw [readTime, readTime, timeLiteral_lower, readTime?_lower]
  cases readTime? (timeLiteral s) with
  | none => exact congrArg (Except.error ∘ Error.invalidTimeFormat) (lowerText_ofList _).symm
  | some t => rfl

theorem readBound_lower (comparison : String) (default : Nanos) (s : List Char) :
    readBound comparison default (lower s) =
      (readBound comparison default s).mapError Error.lower := by
  rw [readBound, readBound, Text.cut?_lower]
  cases Text.cut? comparison.toList s with
  | none => rfl
  | some parts => exact readTime_lower parts.2

theorem readRange_lower (condition : List Char) (now : Nanos) :
    readRange (lower condition) now = (readRange condition now).mapError Error.lower := by
  rw [readRange, readRange, Text.cut?_lower]
  cases Text.cut? "time".toList condition with
  | none => rfl
  | some parts =>
    dsimp only [Option.map_some, Prod.map]
    rw [readBound_lower, readBound_lower]
    cases readBound ">=" .zero parts.2 with
    | error e => rfl
    | ok start => cases readBound "<=" now parts.2 <;> rfl

theorem Clauses.range_lower (c : Clauses) (now : Nanos) :
    c.lower.range now = (c.range now).mapError Error.lower := by
  rw [Clauses.range, Clauses.range, Clauses.lower]
  cases c.condition with
  | none => rfl
  | some condition => exact readRange_lower condition now

/-! ## Widths -/

theorem isMinutes_lower (m : Char) :
    (m.toLower = 'm' ∨ m.toLower = 'M') ↔ (m = 'm' ∨ m = 'M') := by
  by_cases halpha : m.isAlphanum = true
  · exact Text.of_isAlphanum
      (P := fun m => (m.toLower = 'm' ∨ m.toLower = 'M') ↔ (m = 'm' ∨ m = 'M'))
      (by decide +kernel) halpha
  · have hupper : ¬ m.isUpper = true := by
      intro hupper
      exact halpha (Text.isAlphanum_of_isAlpha (Text.isAlpha_of_isUpper hupper))
    rw [Char.toLower_eq_of_not_isUpper hupper]

theorem readMinutes?_lower (inside : List Char) :
    readMinutes? (lower inside) = readMinutes? inside := by
  rw [readMinutes?, readMinutes?, takeWhile_isDigit_lower, Text.dropWhile_lower, dropGap_lower]
  congr 1
  funext count
  cases dropGap (inside.dropWhile Char.isDigit) with
  | nil => rfl
  | cons unit behind =>
    rw [lower_cons]
    dsimp only
    rw [dropGap_lower, afterMark?_lower (by decide)]
    simp only [isMinutes_lower, Option.bind_map]
    rfl

theorem readWidth?_lower (grouping : List Char) :
    readWidth? (lower grouping) = readWidth? grouping := by
  rw [readWidth?_eq, readWidth?_eq, Text.trimStart_lower, keyword?_lower, Option.bind_map]
  congr 1
  funext rest
  rw [Function.comp_apply, dropGap_lower, afterMark?_lower (by decide), Option.bind_map]
  congr 1
  funext inside
  rw [Function.comp_apply, dropGap_lower, readMinutes?_lower]

/-! ## Statements -/

/-- The selection with the letters of its names lowered. -/
def Select.lower (s : Select) : Select :=
  { s with measurement := lowerText s.measurement, selector := s.selector.lower }

/-- The statement with the letters of its names lowered. -/
def Statement.lower : Statement → Statement
  | .select s => .select s.lower
  | .createDatabase name => .createDatabase (lowerText name)
  | .use database => .use (lowerText database)
  | other => other

theorem Clauses.select_lower (c : Clauses) (selector : Selector) (f : Option Aggregation)
    (range : Nanos × Nanos) :
    c.lower.select selector.lower f range = (c.select selector f range).lower := by
  have hgrouping : (c.grouping.map Text.lower).bind readWidth? = c.grouping.bind readWidth? := by
    rw [Option.bind_map]
    congr 1
    exact funext readWidth?_lower
  simp only [Clauses.select, Clauses.lower, Select.lower, bareName_lower, lowerText_ofList,
    hgrouping]

theorem readSelect_lower (body query : List Char) (now : Nanos) :
    readSelect (lower body) (lower query) now =
      ((readSelect body query now).mapError Error.lower).map Select.lower := by
  rw [readSelect_eq, readSelect_eq, clauses?_lower]
  cases clauses? body with
  | none => exact congrArg (Except.error ∘ Error.invalidQuery) (lowerText_ofList query).symm
  | some c =>
    dsimp only [Option.map_some]
    rw [show c.lower.selector = lower c.selector from rfl, readSelector?_lower]
    cases readSelector? c.selector with
    | none => exact congrArg (Except.error ∘ Error.invalidSyntax) (lowerText_ofList query).symm
    | some selected =>
      obtain ⟨selector, f⟩ := selected
      dsimp only [Option.map_some, Prod.map, id]
      rw [show c.lower.source = lower c.source from rfl, bareName_lower]
      simp only [Text.lower_eq_nil_iff]
      split
      · exact congrArg (Except.error ∘ Error.missingMeasurement) (lowerText_ofList query).symm
      · rw [Clauses.range_lower]
        cases c.range now with
        | error e => rfl
        | ok range => exact congrArg Except.ok (c.select_lower selector f range)

theorem readName?_lower (s : List Char) : readName? (lower s) = (readName? s).map lowerText := by
  rw [readName?, readName?, Text.firstWord_lower, bareName_lower]
  cases bareName (Text.firstWord s) with
  | nil => rfl
  | cons c name => exact congrArg some (lowerText_ofList (c :: name)).symm

theorem readCreate?_lower (rest : List Char) :
    readCreate? (lower rest) = (readCreate? rest).map lowerText := by
  rw [readCreate?, readCreate?, dropGap?_lower]
  cases dropGap? rest with
  | none => rfl
  | some rest =>
    simp only [Option.map_some, Option.bind_some]
    rw [keyword?_lower]
    cases keyword? "database" rest with
    | none => rfl
    | some rest => exact readName?_lower rest

theorem isEmpty_lower (s : List Char) : (lower s).isEmpty = s.isEmpty := List.isEmpty_map

theorem readShow?_lower (query : List Char) : readShow? (lower query) = readShow? query := by
  rw [readShow?, readShow?, keyword?_lower]
  cases keyword? "show" query with
  | none => rfl
  | some rest =>
    simp only [Option.map_some, Option.bind_eq_bind, Option.bind_some, dropGap?_lower]
    cases dropGap? rest with
    | none => rfl
    | some rest =>
      simp only [Option.map_some, Option.bind_some, keyword?_lower]
      cases keyword? "databases" rest with
      | some rest => simp [dropGap_lower]
      | none => cases keyword? "measurements" rest <;> simp [dropGap_lower]

/-- The outcome of reading with the letters of its texts lowered. -/
def lowered (outcome : Except Error Statement) : Except Error Statement :=
  (outcome.mapError Error.lower).map Statement.lower

theorem interpretTrimmed_lower (query : List Char) (now : Nanos) :
    interpretTrimmed (lower query) now = lowered (interpretTrimmed query now) := by
  rw [interpretTrimmed, interpretTrimmed, isEmpty_lower, readShow?_lower]
  simp only [keyword?_lower]
  split
  · rfl
  cases hshow : readShow? query with
  | some statement => rcases eq_of_readShow? hshow with rfl | rfl <;> rfl
  | none =>
    dsimp only
    cases keyword? "create" query with
    | some rest =>
      dsimp only [Option.map_some]
      rw [readCreate?_lower]
      cases readCreate? rest with
      | some name => rfl
      | none => exact congrArg (Except.error ∘ Error.invalidSyntax) (lowerText_ofList query).symm
    | none =>
      dsimp only [Option.map_none]
      cases keyword? "use" query with
      | some rest =>
        dsimp only [Option.map_some]
        rw [readName?_lower]
        cases readName? rest with
        | some name => rfl
        | none => exact congrArg (Except.error ∘ Error.invalidSyntax) (lowerText_ofList query).symm
      | none =>
        dsimp only [Option.map_none]
        cases keyword? "select" query with
        | some rest =>
          dsimp only [Option.map_some]
          rw [readSelect_lower]
          cases readSelect rest query now <;> rfl
        | none => exact congrArg (Except.error ∘ Error.invalidQuery) (lowerText_ofList query).symm

/-- A query in lower case is read as the query is, in lower case. -/
theorem interpret_lower (query : String) (now : Nanos) :
    interpret (lowerText query) now = lowered (interpret query now) := by
  rw [interpret, interpret, lowerText, String.toList_ofList, Text.trim_lower,
    interpretTrimmed_lower]

end TimeSeries.Query
