/-
# TimeSeries.Proofs.Query.Written — the SELECT queries of the grammar.

    SELECT * | field | mean|sum|count|min|max(* | field) FROM measurement
      [WHERE time >= T1[ms] and time <= T2[ms]]
      [GROUP BY time(Nm)]

A query is written in words with gaps between them, and each word says what it stands for. A name
stands bare, or between quotes, or between quotes after backslashes; a name between quotes may hold
gaps and keywords. The conditions on times come in either order, one of them may be missing, and
GROUP BY may stand before WHERE.
-/
import TimeSeries.Proofs.Query.Words

namespace TimeSeries.Query

open Text (isNameChar lower)

/-! ## Names -/

/-- What may stand between quotes: some text without quotes, and without backslashes at its ends. -/
structure IsQuotable (name : List Char) : Prop where
  ne_nil : name ≠ []
  no_quote : '"' ∉ name
  head : name.head? ≠ some '\\'
  last : name.getLast? ≠ some '\\'

/-- The keywords that are no bare names. -/
def reserved : List String := ["from", "where", "group", "by"]

/-- The ways to write a name. -/
inductive WritesName (name : List Char) : List Char → Prop
  | bare (ne_nil : name ≠ []) (isNameChar : ∀ c ∈ name, isNameChar c = true)
      (free : ∀ keyword ∈ reserved, ¬ IsKeyword keyword name) : WritesName name name
  | quoted (quotable : IsQuotable name) : WritesName name ('"' :: name ++ ['"'])
  | escaped (quotable : IsQuotable name) : WritesName name ('\\' :: '"' :: name ++ ['\\', '"'])

/-! ## Selectors -/

/-- The ways to write the fields that are selected: a star, or a name without parentheses. -/
inductive WritesFields : Selector → List Char → Prop
  | all : WritesFields .all ['*']
  | field {name w : List Char} (written : WritesName name w) (plain : '(' ∉ name ∧ ')' ∉ name)
      (ne_star : name ≠ ['*']) : WritesFields (.field (String.ofList name)) w

/-- The ways to write a selector: fields, or a reduction of them. -/
inductive WritesSelector : Selector → Option Aggregation → List Char → Prop
  | plain {selector : Selector} {w : List Char} (fields : WritesFields selector w) :
      WritesSelector selector none w
  | reduced {selector : Selector} {f : Aggregation} {name w : List Char}
      (keyword : IsKeyword f.name name) (fields : WritesFields selector w) :
      WritesSelector selector (some f) (name ++ '(' :: w ++ [')'])

/-! ## Time ranges -/

/-- Some decimal digits. -/
structure IsDigits (ds : List Char) : Prop where
  ne_nil : ds ≠ []
  isDigit : ∀ c ∈ ds, c.isDigit = true

/-- Digits after an optional minus sign. -/
inductive WritesInt : Int → List Char → Prop
  | plain {ds : List Char} (digits : IsDigits ds) : WritesInt (Nat.ofDigitChars 10 ds 0) ds
  | negative {ds : List Char} (digits : IsDigits ds) :
      WritesInt (-Nat.ofDigitChars 10 ds 0) ('-' :: ds)

/-- The ways to write a time: in nanoseconds, or in milliseconds. -/
inductive WritesTime (t : Nanos) : List Char → Prop
  | nanos {w : List Char} (written : WritesInt t.toInt w) : WritesTime t w
  | millis {n : Int} {w unit : List Char} (written : WritesInt n w) (keyword : IsKeyword "ms" unit)
      (value : t.toInt = n * 1000000) : WritesTime t (w ++ unit)

/-- A bound in three words: at or above a time, or at or below it. -/
inductive WritesBound (side : Char) (t : Nanos) : List Piece → Prop
  | intro {time comparison literal : Piece} (keyword : IsKeyword "time" time.word)
      (comparison_eq : comparison.word = [side, '=']) (written : WritesTime t literal.word) :
      WritesBound side t [time, comparison, literal]

/-- The ways to write a time range: a bound, or both in either order. A missing lower bound is zero,
and a missing upper bound is now. -/
inductive WritesRange (now : Nanos) : Nanos → Nanos → List Piece → Prop
  | lower {start : Nanos} {ps : List Piece} (written : WritesBound '>' start ps) :
      WritesRange now start now ps
  | upper {stop : Nanos} {ps : List Piece} (written : WritesBound '<' stop ps) :
      WritesRange now .zero stop ps
  | lowerUpper {start stop : Nanos} {ps qs : List Piece} {both : Piece}
      (first : WritesBound '>' start ps) (keyword : IsKeyword "and" both.word)
      (second : WritesBound '<' stop qs) : WritesRange now start stop (ps ++ both :: qs)
  | upperLower {start stop : Nanos} {ps qs : List Piece} {both : Piece}
      (first : WritesBound '<' stop ps) (keyword : IsKeyword "and" both.word)
      (second : WritesBound '>' start qs) : WritesRange now start stop (ps ++ both :: qs)

/-! ## Widths -/

/-- The width of some minutes; none for no minutes and for too many. -/
def widthOfMinutes? (n : Nat) : Option Nanos :=
  if n = 0 then none else Nanos.ofInt? (n * 60000000000)

/-- The way to write the width of buckets. -/
inductive WritesWidth : Option Nanos → List Char → Prop
  | intro {time ds unit : List Char} (keyword : IsKeyword "time" time) (digits : IsDigits ds)
      (minutes : IsKeyword "m" unit) :
      WritesWidth (widthOfMinutes? (Nat.ofDigitChars 10 ds 0)) (time ++ '(' :: ds ++ unit ++ [')'])

/-! ## Queries -/

/-- WHERE and a time range. -/
inductive WritesWhere (now start stop : Nanos) : List Piece → Prop
  | intro {where' : Piece} {ps : List Piece} (keyword : IsKeyword "where" where'.word)
      (range : WritesRange now start stop ps) : WritesWhere now start stop (where' :: ps)

/-- GROUP BY and a width. -/
inductive WritesGroup (width : Option Nanos) : List Piece → Prop
  | intro {group by' minutes : Piece} (keyword : IsKeyword "group" group.word)
      (keyword' : IsKeyword "by" by'.word) (written : WritesWidth width minutes.word) :
      WritesGroup width [group, by', minutes]

/-- The ways to write what follows the measurement. -/
inductive WritesClauses (now : Nanos) : Nanos → Nanos → Option Nanos → List Piece → Prop
  | none : WritesClauses now .zero now none []
  | range {start stop : Nanos} {ps : List Piece} (range : WritesWhere now start stop ps) :
      WritesClauses now start stop none ps
  | group {width : Option Nanos} {ps : List Piece} (group : WritesGroup width ps) :
      WritesClauses now .zero now width ps
  | rangeGroup {start stop : Nanos} {width : Option Nanos} {ps qs : List Piece}
      (range : WritesWhere now start stop ps) (group : WritesGroup width qs) :
      WritesClauses now start stop width (ps ++ qs)
  | groupRange {start stop : Nanos} {width : Option Nanos} {ps qs : List Piece}
      (group : WritesGroup width ps) (range : WritesWhere now start stop qs) :
      WritesClauses now start stop width (ps ++ qs)

/-- The pieces that write a selection, after SELECT. A reduction without a width gets the default
one. -/
inductive WritesSelect (now : Nanos) : Select → List Piece → Prop
  | intro {selector : Selector} {f : Option Aggregation} {name : List Char} {start stop : Nanos}
      {width : Option Nanos} {selected from' source : Piece} {ps : List Piece}
      (written : WritesSelector selector f selected.word) (keyword : IsKeyword "from" from'.word)
      (named : WritesName name source.word) (clauses : WritesClauses now start stop width ps) :
      WritesSelect now
        ⟨String.ofList name, selector, f, start, stop, width.or (f.map fun _ => defaultWidth)⟩
        (selected :: from' :: source :: ps)

/-- A character of a gap. -/
def IsSpacing (c : Char) : Prop := c = ' ' ∨ c = '\t' ∨ c = '\n'

instance (c : Char) : Decidable (IsSpacing c) := inferInstanceAs (Decidable (_ ∨ _ ∨ _))

/-- There is a gap before the piece, made of spacing. -/
def Piece.IsGapped (p : Piece) : Prop := p.gap ≠ [] ∧ ∀ c ∈ p.gap, IsSpacing c

/-- A query in pieces, with gaps or nothing around it. -/
inductive WritesQuery (now : Nanos) (s : Select) : List Char → Prop
  | intro {front select back : List Char} {ps : List Piece}
      (front_spacing : ∀ c ∈ front, IsSpacing c)
      (back_spacing : ∀ c ∈ back, IsSpacing c) (keyword : IsKeyword "select" select)
      (gapped : ∀ p ∈ ps, p.IsGapped) (written : WritesSelect now s ps) :
      WritesQuery now s (front ++ (select ++ textOf ps) ++ back)

/-! ## Characters of written words -/

/-- A character of a written time. -/
def IsTimeChar (c : Char) : Prop := c = '-' ∨ c.isDigit = true ∨ c.toLower = 'm' ∨ c.toLower = 's'

instance (c : Char) : Decidable (IsTimeChar c) := inferInstanceAs (Decidable (_ ∨ _ ∨ _ ∨ _))

variable {c : Char} {name w : List Char} {keyword : String}

theorem isSolid_of_isAlphanum (h : c.isAlphanum = true) : IsSolid c :=
  Text.of_isAlphanum (by decide +kernel) h

theorem IsTimeChar.eq_or_isAlphanum (h : IsTimeChar c) : c = '-' ∨ c.isAlphanum = true := by
  rcases h with rfl | h | h | h
  · exact .inl rfl
  · exact .inr (Text.isAlphanum_of_isDigit h)
  all_goals
    refine .inr (Text.isAlphanum_of_isAlpha ?_)
    rw [← Char.isAlpha_toLower_eq_isAlpha, h]
    decide

theorem IsTimeChar.isSolid (h : IsTimeChar c) : IsSolid c := by
  rcases h.eq_or_isAlphanum with rfl | h
  · decide
  · exact isSolid_of_isAlphanum h

/-- No letter of AND stands in a time. -/
theorem IsTimeChar.toLower_ne (h : IsTimeChar c) : c.toLower ≠ 'a' := by
  rcases h with rfl | h | h | h
  · decide
  · intro hlower
    have halpha : c.isAlpha = true := by
      rw [← Char.isAlpha_toLower_eq_isAlpha, hlower]
      decide
    rw [Text.isAlpha_of_isDigit h] at halpha
    cases halpha
  · rw [h]; decide
  · rw [h]; decide

theorem IsDigits.isTimeChar (h : IsDigits w) : ∀ c ∈ w, IsTimeChar c :=
  fun c hc => .inr (.inl (h.isDigit c hc))

theorem WritesInt.isTimeChar {n : Int} (h : WritesInt n w) : ∀ c ∈ w, IsTimeChar c := by
  cases h with
  | plain hds => exact hds.isTimeChar
  | negative hds =>
    intro c hc
    rcases List.mem_cons.mp hc with rfl | hc
    · exact .inl rfl
    · exact hds.isTimeChar c hc

theorem WritesTime.isTimeChar {t : Nanos} (h : WritesTime t w) : ∀ c ∈ w, IsTimeChar c := by
  cases h with
  | nanos hint => exact hint.isTimeChar
  | millis hint hunit _ =>
    intro c hc
    rcases List.mem_append.mp hc with hc | hc
    · exact hint.isTimeChar c hc
    · have hlower : c.toLower ∈ "ms".toList := by
        rw [← show Text.lower _ = "ms".toList from hunit]
        exact List.mem_map_of_mem hc
      have hlower : c.toLower = 'm' ∨ c.toLower = 's' := by simpa using hlower
      exact .inr (.inr hlower)

theorem WritesInt.exists_not_isAlpha {n : Int} (h : WritesInt n w) :
    ∃ c ∈ w, c.isAlpha = false := by
  cases h with
  | plain hds =>
    obtain ⟨c, ds, rfl⟩ := List.exists_cons_of_ne_nil hds.ne_nil
    exact ⟨c, List.mem_cons_self, Text.isAlpha_of_isDigit (hds.isDigit c List.mem_cons_self)⟩
  | negative => exact ⟨'-', List.mem_cons_self, by decide⟩

theorem WritesTime.exists_not_isAlpha {t : Nanos} (h : WritesTime t w) :
    ∃ c ∈ w, c.isAlpha = false := by
  cases h with
  | nanos hint => exact hint.exists_not_isAlpha
  | millis hint _ _ =>
    obtain ⟨c, hc, halpha⟩ := hint.exists_not_isAlpha
    exact ⟨c, List.mem_append_left _ hc, halpha⟩

/-! ## Written words are words -/

theorem isWhole_quoted (h : '"' ∉ name) : IsWhole false ('"' :: name ++ ['"']) := by
  rw [List.cons_append, isWhole_quote, isWhole_append h fun hquoted => absurd hquoted (by decide)]
  exact isWhole_quote.mpr rfl

theorem endsSolid_quote (s : List Char) : Text.EndsSolid (s ++ ['"']) := by
  rw [Text.endsSolid_append (List.cons_ne_nil _ _)]
  intro c hc
  obtain rfl := Option.some.inj hc
  decide

theorem startsSolid_cons {c : Char} (hc : Text.isBlank c = false) (s : List Char) :
    Text.StartsSolid (c :: s) := by
  intro d hd
  obtain rfl := Option.some.inj hd
  exact hc

theorem WritesName.isWord (h : WritesName name w) : IsWord w := by
  cases h with
  | bare hne hname => exact isWord_of_isNameChar hne hname
  | quoted hq =>
    exact ⟨List.cons_ne_nil _ _, isWhole_quoted hq.no_quote, startsSolid_cons (by decide) _,
      endsSolid_quote _⟩
  | escaped hq =>
    have hslash : '"' ∉ name ++ ['\\'] := by simp [hq.no_quote]
    have hwhole : IsWhole false ('\\' :: ('"' :: (name ++ ['\\']) ++ ['"'])) :=
      ⟨fun _ => by decide, isWhole_quoted hslash⟩
    rw [show '\\' :: '"' :: name ++ ['\\', '"'] = '\\' :: '"' :: (name ++ ['\\']) ++ ['"'] by simp]
    exact ⟨List.cons_ne_nil _ _, hwhole, startsSolid_cons (by decide) _, endsSolid_quote _⟩

theorem WritesName.not_isKeyword [IsLowercase keyword] (h : WritesName name w)
    (hmem : keyword ∈ reserved) : ¬ IsKeyword keyword w := by
  cases h with
  | bare _ _ hfree => exact hfree keyword hmem
  | quoted => exact not_isKeyword_of_mem (c := '"') (by simp) (by decide)
  | escaped => exact not_isKeyword_of_mem (c := '"') (by simp) (by decide)

theorem WritesFields.isWord {selector : Selector} (h : WritesFields selector w) : IsWord w := by
  cases h with
  | all =>
    exact isWord_of_isSolid (List.cons_ne_nil _ _) (List.forall_mem_singleton.mpr (by decide))
  | field hname _ _ => exact hname.isWord

theorem WritesSelector.isWord {selector : Selector} {f : Option Aggregation}
    (h : WritesSelector selector f w) : IsWord w := by
  cases h with
  | plain hfields => exact hfields.isWord
  | @reduced f name w hkeyword hfields =>
    have hname : ∀ c ∈ name ++ ['('], IsSolid c := by
      intro c hc
      rcases List.mem_append.mp hc with hc | hc
      · exact isSolid_of_isAlphanum (hkeyword.isAlphanum c hc)
      · rw [List.mem_singleton.mp hc]; decide
    have h := hfields.isWord.append_append hname (b := [')'])
      (List.forall_mem_singleton.mpr (by decide))
    simpa using h

theorem WritesSelector.not_isKeyword {selector : Selector} {f : Option Aggregation}
    (h : WritesSelector selector f w) : ¬ IsKeyword "from" w := by
  cases h with
  | plain hfields =>
    cases hfields with
    | all => exact not_isKeyword_of_mem (c := '*') (by simp) (by decide)
    | field hname _ _ => exact hname.not_isKeyword (by decide)
  | reduced => exact not_isKeyword_of_mem (c := '(') (by simp) (by decide)

theorem WritesTime.isWord {t : Nanos} (h : WritesTime t w) : IsWord w := by
  obtain ⟨c, hc, -⟩ := h.exists_not_isAlpha
  exact isWord_of_isSolid (List.ne_nil_of_mem hc) fun c hc => (h.isTimeChar c hc).isSolid

theorem WritesWidth.isWord {width : Option Nanos} (h : WritesWidth width w) : IsWord w := by
  cases h with
  | @intro time ds unit htime hds hunit =>
    refine isWord_of_isSolid (by simp) fun c hc => ?_
    simp only [List.mem_append, List.mem_cons, List.not_mem_nil, or_false] at hc
    rcases hc with ((hc | rfl | hc) | hc) | rfl
    · exact isSolid_of_isAlphanum (htime.isAlphanum c hc)
    · decide
    · exact (hds.isTimeChar c hc).isSolid
    · exact isSolid_of_isAlphanum (hunit.isAlphanum c hc)
    · decide

theorem WritesWidth.not_isKeyword [IsLowercase keyword] {width : Option Nanos}
    (h : WritesWidth width w) : ¬ IsKeyword keyword w := by
  cases h with
  | intro => exact not_isKeyword_of_mem (c := '(') (by simp) (by decide)

/-! ## Written pieces -/

/-- The pieces are words, and none of them is GROUP. -/
def AreUngrouped (ps : List Piece) : Prop :=
  ∀ p ∈ ps, IsWord p.word ∧ ¬ IsKeyword "group" p.word

theorem WritesBound.areUngrouped {side : Char} {t : Nanos} {ps : List Piece}
    (h : WritesBound side t ps) (hside : IsSolid side) : AreUngrouped ps := by
  cases h with
  | @intro time comparison literal htime hcomparison hliteral =>
    have hcomparison' : IsWord comparison.word := by
      rw [hcomparison]
      refine isWord_of_isSolid (List.cons_ne_nil _ _) fun c hc => ?_
      rcases List.mem_cons.mp hc with rfl | hc
      · exact hside
      · rw [List.mem_singleton.mp hc]; decide
    obtain ⟨c, hc, halpha⟩ := hliteral.exists_not_isAlpha
    intro p hp
    simp only [List.mem_cons, List.not_mem_nil, or_false] at hp
    rcases hp with rfl | rfl | rfl
    · exact ⟨htime.isWord, htime.ne (by decide)⟩
    · exact ⟨hcomparison', not_isKeyword_of_mem (c := '=') (by simp [hcomparison]) (by decide)⟩
    · exact ⟨hliteral.isWord, not_isKeyword_of_mem hc halpha⟩

theorem AreUngrouped.append_cons {ps qs : List Piece} {both : Piece} (hps : AreUngrouped ps)
    (hboth : IsKeyword "and" both.word) (hqs : AreUngrouped qs) :
    AreUngrouped (ps ++ both :: qs) := by
  intro p hp
  rcases List.mem_append.mp hp with hp | hp
  · exact hps p hp
  · rcases List.mem_cons.mp hp with rfl | hp
    · exact ⟨hboth.isWord, hboth.ne (by decide)⟩
    · exact hqs p hp

theorem WritesRange.areUngrouped {now start stop : Nanos} {ps : List Piece}
    (h : WritesRange now start stop ps) : AreUngrouped ps := by
  cases h with
  | lower h => exact h.areUngrouped (by decide)
  | upper h => exact h.areUngrouped (by decide)
  | lowerUpper h hboth h' =>
    exact (h.areUngrouped (by decide)).append_cons hboth (h'.areUngrouped (by decide))
  | upperLower h hboth h' =>
    exact (h.areUngrouped (by decide)).append_cons hboth (h'.areUngrouped (by decide))

end TimeSeries.Query
