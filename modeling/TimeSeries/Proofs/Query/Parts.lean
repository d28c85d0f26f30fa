/-
# TimeSeries.Proofs.Query.Parts — what is read from the parts of a written query.

Each part of a query is read with gaps around it, and gives back what it was written for: the name
(`WritesName.bareName_eq`), the selector (`WritesSelector.readSelector?_eq`), the time range
(`WritesRange.readRange_eq`) and the width (`WritesWidth.readWidth?_eq`).
-/
import TimeSeries.Proofs.Decimal
import TimeSeries.Proofs.Query.Written

namespace TimeSeries.Query

open Text (isBlank isNameChar trim cut?)

variable {name w l r s : List Char} {f : Aggregation}

/-! ## Names -/

theorem isNameChar_quote : isNameChar '"' = false ∧ isNameChar '\\' = false := by decide +kernel

theorem IsQuotable.bareEnds (h : IsQuotable name) :
    (∀ c ∈ name.head?, (c == '"' || c == '\\') = false) ∧
      ∀ c ∈ name.getLast?, (c == '"' || c == '\\') = false := by
  constructor
  · intro c hc
    have hquote : c ≠ '"' := fun h' => h.no_quote (h' ▸ List.mem_of_head? hc)
    have hslash : c ≠ '\\' := fun h' => h.head (h' ▸ hc)
    simp [hquote, hslash]
  · intro c hc
    have hquote : c ≠ '"' := fun h' => h.no_quote (h' ▸ List.mem_of_getLast? hc)
    have hslash : c ≠ '\\' := fun h' => h.last (h' ▸ hc)
    simp [hquote, hslash]

/-- A name is found between blanks. -/
theorem WritesName.bareName_eq (h : WritesName name w) (hl : ∀ c ∈ l, isBlank c = true)
    (hr : ∀ c ∈ r, isBlank c = true) : bareName (l ++ w ++ r) = name := by
  have hw := h.isWord
  rw [bareName, Text.trim_append_append hl hr hw.ne_nil hw.starts hw.ends]
  cases h with
  | bare hne hname _ =>
    have hends : ∀ c ∈ name, (c == '"' || c == '\\') = false := by
      intro c hc
      have hc := hname c hc
      have hquote : c ≠ '"' := by rintro rfl; rw [isNameChar_quote.1] at hc; cases hc
      have hslash : c ≠ '\\' := by rintro rfl; rw [isNameChar_quote.2] at hc; cases hc
      simp [hquote, hslash]
    have h := Text.strip_append_append (p := fun c => c == '"' || c == '\\') (l := []) (r := [])
      (by simp) (by simp) hne (fun c hc => hends c (List.mem_of_head? hc))
      fun c hc => hends c (List.mem_of_getLast? hc)
    rwa [List.nil_append, List.append_nil] at h
  | quoted hq =>
    exact Text.strip_append_append (l := ['"']) (by simp) (by simp) hq.ne_nil hq.bareEnds.1
      hq.bareEnds.2
  | escaped hq =>
    exact Text.strip_append_append (l := ['\\', '"']) (by simp) (by simp) hq.ne_nil hq.bareEnds.1
      hq.bareEnds.2

theorem bareName_isInfix (s : List Char) : bareName s <:+: s :=
  (Text.strip_isInfix _ _).trans (Text.strip_isInfix _ _)

theorem WritesName.ne_nil (h : WritesName name w) : name ≠ [] := by
  cases h with
  | bare hne _ _ => exact hne
  | quoted hq => exact hq.ne_nil
  | escaped hq => exact hq.ne_nil

/-! ## Gaps -/

theorem isBlank_of_isGap {c : Char} (h : isGap c = true) : isBlank c = true := by
  simp only [isGap, Bool.or_eq_true, beq_iff_eq] at h
  rcases h with ((rfl | rfl) | rfl) | rfl <;> decide

theorem isGap_eq_false_of_isBlank {c : Char} (h : isBlank c = false) : isGap c = false := by
  rw [Bool.eq_false_iff]
  intro hgap
  rw [isBlank_of_isGap hgap] at h
  cases h

theorem IsSpacing.isGap {c : Char} (h : IsSpacing c) : isGap c = true := by
  rcases h with rfl | rfl | rfl <;> decide

theorem IsSpacing.isBlank {c : Char} (h : IsSpacing c) : isBlank c = true :=
  isBlank_of_isGap h.isGap

theorem exists_gap (s : List Char) : ∃ gap, (∀ c ∈ gap, isGap c = true) ∧ gap ++ dropGap s = s :=
  ⟨s.takeWhile isGap, fun _ hc => List.mem_takeWhile_imp hc, List.takeWhile_append_dropWhile⟩

/-! ## Selectors -/

theorem keyword?_eq_some (h : IsKeyword keyword w) (hs : ∀ c ∈ s.head?, isNameChar c = false) :
    keyword? keyword (w ++ s) = some s := by
  rw [keyword?, Text.dropWord?_append h]
  cases s with
  | nil => rfl
  | cons c s => simp [hs c rfl]

theorem keyword?_eq_none (h : ¬ keyword.toList <+: Text.lower s) : keyword? keyword s = none := by
  rw [keyword?, Text.dropWord?_eq_none h]

/-- Behind one keyword another is not found, unless one of the two starts with the other. -/
theorem keyword?_eq_none_of_isKeyword {start : String} (h : IsKeyword start w)
    (hkeyword : ¬ keyword.toList <+: start.toList) (hstart : ¬ start.toList <+: keyword.toList)
    (rest : List Char) : keyword? keyword (w ++ rest) = none := by
  refine keyword?_eq_none fun hprefix => ?_
  rw [Text.lower_append, show Text.lower w = start.toList from h] at hprefix
  exact (List.prefix_or_prefix_of_prefix hprefix (List.prefix_append _ _)).elim hkeyword hstart

theorem exists_of_keyword? (h : keyword? keyword s = some r) :
    ∃ w, IsKeyword keyword w ∧ w ++ r = s := by
  unfold keyword? at h
  split at h
  · cases h
  · rename_i r hr
    split at h
    · cases h
    · obtain rfl := Option.some.inj h
      exact Text.dropWord?_eq_some_iff.mp hr

theorem mem_of_mem_keyword? {c : Char} (h : keyword? keyword s = some r) (hc : c ∈ r) : c ∈ s := by
  obtain ⟨w, -, rfl⟩ := exists_of_keyword? h
  exact List.mem_append_right _ hc

theorem readAggregation?_eq_none (h : '(' ∉ s) : readAggregation? s = none := by
  rw [readAggregation?, List.findSome?_eq_none_iff]
  intro f _
  split
  · rename_i rest hrest
    obtain ⟨r, hr, hgap⟩ := Option.map_eq_some_iff.mp hrest
    have hmem : '(' ∈ r := by
      refine (List.dropWhile_sublist isGap).mem ?_
      rw [← dropGap, hgap]
      exact List.mem_cons_self
    exact absurd (mem_of_mem_keyword? hr hmem) h
  · rfl

theorem keyword?_name (h : IsKeyword f.name name) (hs : ∀ c ∈ s.head?, isNameChar c = false)
    (g : Aggregation) : keyword? g.name (name ++ s) = if g = f then some s else none := by
  split
  · rename_i hg
    rw [hg]
    exact keyword?_eq_some h hs
  · rename_i hg
    -- No name of a reduction starts with another.
    refine keyword?_eq_none_of_isKeyword h ?_ ?_ s <;> cases f <;> cases g <;>
      first | exact absurd rfl hg | decide

/-- The keyword before a parenthesis tells the reduction. -/
theorem readAggregation?_eq_some {gap : List Char} (h : IsKeyword f.name name)
    (hgap : ∀ c ∈ gap, isGap c = true) :
    readAggregation? (name ++ (gap ++ '(' :: s)) = some (f, s) := by
  have hopen : isGap '(' = false ∧ isNameChar '(' = false := by decide +kernel
  have hdrop : dropGap (gap ++ '(' :: s) = '(' :: s :=
    Text.dropWhile_append_of_head? hgap fun c hc => Option.some.inj hc ▸ hopen.1
  have hhead : ∀ c ∈ (gap ++ '(' :: s).head?, isNameChar c = false := by
    cases gap with
    | nil => exact fun c hc => Option.some.inj hc ▸ hopen.2
    | cons d gap =>
      intro c hc
      obtain rfl := Option.some.inj hc
      exact Text.isNameChar_of_isBlank (isBlank_of_isGap (hgap d List.mem_cons_self))
  simp only [readAggregation?, Aggregation.all, List.findSome?_cons, List.findSome?_nil,
    keyword?_name h hhead]
  cases f <;> simp [hdrop]

theorem WritesName.not_mem (h : WritesName name w) {c : Char} (hc : c ∉ name) (hquote : c ≠ '"')
    (hslash : c ≠ '\\') : c ∉ w := by
  cases h with
  | bare => exact hc
  | quoted => simp [hc, hquote]
  | escaped => simp [hc, hquote, hslash]

theorem WritesFields.not_mem {selector : Selector} (h : WritesFields selector w) :
    '(' ∉ w ∧ ')' ∉ w := by
  cases h with
  | all => decide
  | field hname hplain _ =>
    exact ⟨hname.not_mem hplain.1 (by decide) (by decide),
      hname.not_mem hplain.2 (by decide) (by decide)⟩

/-- What the rest of the reader of a selector makes of fields. -/
theorem WritesFields.read_eq {selector : Selector} (h : WritesFields selector w)
    (f : Option Aggregation) :
    (if (bareName w).isEmpty || (bareName w).any (fun c => c == '(' || c == ')') then none
      else if bareName w = ['*'] then some (Selector.all, f)
      else some (.field (String.ofList (bareName w)), f)) = some (selector, f) := by
  cases h with
  | all =>
    have hstar : bareName ['*'] = ['*'] := by decide
    rw [hstar, if_neg (by decide), if_pos rfl]
  | @field name w hname hplain hne =>
    have hbare : bareName w = name := by
      have h := hname.bareName_eq (l := []) (r := []) (by simp) (by simp)
      rwa [List.nil_append, List.append_nil] at h
    have hany : name.any (fun c => c == '(' || c == ')') = false := by
      rw [List.any_eq_false]
      intro c hc
      have hopen : c ≠ '(' := fun h => hplain.1 (h ▸ hc)
      have hclose : c ≠ ')' := fun h => hplain.2 (h ▸ hc)
      simp [hopen, hclose]
    rw [hbare, hany, List.isEmpty_eq_false_iff.mpr hname.ne_nil, if_neg hne]
    rfl

/-- A selector is read between blanks. -/
theorem WritesSelector.readSelector?_eq {selector : Selector} {f : Option Aggregation}
    (h : WritesSelector selector f w) (hl : ∀ c ∈ l, isBlank c = true)
    (hr : ∀ c ∈ r, isBlank c = true) : readSelector? (l ++ w ++ r) = some (selector, f) := by
  have hw := h.isWord
  rw [readSelector?, Text.trim_append_append hl hr hw.ne_nil hw.starts hw.ends]
  cases h with
  | plain hfields =>
    rw [readAggregation?_eq_none hfields.not_mem.1]
    exact hfields.read_eq none
  | @reduced f name w hkeyword hfields =>
    have hword := hfields.isWord
    have htrim : trim (w ++ [')']) = w ++ [')'] := by
      rw [Text.trim_eq_self_iff, Text.startsSolid_append hword.ne_nil,
        Text.endsSolid_append (List.cons_ne_nil _ _)]
      refine ⟨hword.starts, fun c hc => ?_⟩
      obtain rfl := Option.some.inj hc
      decide
    have hstrip : Text.stripEnd (· == ')') (w ++ [')']) = w := by
      refine Text.stripEnd_append_of_getLast? (by simp) fun c hc => ?_
      have hclose : c ≠ ')' := fun h => hfields.not_mem.2 (h ▸ List.mem_of_getLast? hc)
      simp [hclose]
    have hagg : readAggregation? (name ++ '(' :: w ++ [')']) = some (f, w ++ [')']) := by
      rw [List.append_assoc, List.cons_append, ← List.nil_append ('(' :: (w ++ [')']))]
      exact readAggregation?_eq_some hkeyword (List.forall_mem_nil _)
    rw [hagg]
    dsimp only
    rw [htrim, hstrip]
    exact hfields.read_eq (some f)

/-! ## Times -/

variable {ds unit : List Char} {t now start stop : Nanos}

theorem IsDigits.readNat?_eq (h : IsDigits ds) :
    Decimal.readNat? ds = some (Nat.ofDigitChars 10 ds 0) := by
  have hall : ds.all Char.isDigit = true := List.all_eq_true.mpr h.isDigit
  rw [Decimal.readNat?, hall, List.isEmpty_eq_false_iff.mpr h.ne_nil]
  rfl

/-- What is made of a number with a unit behind it. -/
theorem WritesInt.readTime?_append {n : Int} (h : WritesInt n w)
    (hunit : ∀ c ∈ unit.head?, c.isDigit = false) :
    readTime? (w ++ unit) = (Nanos.ofInt? n).bind fun count =>
      if (Text.lower unit).isEmpty then some count
      else if Text.lower unit = ['m', 's'] then count.mul? .milli
      else none := by
  cases h with
  | plain hds =>
    obtain ⟨htake, hdrop⟩ := Text.span_eq_iff.mpr ⟨rfl, hds.isDigit, hunit⟩
    obtain ⟨c, ds, rfl⟩ := List.exists_cons_of_ne_nil hds.ne_nil
    have hc : c ≠ '-' := by
      rintro rfl
      exact absurd (hds.isDigit '-' List.mem_cons_self) (by decide)
    unfold readTime?
    split
    rename_i sign unsigned hsign
    split at hsign
    · rename_i heq
      exact absurd (List.cons.inj heq).1 hc
    · obtain ⟨rfl, rfl⟩ := Prod.mk.inj hsign
      rw [htake, hdrop, hds.readNat?_eq, ← Int.one_mul (Nat.ofDigitChars 10 (c :: ds) 0 : Int)]
      rfl
  | negative hds =>
    obtain ⟨htake, hdrop⟩ := Text.span_eq_iff.mpr ⟨rfl, hds.isDigit, hunit⟩
    unfold readTime?
    simp only [List.cons_append, htake, hdrop, hds.readNat?_eq, Int.neg_mul, Int.one_mul]
    rfl

theorem WritesTime.readTime?_eq (h : WritesTime t w) : readTime? w = some t := by
  cases h with
  | nanos hint =>
    rw [← List.append_nil w, hint.readTime?_append (by simp), Nanos.ofInt?_eq_some_iff.mpr rfl]
    rfl
  | @millis n w unit hint hunit hvalue =>
    have hhead : ∀ c ∈ unit.head?, c.isDigit = false := by
      intro c hc
      have halpha := hunit.isAlpha c (List.mem_of_head? hc)
      rw [Bool.eq_false_iff]
      intro hdigit
      rw [Text.isAlpha_of_isDigit hdigit] at halpha
      cases halpha
    -- A number of milliseconds fits if its product with a million does.
    have hfits : -9223372036854775808 ≤ n ∧ n ≤ 9223372036854775807 := by
      have hlower := t.lower
      have hupper := t.upper
      omega
    have hcount : Nanos.ofInt? n = some ⟨n, hfits.1, hfits.2⟩ := Nanos.ofInt?_eq_some_iff.mpr rfl
    rw [hint.readTime?_append hhead, hcount, show Text.lower unit = ['m', 's'] from hunit]
    exact Nanos.ofInt?_eq_some_iff.mpr hvalue

theorem firstWord_append (hl : ∀ c ∈ l, isBlank c = true) (hne : w ≠ [])
    (hw : ∀ c ∈ w, isBlank c = false) (hs : ∀ c ∈ s.head?, isBlank c = true) :
    Text.firstWord (l ++ (w ++ s)) = w := by
  have hhead : ∀ c ∈ (w ++ s).head?, isBlank c = false := by
    rw [List.head?_append_of_ne_nil w hne]
    exact fun c hc => hw c (List.mem_of_head? hc)
  have hstop : s.takeWhile (!isBlank ·) = [] := by
    cases s with
    | nil => rfl
    | cons c s => exact List.takeWhile_cons_of_neg (by simp [hs c rfl])
  rw [Text.firstWord, Text.trimStart, Text.dropWhile_append_of_head? hl hhead,
    List.takeWhile_append_of_pos (by simpa using hw), hstop, List.append_nil]

/-- A time is read behind blanks and in front of more. -/
theorem WritesTime.readTime_eq (h : WritesTime t w) (hl : ∀ c ∈ l, isBlank c = true)
    (hs : ∀ c ∈ s.head?, isBlank c = true) : readTime (l ++ (w ++ s)) = .ok t := by
  have hword := firstWord_append hl h.isWord.ne_nil (fun c hc => (h.isTimeChar c hc).isSolid.1) hs
  have hand : cut? "and".toList w = none :=
    Text.cut?_eq_none_of_forall_ne fun c hc => (h.isTimeChar c hc).toLower_ne
  have hliteral : timeLiteral (l ++ (w ++ s)) = w := by
    rw [timeLiteral, hword, hand]
  rw [readTime, hliteral, h.readTime?_eq]

/-! ## Time ranges -/

theorem WritesBound.exists_time {side : Char} {ps : List Piece} (h : WritesBound side t ps) :
    ∃ time qs, ps = time :: qs ∧ IsKeyword "time" time.word := by
  cases h with
  | @intro time comparison literal htime _ _ => exact ⟨time, [comparison, literal], rfl, htime⟩

/-- The mark stands nowhere in the text. -/
def Avoids (mark : Char) (s : List Char) : Prop := ∀ c ∈ s, c.toLower ≠ mark

theorem avoids_append {mark : Char} : Avoids mark (l ++ r) ↔ Avoids mark l ∧ Avoids mark r :=
  List.forall_mem_append

section Marks

variable {mark : Char} (hmark : mark = '<' ∨ mark = '>')
include hmark

theorem avoids_of_isSpacing (hs : ∀ c ∈ s, IsSpacing c) : Avoids mark s := by
  intro c hc
  rcases hmark with rfl | rfl <;> rcases hs c hc with rfl | rfl | rfl <;> decide

theorem toLower_ne_mark {c : Char} (h : c.isAlphanum = true) : c.toLower ≠ mark := by
  refine Text.of_isAlphanum (P := fun c => c.toLower ≠ mark) ?_ h
  rcases hmark with rfl | rfl <;> decide +kernel

theorem IsKeyword.avoids [IsLowercase keyword] (h : IsKeyword keyword w) : Avoids mark w :=
  fun c hc => toLower_ne_mark hmark (h.isAlphanum c hc)

theorem WritesTime.avoids (h : WritesTime t w) : Avoids mark w := by
  intro c hc
  rcases (h.isTimeChar c hc).eq_or_isAlphanum with rfl | h
  · rcases hmark with rfl | rfl <;> decide
  · exact toLower_ne_mark hmark h

/-- The bound behind the first comparison is read. -/
theorem readBound_eq {comparison literal : Piece} {sign : String} {front : List Char}
    (default : Nanos) (hsign : sign.toList = [mark, '='])
    (hcomparison : comparison.word = [mark, '=']) (hliteral : WritesTime t literal.word)
    (hgap : ∀ c ∈ comparison.gap, IsSpacing c)
    (hgap' : ∀ c ∈ literal.gap, IsSpacing c) (hfront : Avoids mark front)
    (hs : ∀ c ∈ s.head?, isBlank c = true) :
    readBound sign default (front ++ (textOf [comparison, literal] ++ s)) = .ok t := by
  have hlower : Text.lower comparison.word = [mark, '='] := by
    rw [hcomparison]
    rcases hmark with rfl | rfl <;> decide
  have htext : front ++ (textOf [comparison, literal] ++ s) =
      (front ++ comparison.gap) ++ (comparison.word ++ (literal.gap ++ (literal.word ++ s))) := by
    simp
  have havoids := avoids_append.mpr ⟨hfront, avoids_of_isSpacing hmark hgap⟩
  have hread := hliteral.readTime_eq (fun c hc => (hgap' c hc).isBlank) hs
  rw [readBound, hsign, htext, Text.cut?_append_of_forall_ne havoids,
    Text.cut?_append hlower (by simp [hcomparison])]
  exact hread

/-- A bound avoids the mark of the other side. -/
theorem avoids_bound {side : Char} {comparison literal : Piece} (hside : side.toLower ≠ mark)
    (hcomparison : comparison.word = [side, '=']) (hliteral : WritesTime t literal.word)
    (hgap : ∀ c ∈ comparison.gap, IsSpacing c) (hgap' : ∀ c ∈ literal.gap, IsSpacing c) :
    Avoids mark (textOf [comparison, literal]) := by
  have hsign : Avoids mark comparison.word := by
    rw [hcomparison]
    intro c hc
    rcases List.mem_cons.mp hc with rfl | hc
    · exact hside
    · rw [List.mem_singleton.mp hc]
      rcases hmark with rfl | rfl <;> decide
  simp only [textOf_cons, textOf_nil, List.append_nil, avoids_append]
  exact ⟨avoids_of_isSpacing hmark hgap, hsign, avoids_of_isSpacing hmark hgap',
    hliteral.avoids hmark⟩

end Marks

theorem readBound_eq_default {mark : Char} {sign : String} (default : Nanos)
    (hsign : sign.toList = [mark, '=']) (hs : Avoids mark s) :
    readBound sign default s = .ok default := by
  rw [readBound, hsign, Text.cut?_eq_none_of_forall_ne hs]

/-- Comparisons are looked for behind the word TIME. -/
theorem readRange_append {time : Piece} {ps : List Piece} (htime : IsKeyword "time" time.word)
    (hgap : ∀ c ∈ time.gap, IsSpacing c) (s : List Char) (now : Nanos) :
    readRange (textOf (time :: ps) ++ s) now = (do
      let start ← readBound ">=" .zero (textOf ps ++ s)
      let stop ← readBound "<=" now (textOf ps ++ s)
      .ok (start, stop)) := by
  have hskip : ∀ c ∈ time.gap, c.toLower ≠ 't' := by
    intro c hc
    rcases hgap c hc with rfl | rfl | rfl <;> decide
  have htoList : "time".toList = ['t', 'i', 'm', 'e'] := by decide
  have hcut : cut? "time".toList (textOf (time :: ps) ++ s) = some (time.gap, textOf ps ++ s) := by
    rw [textOf_cons, List.append_assoc, List.append_assoc, htoList,
      Text.cut?_append_of_forall_ne hskip,
      Text.cut?_append (Eq.trans htime htoList) htime.ne_nil]
    simp
  rw [readRange, hcut]

section Sides

variable {side other : Char} {sign sign' : String} {time : Piece} {ps qs : List Piece}
  {t t' : Nanos}
  (hsides : side = '<' ∧ other = '>' ∨ side = '>' ∧ other = '<')
  (hsign : sign.toList = [side, '=']) (hsign' : sign'.toList = [other, '='])
  (hs : ∀ c ∈ s.head?, isBlank c = true)
include hsides hsign hsign' hs

/-- A bound alone is read on its side, and nothing on the other one. -/
theorem WritesBound.readBound_eq (h : WritesBound side t (time :: ps))
    (hps : ∀ p ∈ ps, p.IsGapped) (havoids : Avoids other s) (default default' : Nanos) :
    readBound sign default (textOf ps ++ s) = .ok t ∧
      readBound sign' default' (textOf ps ++ s) = .ok default' := by
  cases h with
  | @intro _ comparison literal _ hcomparison hliteral =>
    simp only [List.forall_mem_cons] at hps
    obtain ⟨⟨-, hgap⟩, ⟨-, hgap'⟩, -⟩ := hps
    have hbound : Avoids other (textOf [comparison, literal]) := by
      refine avoids_bound ?_ ?_ hcomparison hliteral hgap hgap' <;>
        rcases hsides with ⟨rfl, rfl⟩ | ⟨rfl, rfl⟩ <;> simp
    constructor
    · have hmark : side = '<' ∨ side = '>' := hsides.imp And.left And.left
      exact Query.readBound_eq hmark default hsign hcomparison hliteral hgap hgap'
        (List.forall_mem_nil _) hs
    · exact readBound_eq_default default' hsign' (avoids_append.mpr ⟨hbound, havoids⟩)

/-- Each of two bounds is read on its side. -/
theorem WritesBound.readBound_both {both : Piece} (h : WritesBound side t (time :: ps))
    (h' : WritesBound other t' qs) (hboth : IsKeyword "and" both.word)
    (hps : ∀ p ∈ ps ++ both :: qs, p.IsGapped) (default default' : Nanos) :
    readBound sign default (textOf (ps ++ both :: qs) ++ s) = .ok t ∧
      readBound sign' default' (textOf (ps ++ both :: qs) ++ s) = .ok t' := by
  have hmark : side = '<' ∨ side = '>' := hsides.imp And.left And.left
  have hmark' : other = '<' ∨ other = '>' := (hsides.imp And.right And.right).symm
  have hne : side.toLower ≠ other := by rcases hsides with ⟨rfl, rfl⟩ | ⟨rfl, rfl⟩ <;> simp
  cases h with
  | @intro _ comparison literal _ hcomparison hliteral =>
  cases h' with
  | @intro time' comparison' literal' htime' hcomparison' hliteral' =>
    simp only [List.forall_mem_append, List.forall_mem_cons] at hps
    obtain ⟨⟨⟨-, hg₁⟩, ⟨-, hg₂⟩, -⟩, ⟨hne₃, hg₃⟩, ⟨-, hg₄⟩, ⟨-, hg₅⟩, ⟨-, hg₆⟩, -⟩ := hps
    rw [textOf_append, List.append_assoc]
    constructor
    · refine Query.readBound_eq hmark default hsign hcomparison hliteral hg₁ hg₂
        (List.forall_mem_nil _) fun c hc => ?_
      rw [textOf_cons, List.append_assoc, List.head?_append_of_ne_nil _ hne₃] at hc
      exact (hg₃ c (List.mem_of_head? hc)).isBlank
    · have htext : textOf [comparison, literal] ++
          (textOf [both, time', comparison', literal'] ++ s) =
          textOf [comparison, literal] ++ textOf [both, time'] ++
            (textOf [comparison', literal'] ++ s) := by simp
      rw [htext]
      refine Query.readBound_eq hmark' default' hsign' hcomparison' hliteral' hg₅ hg₆ ?_ hs
      -- No comparison of the other side stands in the first bound or in AND TIME.
      have hfirst := avoids_bound hmark' hne hcomparison hliteral hg₁ hg₂
      have hand := hboth.avoids hmark'
      have htime := htime'.avoids hmark'
      simp only [textOf_cons, textOf_nil, List.append_nil, avoids_append] at hfirst ⊢
      exact ⟨hfirst, avoids_of_isSpacing hmark' hg₃, hand, avoids_of_isSpacing hmark' hg₄, htime⟩

end Sides

/-- A time range is read in front of a gap. -/
theorem WritesRange.readRange_eq {ps : List Piece} (h : WritesRange now start stop ps)
    (hps : ∀ p ∈ ps, p.IsGapped) (hs : ∀ c ∈ s.head?, isBlank c = true)
    (havoids : Avoids '<' s ∧ Avoids '>' s) :
    readRange (textOf ps ++ s) now = .ok (start, stop) := by
  have hlower : ">=".toList = ['>', '='] := by decide
  have hupper : "<=".toList = ['<', '='] := by decide
  cases h with
  | lower h =>
    obtain ⟨time, ps, rfl, htime⟩ := h.exists_time
    obtain ⟨⟨-, hgap⟩, hps⟩ := List.forall_mem_cons.mp hps
    obtain ⟨hstart, hstop⟩ :=
      h.readBound_eq (.inr ⟨rfl, rfl⟩) hlower hupper hs hps havoids.1 .zero now
    rw [readRange_append htime hgap, hstart, hstop]
    rfl
  | upper h =>
    obtain ⟨time, ps, rfl, htime⟩ := h.exists_time
    obtain ⟨⟨-, hgap⟩, hps⟩ := List.forall_mem_cons.mp hps
    obtain ⟨hstop, hstart⟩ :=
      h.readBound_eq (.inl ⟨rfl, rfl⟩) hupper hlower hs hps havoids.2 now .zero
    rw [readRange_append htime hgap, hstart, hstop]
    rfl
  | lowerUpper h hboth h' =>
    obtain ⟨time, ps, rfl, htime⟩ := h.exists_time
    obtain ⟨⟨-, hgap⟩, hps⟩ := List.forall_mem_cons.mp hps
    obtain ⟨hstart, hstop⟩ :=
      h.readBound_both (.inr ⟨rfl, rfl⟩) hlower hupper hs h' hboth hps .zero now
    rw [List.cons_append, readRange_append htime hgap, hstart, hstop]
    rfl
  | upperLower h hboth h' =>
    obtain ⟨time, ps, rfl, htime⟩ := h.exists_time
    obtain ⟨⟨-, hgap⟩, hps⟩ := List.forall_mem_cons.mp hps
    obtain ⟨hstop, hstart⟩ :=
      h.readBound_both (.inl ⟨rfl, rfl⟩) hupper hlower hs h' hboth hps now .zero
    rw [List.cons_append, readRange_append htime hgap, hstart, hstop]
    rfl

/-! ## Widths -/

theorem IsDigits.readInt?_eq (h : IsDigits ds) :
    Decimal.readInt? ds = some (Nat.ofDigitChars 10 ds 0 : Int) :=
  Decimal.readInt?_of_readNat? h.readNat?_eq

/-- A number of minutes has a width if it is positive and their nanoseconds can be counted. -/
theorem bind_minutes (n : Nat) :
    ((Nanos.ofInt? n).bind fun count =>
      if 0 < count.toInt then count.mul? .minute else none) = widthOfMinutes? n := by
  by_cases hfits : (n : Int) ≤ 9223372036854775807
  · have hcount : Nanos.ofInt? n = some ⟨n, by omega, hfits⟩ := Nanos.ofInt?_eq_some_iff.mpr rfl
    rw [hcount, Option.bind_some, widthOfMinutes?, Nanos.mul?]
    by_cases hzero : n = 0
    · simp [hzero]
    · rw [if_neg hzero, if_pos (by show 0 < (n : Int); omega)]
      rfl
  · have hnone : Nanos.ofInt? n = none := dif_neg (by omega)
    have hnone' : Nanos.ofInt? (n * 60000000000) = none := dif_neg (by omega)
    rw [hnone, widthOfMinutes?, if_neg (by omega), hnone']
    rfl

theorem dropGap_cons {c : Char} (hc : isGap c = false) (s : List Char) :
    dropGap (c :: s) = c :: s :=
  List.dropWhile_cons_of_neg (by simp [hc])

theorem isGap_of_isAlphanum {c : Char} (h : c.isAlphanum = true) : isGap c = false :=
  Text.of_isAlphanum (P := fun c => isGap c = false) (by decide +kernel) h

/-- The letter of minutes. -/
theorem eq_singleton_of_isKeyword (h : IsKeyword "m" w) : ∃ m, w = [m] ∧ (m = 'm' ∨ m = 'M') := by
  have hlower : w.map Char.toLower = ['m'] := Eq.trans h (by decide)
  obtain ⟨m, rfl, hm⟩ := List.map_eq_singleton_iff.mp hlower
  have hletter : m.toLower = 'm' → m = 'm' ∨ m = 'M' :=
    Text.of_isAlphanum (P := fun m => m.toLower = 'm' → m = 'm' ∨ m = 'M') (by decide +kernel)
      (h.isAlphanum m List.mem_cons_self)
  exact ⟨m, rfl, hletter hm⟩

/-- A width is read behind blanks, whatever follows it. -/
theorem WritesWidth.readWidth?_eq {width : Option Nanos} (h : WritesWidth width w)
    (hl : ∀ c ∈ l, isBlank c = true) (rest : List Char) :
    readWidth? (l ++ (w ++ rest)) = width := by
  have hword := h.isWord
  have htrim : Text.trimStart (l ++ (w ++ rest)) = w ++ rest := by
    refine Text.dropWhile_append_of_head? hl ?_
    rw [List.head?_append_of_ne_nil w hword.ne_nil]
    exact hword.starts
  cases h with
  | @intro time ds unit htime hds hunit =>
    obtain ⟨m, rfl, hm⟩ := eq_singleton_of_isKeyword hunit
    have hm' : m.isDigit = false ∧ isGap m = false := by rcases hm with rfl | rfl <;> decide
    have htext : time ++ '(' :: ds ++ [m] ++ [')'] ++ rest =
        time ++ '(' :: (ds ++ m :: ')' :: rest) := by simp
    have hkeyword : keyword? "time" (time ++ '(' :: (ds ++ m :: ')' :: rest)) =
        some ('(' :: (ds ++ m :: ')' :: rest)) := by
      refine keyword?_eq_some htime fun c hc => ?_
      obtain rfl := Option.some.inj hc
      decide +kernel
    have hdigits : dropGap (ds ++ m :: ')' :: rest) = ds ++ m :: ')' :: rest := by
      obtain ⟨d, ds, rfl⟩ := List.exists_cons_of_ne_nil hds.ne_nil
      have hd := Text.isAlphanum_of_isDigit (hds.isDigit d List.mem_cons_self)
      exact dropGap_cons (isGap_of_isAlphanum hd) _
    have hunit : ∀ c ∈ (m :: ')' :: rest).head?, c.isDigit = false := by
      intro c hc
      obtain rfl := Option.some.inj hc
      exact hm'.1
    obtain ⟨htake, hdrop⟩ := Text.span_eq_iff.mpr ⟨rfl, hds.isDigit, hunit⟩
    have hopen : isGap '(' = false ∧ isGap ')' = false := by decide
    rw [htext] at htrim ⊢
    rw [readWidth?, htrim, hkeyword]
    simp only [Option.bind_eq_bind, Option.bind_some, dropGap_cons, hopen, hdigits, htake, hdrop,
      hm'.2, Nanos.read?, hds.readInt?_eq, hm, true_and]
    exact bind_minutes _

end TimeSeries.Query
