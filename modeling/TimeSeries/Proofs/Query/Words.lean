/-
# TimeSeries.Proofs.Query.Words — the words of a text, and the pieces between them.

A text is put together from pieces, each a gap with a word behind it. A word in which every break
stands between quotes is read as a whole (`readWord_append`), so the words that are read are those
that were put in, each at its place (`words_textOf`). What lies between two of them is found again
by cutting at their places.
-/
import TimeSeries.Proofs.Text.Case
import TimeSeries.Proofs.Text.Letter
import TimeSeries.Query.Interpret

namespace TimeSeries.Query

open Text (isBlank StartsSolid EndsSolid)

variable {w s a b rest : List Char} {quoted : Bool}

/-! ## Words that stay whole -/

/-- Read from inside or outside quotes, a text has no break outside quotes, and ends outside. -/
def IsWhole : Bool → List Char → Prop
  | quoted, [] => quoted = false
  | quoted, c :: s =>
    (quoted = false → isBreak c = false) ∧ IsWhole (if c = '"' then !quoted else quoted) s

theorem readWord_append (h : IsWhole quoted w) (hrest : ∀ c ∈ rest.head?, isBreak c = true) :
    readWord quoted (w ++ rest) = (w, rest) := by
  induction w generalizing quoted with
  | nil =>
    obtain rfl : quoted = false := h
    cases rest with
    | nil => rfl
    | cons c s => rw [List.nil_append, readWord, hrest c rfl]; rfl
  | cons c w ih =>
    obtain ⟨hbreak, hw⟩ := h
    have hstay : (isBreak c && !quoted) = false := by
      cases quoted with
      | true => rw [Bool.not_true, Bool.and_false]
      | false => rw [hbreak rfl, Bool.false_and]
    rw [List.cons_append, readWord, hstay, ih hw]
    rfl

/-- Text without quotes changes nothing in front of other text, if it may stand there. -/
theorem isWhole_append (ha : '"' ∉ a) (hbreak : quoted = false → ∀ c ∈ a, isBreak c = false) :
    IsWhole quoted (a ++ b) ↔ IsWhole quoted b := by
  induction a with
  | nil => rfl
  | cons c a ih =>
    obtain ⟨hc, ha⟩ := not_or.mp (mt List.mem_cons.mpr ha)
    have hrest := ih ha fun h d hd => hbreak h d (List.mem_cons_of_mem c hd)
    rw [List.cons_append, IsWhole, if_neg (Ne.symm hc), hrest]
    exact and_iff_right fun h => hbreak h c List.mem_cons_self

theorem isWhole_quote : IsWhole quoted ('"' :: s) ↔ IsWhole (!quoted) s := by
  rw [IsWhole, if_pos rfl]
  exact and_iff_right fun _ => rfl

theorem isBlank_of_isBreak {c : Char} (h : isBreak c = true) : isBlank c = true := by
  simp only [isBreak, Bool.or_eq_true, beq_iff_eq] at h
  rcases h with (((rfl | rfl) | rfl) | rfl) | rfl <;> decide

theorem isBreak_of_isBlank {c : Char} (h : isBlank c = false) : isBreak c = false := by
  rw [Bool.eq_false_iff]
  intro hbreak
  rw [isBlank_of_isBreak hbreak] at h
  cases h

theorem IsWhole.append (h : IsWhole quoted a) : IsWhole quoted (a ++ b) ↔ IsWhole false b := by
  induction a generalizing quoted with
  | nil =>
    obtain rfl : quoted = false := h
    rfl
  | cons c a ih =>
    rw [List.cons_append, IsWhole, ih h.2]
    exact and_iff_right h.1

/-- No blank and no quote. -/
def IsSolid (c : Char) : Prop := isBlank c = false ∧ c ≠ '"'

instance (c : Char) : Decidable (IsSolid c) := inferInstanceAs (Decidable (_ ∧ _))

/-- A word is read as a whole and has no blank at its ends. -/
structure IsWord (w : List Char) : Prop where
  ne_nil : w ≠ []
  whole : IsWhole false w
  starts : StartsSolid w
  ends : EndsSolid w

theorem isWhole_append_of_isSolid (ha : ∀ c ∈ a, IsSolid c) :
    IsWhole false (a ++ b) ↔ IsWhole false b :=
  isWhole_append (fun hmem => (ha _ hmem).2 rfl) fun _ c hc => isBreak_of_isBlank (ha c hc).1

/-- Without blanks and quotes a text is a word. -/
theorem isWord_of_isSolid (hne : w ≠ []) (hw : ∀ c ∈ w, IsSolid c) : IsWord w where
  ne_nil := hne
  whole := by
    have h := isWhole_append_of_isSolid (b := []) hw
    rw [List.append_nil] at h
    exact h.mpr rfl
  starts c hc := (hw c (List.mem_of_head? hc)).1
  ends c hc := (hw c (List.mem_of_getLast? hc)).1

/-- A word is still one with text without blanks and quotes around it. -/
theorem IsWord.append_append (hw : IsWord w) (ha : ∀ c ∈ a, IsSolid c) (hb : ∀ c ∈ b, IsSolid c) :
    IsWord (a ++ (w ++ b)) where
  ne_nil := by simp [hw.ne_nil]
  whole := by
    have h := isWhole_append_of_isSolid (b := []) hb
    rw [List.append_nil] at h
    rw [isWhole_append_of_isSolid ha, hw.whole.append, h]
    rfl
  starts := by
    cases a with
    | nil => rw [List.nil_append, Text.startsSolid_append hw.ne_nil]; exact hw.starts
    | cons c a =>
      intro d hd
      obtain rfl := Option.some.inj hd
      exact (ha c List.mem_cons_self).1
  ends := by
    rw [Text.endsSolid_append (by simp [hw.ne_nil])]
    obtain rfl | hne := eq_or_ne b []
    · rw [List.append_nil]; exact hw.ends
    · rw [Text.endsSolid_append hne]
      exact fun c hc => (hb c (List.mem_of_getLast? hc)).1

/-! ## Pieces -/

/-- A word and the gap before it. -/
structure Piece where
  gap : List Char
  word : List Char

/-- The gap and the word. -/
def Piece.text (p : Piece) : List Char := p.gap ++ p.word

/-- Pieces one after the other. -/
def textOf (ps : List Piece) : List Char := ps.flatMap Piece.text

@[simp] theorem textOf_nil : textOf [] = [] := rfl

@[simp] theorem textOf_cons (p : Piece) (ps : List Piece) :
    textOf (p :: ps) = p.gap ++ (p.word ++ textOf ps) := by
  rw [textOf, List.flatMap_cons, Piece.text, List.append_assoc]
  rfl

@[simp] theorem textOf_append (ps qs : List Piece) : textOf (ps ++ qs) = textOf ps ++ textOf qs :=
  List.flatMap_append

/-- There is a gap of breaks, then a word. -/
structure Piece.IsSpaced (p : Piece) : Prop where
  gap_ne_nil : p.gap ≠ []
  isBreak_gap : ∀ c ∈ p.gap, isBreak c = true
  isWord : IsWord p.word

variable {p : Piece} {ps : List Piece}

theorem isBreak_head?_textOf (hps : ∀ p ∈ ps, p.IsSpaced) :
    ∀ c ∈ (textOf ps).head?, isBreak c = true := by
  cases ps with
  | nil =>
    intro c hc
    cases hc
  | cons p ps =>
    have hp := hps p List.mem_cons_self
    intro c hc
    rw [textOf_cons, List.head?_append_of_ne_nil _ hp.gap_ne_nil] at hc
    exact hp.isBreak_gap c (List.mem_of_head? hc)

theorem endsSolid_textOf (hps : ∀ p ∈ ps, p.IsSpaced) : EndsSolid (textOf ps) := by
  obtain rfl | ⟨ps, p, rfl⟩ := List.eq_nil_or_concat ps
  · intro c hc
    cases hc
  · have hp := (hps p (by simp)).isWord
    rw [List.concat_eq_append, textOf_append, textOf_cons, textOf_nil, List.append_nil,
      ← List.append_assoc, Text.endsSolid_append hp.ne_nil]
    exact hp.ends

/-! ## Places -/

/-- The word of a piece that stands behind others, at its place. -/
def Piece.after (before : List Piece) (p : Piece) : Word :=
  ⟨p.word, (textOf before).length + p.gap.length⟩

theorem stop_after (before : List Piece) (p : Piece) :
    (p.after before).stop = (textOf (before ++ [p])).length := by
  rw [Word.stop, Piece.after, textOf_append, textOf_cons, textOf_nil, List.append_nil,
    List.length_append, List.length_append, Nat.add_assoc]

/-- The words of pieces that stand behind others, each at its place. -/
def placed (before : List Piece) : List Piece → List Word
  | [] => []
  | p :: ps => p.after before :: placed (before ++ [p]) ps

theorem placed_append (before ps qs : List Piece) :
    placed before (ps ++ qs) = placed before ps ++ placed (before ++ ps) qs := by
  induction ps generalizing before with
  | nil => rw [List.append_nil]; rfl
  | cons p ps ih =>
    rw [List.cons_append, placed, placed, ih, List.append_assoc]
    rfl

theorem wordsFrom_gap {gap : List Char} (hgap : ∀ c ∈ gap, isBreak c = true) (n : Nat)
    (s : List Char) : wordsFrom n (gap ++ s) = wordsFrom (n + gap.length) s := by
  induction gap generalizing n with
  | nil => rfl
  | cons c gap ih =>
    rw [List.cons_append, wordsFrom, if_pos (hgap c List.mem_cons_self),
      ih (fun d hd => hgap d (List.mem_cons_of_mem c hd)), List.length_cons]
    congr 1
    omega

theorem wordsFrom_word (hw : IsWord w) (hrest : ∀ c ∈ rest.head?, isBreak c = true) (n : Nat) :
    wordsFrom n (w ++ rest) = ⟨w, n⟩ :: wordsFrom (n + w.length) rest := by
  have hne := hw.ne_nil
  obtain ⟨c, w, rfl⟩ := List.exists_cons_of_ne_nil hne
  obtain ⟨hbreak, hwhole⟩ := hw.whole
  have hquoted : (if c = '"' then !false else false) = (c == '"') := by
    by_cases hc : c = '"' <;> simp [hc]
  rw [hquoted] at hwhole
  rw [List.cons_append, wordsFrom, if_neg (by simp [hbreak rfl]), readWord_append hwhole hrest]
  rfl

theorem wordsFrom_textOf (hps : ∀ p ∈ ps, p.IsSpaced) (before : List Piece) :
    wordsFrom (textOf before).length (textOf ps) = placed before ps := by
  induction ps generalizing before with
  | nil => rw [textOf_nil, wordsFrom, placed]
  | cons p ps ih =>
    have hp := hps p List.mem_cons_self
    have hps : ∀ q ∈ ps, q.IsSpaced := fun q hq => hps q (List.mem_cons_of_mem p hq)
    have hstop := stop_after before p
    rw [textOf_cons, wordsFrom_gap hp.isBreak_gap,
      wordsFrom_word hp.isWord (isBreak_head?_textOf hps), placed, ← ih hps, ← hstop]
    rfl

/-- The words that were put together are the words that are read. -/
theorem words_textOf (hps : ∀ p ∈ ps, p.IsSpaced) : words (textOf ps) = placed [] ps :=
  wordsFrom_textOf hps []

/-! ## Keywords among the words -/

/-- The text is a keyword, in letters of any case. -/
def IsKeyword (keyword : String) (w : List Char) : Prop := Text.lower w = keyword.toList

instance (keyword : String) (w : List Char) : Decidable (IsKeyword keyword w) :=
  inferInstanceAs (Decidable (_ = _))

/-- The letters of a keyword are given in lower case. -/
class IsLowercase (keyword : String) : Prop where
  ne_nil : keyword.toList ≠ []
  isLower : keyword.toList.all Char.isLower = true

instance : IsLowercase "select" := ⟨by decide, by decide⟩
instance : IsLowercase "create" := ⟨by decide, by decide⟩
instance : IsLowercase "database" := ⟨by decide, by decide⟩
instance : IsLowercase "use" := ⟨by decide, by decide⟩
instance : IsLowercase "from" := ⟨by decide, by decide⟩
instance : IsLowercase "where" := ⟨by decide, by decide⟩
instance : IsLowercase "group" := ⟨by decide, by decide⟩
instance : IsLowercase "by" := ⟨by decide, by decide⟩
instance : IsLowercase "time" := ⟨by decide, by decide⟩
instance : IsLowercase "and" := ⟨by decide, by decide⟩
instance : IsLowercase "ms" := ⟨by decide, by decide⟩
instance : IsLowercase "m" := ⟨by decide, by decide⟩

instance (f : Aggregation) : IsLowercase f.name := by
  cases f <;> exact ⟨by decide, by decide⟩

variable {keyword other : String}

theorem lower_toList (keyword : String) [hkeyword : IsLowercase keyword] :
    Text.lower keyword.toList = keyword.toList := by
  have hlower := List.all_eq_true.mp hkeyword.isLower
  refine (List.map_congr_left fun c hc => ?_).trans (List.map_id _)
  exact Char.toLower_eq_of_not_isUpper (Char.not_isUpper_of_isLower (hlower c hc))

theorem Word.is_iff [IsLowercase keyword] {word : Word} :
    word.is keyword = true ↔ IsKeyword keyword word.text := by
  rw [Word.is, Text.sameLetters_iff, lower_toList]
  rfl

theorem IsKeyword.ne_nil [hkeyword : IsLowercase keyword] (h : IsKeyword keyword w) : w ≠ [] := by
  rintro rfl
  exact hkeyword.ne_nil h.symm

theorem IsKeyword.ne (h : IsKeyword keyword w) (hne : keyword ≠ other) : ¬ IsKeyword other w :=
  fun h' => hne (String.toList_inj.mp (Eq.trans h.symm h'))

theorem IsKeyword.isAlpha [hkeyword : IsLowercase keyword] (h : IsKeyword keyword w) :
    ∀ c ∈ w, c.isAlpha = true := by
  intro c hc
  have hlower : c.toLower ∈ keyword.toList := by
    rw [← show Text.lower w = keyword.toList from h]
    exact List.mem_map_of_mem hc
  rw [← Char.isLower_toLower_eq_isAlpha]
  exact List.all_eq_true.mp hkeyword.isLower _ hlower

theorem IsKeyword.isAlphanum [IsLowercase keyword] (h : IsKeyword keyword w) :
    ∀ c ∈ w, c.isAlphanum = true :=
  fun c hc => Text.isAlphanum_of_isAlpha (h.isAlpha c hc)

/-- A text with a character that is no letter of ASCII is no keyword. -/
theorem not_isKeyword_of_mem [IsLowercase keyword] {c : Char} (hc : c ∈ w)
    (halpha : c.isAlpha = false) : ¬ IsKeyword keyword w := by
  intro h
  rw [h.isAlpha c hc] at halpha
  cases halpha

theorem isWord_of_isNameChar (hne : w ≠ []) (hw : ∀ c ∈ w, Text.isNameChar c = true) :
    IsWord w := by
  refine isWord_of_isSolid hne fun c hc => ⟨Text.isBlank_of_isNameChar (hw c hc), ?_⟩
  rintro rfl
  have hquote : Text.isNameChar '"' = false := by decide +kernel
  rw [hw _ hc] at hquote
  cases hquote

theorem IsKeyword.isWord [IsLowercase keyword] (h : IsKeyword keyword w) : IsWord w :=
  isWord_of_isNameChar h.ne_nil fun c hc => Text.isNameChar_of_isAlphanum (h.isAlphanum c hc)

variable {ws vs : List Word}

theorem not_is_of_mem_placed [IsLowercase keyword] (hps : ∀ p ∈ ps, ¬ IsKeyword keyword p.word)
    (before : List Piece) : ∀ word ∈ placed before ps, word.is keyword = false := by
  induction ps generalizing before with
  | nil =>
    intro word hword
    cases hword
  | cons p ps ih =>
    intro word hword
    rcases List.mem_cons.mp hword with rfl | hword
    · rw [Bool.eq_false_iff, Ne, Word.is_iff]
      exact hps p List.mem_cons_self
    · exact ih (fun q hq => hps q (List.mem_cons_of_mem p hq)) _ word hword

theorem find?_placed_eq_none [IsLowercase keyword] (hps : ∀ p ∈ ps, ¬ IsKeyword keyword p.word)
    (before : List Piece) :
    (placed before ps).find? (·.is keyword) = none := by
  rw [List.find?_eq_none]
  intro word hword
  rw [not_is_of_mem_placed hps before word hword]
  exact Bool.false_ne_true

/-- The first of some pieces that is a keyword. -/
theorem find?_placed [IsLowercase keyword] (hps : ∀ p ∈ ps, ¬ IsKeyword keyword p.word)
    (hp : IsKeyword keyword p.word) (before qs : List Piece) :
    (placed before (ps ++ p :: qs)).find? (·.is keyword) = some (p.after (before ++ ps)) := by
  rw [placed_append, placed, List.find?_append, find?_placed_eq_none hps, Option.none_or]
  exact List.find?_cons_of_pos (Word.is_iff.mpr hp)

theorem fst_mem_of_findGroupBy? {ws : List Word} {g : Word × Word} (h : findGroupBy? ws = some g) :
    g.1 ∈ ws := by
  fun_induction findGroupBy? ws with
  | case1 a b ws _ =>
    obtain rfl := Option.some.inj h
    exact List.mem_cons_self
  | case2 a b ws _ ih => exact List.mem_cons_of_mem _ (ih h)
  | case3 => cases h

/-- The search for GROUP BY passes over words that are not GROUP. -/
theorem findGroupBy?_append (h : ∀ word ∈ ws, word.is "group" = false) :
    findGroupBy? (ws ++ vs) = findGroupBy? vs := by
  induction ws with
  | nil => rfl
  | cons word ws ih =>
    have hrest := ih fun v hv => h v (List.mem_cons_of_mem word hv)
    have hword := h word List.mem_cons_self
    rw [← hrest, List.cons_append]
    cases ws ++ vs with
    | nil => rfl
    | cons v vs => rw [findGroupBy?, hword]; rfl

theorem findGroupBy?_placed_eq_none (hps : ∀ p ∈ ps, ¬ IsKeyword "group" p.word)
    (before : List Piece) : findGroupBy? (placed before ps) = none := by
  rw [← List.append_nil (placed before ps),
    findGroupBy?_append (not_is_of_mem_placed hps before)]
  rfl

/-- The first GROUP of some pieces, if BY follows it. -/
theorem findGroupBy?_placed {q : Piece} (hps : ∀ p ∈ ps, ¬ IsKeyword "group" p.word)
    (hp : IsKeyword "group" p.word) (hq : IsKeyword "by" q.word) (before qs : List Piece) :
    findGroupBy? (placed before (ps ++ p :: q :: qs)) =
      some (p.after (before ++ ps), q.after (before ++ ps ++ [p])) := by
  rw [placed_append, findGroupBy?_append (not_is_of_mem_placed hps _), placed, placed,
    findGroupBy?, Word.is_iff.mpr hp, Word.is_iff.mpr hq]
  rfl

/-! ## Cutting at places -/

/-- From the end of some pieces up to the word of another stand the pieces between and a gap. -/
theorem slice_textOf (before between behind : List Piece) (p : Piece) :
    slice (textOf (before ++ (between ++ p :: behind))) (textOf before).length
      (p.after (before ++ between)).start = textOf between ++ p.gap := by
  rw [Piece.after, textOf_append, textOf_append, textOf_append, textOf_cons,
    ← List.append_assoc (textOf between), slice, List.drop_left, List.length_append, Nat.add_assoc,
    Nat.add_sub_cancel_left, ← List.length_append, List.take_left]

theorem drop_textOf (before behind : List Piece) :
    (textOf (before ++ behind)).drop (textOf before).length = textOf behind := by
  rw [textOf_append, List.drop_left]

/-- From the end of some pieces up to the end stand the pieces behind them. -/
theorem slice_textOf_end (before behind : List Piece) :
    slice (textOf (before ++ behind)) (textOf before).length (textOf (before ++ behind)).length =
      textOf behind := by
  rw [slice, drop_textOf, textOf_append, List.length_append, Nat.add_sub_cancel_left,
    List.take_length]

end TimeSeries.Query
