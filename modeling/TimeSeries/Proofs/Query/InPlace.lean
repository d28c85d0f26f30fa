/-
# TimeSeries.Proofs.Query.InPlace — queries read by places in their bytes.

A SELECT is cut into words by walking over its bytes, its clauses are cut out between the places of
words, and the bounds of a time range are found in a copy in lower case and cut out of the query
itself. Each of these cuts gives up where its places lie beyond the text or inside a character, or
are in the wrong order (`Text.slice?`). None does: words come one behind the other, and a letter in
lower case is as long as it was. What is read in place is what is read (`interpretInPlace_eq`).
-/
import TimeSeries.Proofs.Line.InPlace
import TimeSeries.Proofs.Outcome
import TimeSeries.Proofs.Query.Select
import TimeSeries.Proofs.Query.Tiling
import TimeSeries.Proofs.Text.Lower
import TimeSeries.Proofs.Text.Slice

namespace TimeSeries.Query

open Text (bytes size piece At trim)
open Outcome (Follows)

variable {s t rest body : List Char} {i j : Nat} {now : Nanos}

/-! ## Readers in place -/

/-- A reader that fails as the readers of queries do, or gives up. -/
abbrev Scan := ExceptT Error Option

/-- A word, and the places in front of it and behind it. -/
structure Span where
  text : List Char
  start : Nat
  stop : Nat

/-- The word is this keyword, whatever the case of its letters. -/
def Span.is (w : Span) (keyword : String) : Bool := Text.sameLetters w.text keyword.toList

/-- The whitespace characters of ASCII. -/
def breaks : List Char := [' ', '\t', '\n', '\x0c', '\r']

/-- The number of bytes of a word, read inside or outside quotes. -/
def wordSize : Bool → List UInt8 → Nat
  | _, [] => 0
  | quoted, b :: bs =>
    if decide (b ∈ bytes breaks) && !quoted then 0
    else wordSize (if b = '"'.toUInt8 then !quoted else quoted) bs + 1

theorem wordSize_pos {bs : List UInt8} {b : UInt8} (h : bs.head? = some b)
    (hb : b ∉ bytes breaks) : 0 < wordSize false bs := by
  obtain ⟨bs, rfl⟩ := List.head?_eq_some_iff.mp h
  rw [wordSize, decide_eq_false hb]
  exact Nat.succ_pos _

/-- Takes the words from a place on. -/
def takeWords (s : List Char) (i : Nat) : Scan (List Span) :=
  match _h : (bytes s)[i]? with
  | none => pure []
  | some b =>
    if _hb : b ∈ bytes breaks then takeWords s (i + 1)
    else do
      let stop := i + wordSize false ((bytes s).drop i)
      let text ← piece s i stop
      let later ← takeWords s stop
      pure (⟨text, i, stop⟩ :: later)
termination_by size s - i
decreasing_by
  · have hlt := (List.getElem?_eq_some_iff.mp _h).1
    simp only [size]; omega
  · have hlt := (List.getElem?_eq_some_iff.mp _h).1
    have hpos := wordSize_pos (by rw [List.head?_drop]; exact _h) _hb
    simp only [size]; omega

/-- The first word GROUP that the word BY follows, and that BY. -/
def spanGroupBy? : List Span → Option (Span × Span)
  | a :: b :: ws => if a.is "group" && b.is "by" then some (a, b) else spanGroupBy? (b :: ws)
  | _ => none

/-- The place of the first occurrence of a word. -/
def find? (word : List Char) : List Char → Option Nat
  | [] => if word = [] then some 0 else none
  | c :: s => if word.isPrefixOf (c :: s) then some 0 else (find? word s).map (· + c.utf8Size)

/-- The literal of a time bound. The letters `and` are searched for in a copy in lower case. -/
def literalInPlace (s : List Char) : Scan (List Char) :=
  let word := Text.firstWord s
  match find? "and".toList (Text.lower word) with
  | some i => piece word 0 i
  | none => pure word

/-- Reads the bound after a comparison. -/
def readTimeInPlace (s : List Char) : Scan Nanos := do
  let literal ← literalInPlace s
  match readTime? literal with
  | some n => pure n
  | none => throw (.invalidTimeFormat (String.ofList literal))

/-- Reads the bound after the first occurrence of a comparison in a copy of the text. -/
def readBoundInPlace (comparison : String) (default : Nanos) (s copy : List Char) : Scan Nanos :=
  match find? comparison.toList copy with
  | some i => do
    let after ← piece s (i + 2) (size s)
    readTimeInPlace after
  | none => pure default

/-- Reads the time range of a condition. -/
def readRangeInPlace (condition : List Char) (now : Nanos) : Scan (Nanos × Nanos) := do
  let copy := Text.lower condition
  match find? "time".toList copy with
  | none => pure (.zero, now)
  | some i => do
    let after ← piece condition (i + 4) (size condition)
    let copyAfter ← piece copy (i + 4) (size copy)
    let start ← readBoundInPlace ">=" .zero after copyAfter
    let stop ← readBoundInPlace "<=" now after copyAfter
    pure (start, stop)

/-- Reads the time range of a condition that the word WHERE starts; a grouping behind it ends it. -/
def takeRange (body : List Char) (groupStart : Nat) (now : Nanos) : Option Span → Scan (Nanos × Nanos)
  | none => pure (.zero, now)
  | some w => do
    let condition ← piece body w.stop (if w.start < groupStart then groupStart else size body)
    readRangeInPlace condition now

/-- Reads the width of a grouping that the words GROUP BY start; it runs to the end. -/
def takeWidth (body : List Char) : Option (Span × Span) → Scan (Option Nanos)
  | none => pure none
  | some g => do
    let grouping ← piece body g.2.stop (size body)
    pure (readWidth? grouping)

/-- Reads the clauses that the word FROM and those behind it cut out of what follows SELECT. -/
def readClausesInPlace (body query : List Char) (now : Nanos) (fromWord : Span)
    (later : List Span) : Scan Select := do
  let whole := String.ofList query
  let clause ← piece body 0 fromWord.start
  match readSelector? clause with
  | none => throw (.invalidSyntax whole)
  | some (selector, f) => do
    let whereWord := later.find? (·.is "where")
    let groupBy := spanGroupBy? later
    let whereStart := (whereWord.map Span.start).getD (size body)
    let groupStart := (groupBy.map (·.1.start)).getD (size body)
    let source ← piece body fromWord.stop (min whereStart groupStart)
    if bareName source = [] then throw (.missingMeasurement whole)
    else do
      let range ← takeRange body groupStart now whereWord
      let width ← takeWidth body groupBy
      pure ⟨String.ofList (bareName source), selector, f, range.1, range.2,
        width.or (f.map fun _ => defaultWidth)⟩

/-- Reads what follows SELECT in a query. -/
def readSelectInPlace (body query : List Char) (now : Nanos) : Scan Select := do
  let ws ← takeWords body 0
  match ws.dropWhile (!·.is "from") with
  | [] => throw (.invalidQuery (String.ofList query))
  | fromWord :: later => readClausesInPlace body query now fromWord later

/-- Reads a trimmed query in place. -/
def interpretTrimmedInPlace (query : List Char) (now : Nanos) : Scan Statement :=
  let whole := String.ofList query
  if query.isEmpty then throw (.invalidQuery "empty query")
  else if let some statement := readShow? query then pure statement
  else if let some rest := keyword? "create" query then
    match readCreate? rest with
    | some name => pure (.createDatabase name)
    | none => throw (.invalidSyntax whole)
  else if let some rest := keyword? "use" query then
    match readName? rest with
    | some name => pure (.use name)
    | none => throw (.invalidSyntax whole)
  else if let some rest := keyword? "select" query then do
    let s ← readSelectInPlace rest query now
    pure (.select s)
  else throw (.invalidQuery whole)

/-- Reads a query in place; none where a reader gives up. -/
def interpretInPlace (query : String) (now : Nanos) : Option (Except Error Statement) :=
  (interpretTrimmedInPlace (trim query.toList) now).run

/-! ## Words -/

theorem lt_of_mem_breaks : ∀ c ∈ breaks, c.toNat < 128 := by
  simp [breaks]

theorem mem_breaks_iff {c : Char} : c ∈ breaks ↔ isBreak c = true := by
  simp [breaks, isBreak, or_assoc]

theorem wordSize_append {quoted : Bool} {bs : List UInt8}
    (hbs : ∀ b ∈ bs, b ∉ bytes breaks ∧ b ≠ '"'.toUInt8) (t : List UInt8) :
    wordSize quoted (bs ++ t) = wordSize quoted t + bs.length := by
  induction bs with
  | nil => rfl
  | cons b bs ih =>
    rw [List.forall_mem_cons] at hbs
    rw [List.cons_append, wordSize, decide_eq_false hbs.1.1, if_neg hbs.1.2, ih hbs.2]
    rfl

/-- A word goes on over the bytes of a character as it does over the character. -/
theorem wordSize_cons {quoted : Bool} {c : Char} (h : (isBreak c && !quoted) = false)
    (t : List UInt8) :
    wordSize quoted (String.utf8EncodeChar c ++ t) =
      wordSize (if c = '"' then !quoted else quoted) t + c.utf8Size := by
  by_cases hc : c.toNat < 128
  · have hbreak : decide (c.toUInt8 ∈ bytes breaks) = isBreak c := by
      rw [Bool.eq_iff_iff, decide_eq_true_eq, Text.toUInt8_mem_bytes_iff hc, mem_breaks_iff]
    have hquote : c.toUInt8 = '"'.toUInt8 ↔ c = '"' := by
      rw [← Text.toUInt8_mem_utf8EncodeChar_iff hc, Text.utf8EncodeChar_of_lt (by decide),
        List.mem_singleton]
    rw [Text.utf8EncodeChar_of_lt hc, List.singleton_append, wordSize, hbreak, h,
      Text.utf8Size_of_lt hc]
    simp only [hquote, Bool.false_eq_true, if_false]
  · have hhigh := Text.le_of_mem_utf8EncodeChar (Nat.le_of_not_lt hc)
    have hne : c ≠ '"' := by
      rintro rfl
      exact hc (by decide)
    rw [if_neg hne, ← String.length_utf8EncodeChar]
    -- The bytes of a longer character are none of ASCII, so they end no word and turn no quotes.
    refine wordSize_append (fun b hb => ⟨fun hmem => ?_, ?_⟩) t
    · have := hhigh b hb
      have := Text.toNat_lt_of_mem_bytes lt_of_mem_breaks hmem
      omega
    · rintro rfl
      exact absurd (hhigh _ hb) (by decide)

theorem wordSize_bytes (quoted : Bool) (s : List Char) :
    wordSize quoted (bytes s) = size (readWord quoted s).1 := by
  fun_induction readWord quoted s with
  | case1 => rfl
  | case2 quoted c s h =>
    rw [Bool.and_eq_true] at h
    have hc := mem_breaks_iff.mpr h.1
    have hlt := lt_of_mem_breaks c hc
    rw [Text.bytes_cons, Text.utf8EncodeChar_of_lt hlt, List.singleton_append, wordSize,
      decide_eq_true ((Text.toUInt8_mem_bytes_iff hlt).mpr hc), h.2]
    rfl
  | case3 quoted c s h word rest hw ih =>
    rw [hw] at ih
    rw [Text.bytes_cons, wordSize_cons (Bool.eq_false_iff.mpr h), ih, Text.size_cons]
    exact Nat.add_comm _ _

/-- A word with its places in a text. -/
def Word.span (s : List Char) (w : Word) : Span :=
  ⟨w.text, size (s.take w.start), size (s.take w.stop)⟩

/-- Where a character stands there is a byte, and it is one of a break if the character is. -/
theorem exists_byte {c : Char} (h : At s i (c :: rest)) :
    ∃ b, (bytes s)[i]? = some b ∧ (b ∈ bytes breaks ↔ isBreak c = true) := by
  have hall := h.all_getElem? lt_of_mem_breaks
  cases hb : (bytes s)[i]? with
  | none =>
    rw [h.getElem?_eq, Text.bytes_cons, List.head?_append_of_ne_nil _ String.utf8EncodeChar_ne_nil,
      List.head?_eq_none_iff] at hb
    exact absurd hb String.utf8EncodeChar_ne_nil
  | some b =>
    rw [hb, Option.all_some, List.head?_cons, Option.all_some, decide_eq_decide] at hall
    exact ⟨b, rfl, hall.trans mem_breaks_iff⟩

theorem takeWords_nil (h : At s i []) : takeWords s i = pure [] := by
  have hbyte := h.getElem?_eq
  rw [takeWords]
  split
  · rfl
  · rename_i b hb
    rw [hbyte] at hb
    cases hb

/-- Words are taken as characters tell: a break is passed over, and other characters start a word. -/
theorem takeWords_cons {c : Char} (h : At s i (c :: rest)) :
    takeWords s i =
      if isBreak c = true then takeWords s (i + 1)
      else (do
        let stop := i + size (readWord false (c :: rest)).1
        let text ← piece s i stop
        let later ← takeWords s stop
        pure (⟨text, i, stop⟩ :: later)) := by
  obtain ⟨b, hb, hmem⟩ := exists_byte h
  rw [takeWords]
  split
  · rename_i hnone
    rw [hb] at hnone
    cases hnone
  · rename_i b' hb'
    obtain rfl := Option.some.inj (hb.symm.trans hb')
    by_cases hc : isBreak c = true
    · rw [dif_pos (hmem.mpr hc), if_pos hc]
    · rw [dif_neg (mt hmem.mp hc), if_neg hc, h.drop_bytes, wordSize_bytes]

theorem size_take_add {place : Nat} {word : List Char} (h : s.drop place = word ++ rest) :
    size (s.take (place + word.length)) = size (s.take place) + size word := by
  rw [List.take_add, h, List.take_left, Text.size_append]

theorem at_of_drop {place : Nat} (h : t.drop place = s) : At t (size (t.take place)) s :=
  h ▸ Text.at_take t place

/-- The words that are taken from the bytes are those of the text, at their places. -/
theorem takeWords_take {place : Nat} (h : t.drop place = s) :
    takeWords t (size (t.take place)) = pure ((wordsFrom place s).map (Word.span t)) := by
  fun_induction wordsFrom place s with
  | case1 place => exact takeWords_nil (at_of_drop h)
  | case2 place c s hbreak ih =>
    have hc := Text.utf8Size_of_lt (lt_of_mem_breaks c (mem_breaks_iff.mpr hbreak))
    have hsize : size (t.take (place + 1)) = size (t.take place) + size [c] :=
      size_take_add (show t.drop place = [c] ++ s from h)
    have hnext : t.drop (place + 1) = s := by
      rw [← List.drop_drop, h]
      rfl
    rw [Text.size_cons, hc, Text.size_nil] at hsize
    rw [takeWords_cons (at_of_drop h), if_pos hbreak, ← ih hnext, hsize]
  | case3 place c s hbreak tail word ih =>
    have hword : readWord false (c :: s) = (word.text, tail.2) :=
      readWord_cons (Bool.eq_false_iff.mpr hbreak) s
    have happend := readWord_fst_append false (c :: s)
    have hnext := drop_readWord false h
    rw [hword] at happend hnext
    have hsize : size (t.take word.stop) = size (t.take place) + size word.text :=
      size_take_add (h.trans happend.symm)
    have hplace : At t (size (t.take place)) (word.text ++ tail.2) :=
      at_of_drop (h.trans happend.symm)
    rw [takeWords_cons (at_of_drop h), if_neg hbreak, hword]
    dsimp only
    rw [hplace.piece_eq hplace.append, pure_bind, ← hsize, ih hnext, pure_bind]
    rfl

theorem takeWords_eq (s : List Char) : takeWords s 0 = pure ((words s).map (Word.span s)) :=
  takeWords_take (show s.drop 0 = s from rfl)

/-! ### One word behind the other -/

/-- Words of one text: each has places of its own in the text, behind those of the word before. -/
structure AreWordsOf (s : List Char) (ws : List Word) : Prop where
  start_lt : ∀ w ∈ ws, w.start < w.stop
  stop_le : ∀ w ∈ ws, w.stop ≤ s.length
  pairwise : ws.Pairwise fun a b => a.stop ≤ b.start

theorem areWordsOf_words (s : List Char) : AreWordsOf s (words s) where
  start_lt w hw := ((isTiling_words s).isTile w.extent (List.mem_map_of_mem hw)).nonempty
  stop_le w hw := ((isTiling_words s).isTile w.extent (List.mem_map_of_mem hw)).within
  pairwise := List.pairwise_map.mp (isTiling_words s).ascending

theorem AreWordsOf.of_sublist {ws ws' : List Word} (h : AreWordsOf s ws) (hsub : ws'.Sublist ws) :
    AreWordsOf s ws' where
  start_lt w hw := h.start_lt w (hsub.subset hw)
  stop_le w hw := h.stop_le w (hsub.subset hw)
  pairwise := h.pairwise.sublist hsub

/-- Of two words, the one that starts first has ended where the other starts. -/
theorem AreWordsOf.stop_le_start {ws : List Word} (h : AreWordsOf s ws) {a b : Word} (ha : a ∈ ws)
    (hb : b ∈ ws) (hlt : a.start < b.start) : a.stop ≤ b.start := by
  induction ws with
  | nil => exact absurd ha List.not_mem_nil
  | cons w ws ih =>
    have hlater := (List.pairwise_cons.mp h.pairwise).1
    rcases List.mem_cons.mp ha with rfl | ha'
    · rcases List.mem_cons.mp hb with rfl | hb'
      · exact absurd hlt (Nat.lt_irrefl _)
      · exact hlater b hb'
    · rcases List.mem_cons.mp hb with rfl | hb'
      · have := hlater a ha'
        have := h.start_lt b List.mem_cons_self
        have := h.start_lt a ha
        omega
      · exact ih (h.of_sublist (List.sublist_cons_self w ws)) ha' hb'

/-! ## Letters in lower case -/

theorem utf8Size_toLower (c : Char) : c.toLower.utf8Size = c.utf8Size := by
  by_cases hupper : c.isUpper = true
  · have halpha := Text.isAlpha_of_isUpper hupper
    have hlower : c.toLower.isAlpha = true := by rwa [Char.isAlpha_toLower_eq_isAlpha]
    rw [Text.utf8Size_of_lt (Text.toNat_lt_of_isAlphanum (Text.isAlphanum_of_isAlpha halpha)),
      Text.utf8Size_of_lt (Text.toNat_lt_of_isAlphanum (Text.isAlphanum_of_isAlpha hlower))]
  · rw [Char.toLower_eq_of_not_isUpper hupper]

/-- No place moves when letters are put in lower case. -/
theorem size_lower (s : List Char) : size (Text.lower s) = size s := by
  induction s with
  | nil => rfl
  | cons c s ih => rw [Text.lower_cons, Text.size_cons, Text.size_cons, utf8Size_toLower, ih]

theorem isPrefixOf_lower (word s : List Char) :
    word.isPrefixOf (Text.lower s) = (Text.dropWord? word s).isSome := by
  fun_induction Text.dropWord? word s with
  | case1 s => rfl
  | case2 => rfl
  | case3 word c s ih => rw [Text.lower_cons, List.isPrefixOf_cons_cons, beq_self_eq_true, ih]; rfl
  | case4 w word c s hc =>
    rw [Text.lower_cons, List.isPrefixOf_cons_cons, beq_eq_false_iff_ne.mpr (Ne.symm hc)]
    rfl

/-- In the lowered copy a word is found where a search in any case finds it in the text. -/
theorem find?_lower (word s : List Char) :
    find? word (Text.lower s) = (Text.cut? word s).map fun (before, _) => size before := by
  fun_induction Text.cut? word s with
  | case1 => cases word <;> rfl
  | case2 c s rest hrest =>
    have hprefix := isPrefixOf_lower word (c :: s)
    rw [hrest] at hprefix
    rw [Text.lower_cons, find?, ← Text.lower_cons, hprefix]
    rfl
  | case3 c s hnone ih =>
    have hprefix := isPrefixOf_lower word (c :: s)
    rw [hnone] at hprefix
    rw [Text.lower_cons, find?, ← Text.lower_cons, hprefix, ih, Option.map_map, Option.map_map]
    rw [if_neg (by simp)]
    congr 1
    funext p
    simp only [Function.comp_apply, Text.size_cons, utf8Size_toLower]
    omega

/-- The text behind a word that is found. -/
theorem at_of_cut? {word before after : List Char} (h : Text.cut? word s = some (before, after)) :
    At s (size before + size word) after := by
  obtain ⟨w, rfl, rfl⟩ := (Text.isFirstCut_of_cut? h).cut
  rw [size_lower, ← Text.size_append, ← List.append_assoc]
  exact ⟨_, rfl, rfl⟩

theorem At.lower {s rest : List Char} {i : Nat} (h : At s i rest) :
    At (Text.lower s) i (Text.lower rest) := by
  obtain ⟨front, rfl, rfl⟩ := h
  exact ⟨Text.lower front, Text.lower_append _ _, (size_lower front).symm⟩

/-! ## Time range -/

theorem literalInPlace_eq (s : List Char) : literalInPlace s = pure (timeLiteral s) := by
  unfold literalInPlace timeLiteral
  dsimp only
  rw [find?_lower]
  cases hcut : Text.cut? "and".toList (Text.firstWord s) with
  | none => rfl
  | some p =>
    obtain ⟨before, after⟩ := p
    obtain ⟨w, -, hword⟩ := (Text.isFirstCut_of_cut? hcut).cut
    have hstart : At (Text.firstWord s) 0 (before ++ (w ++ after)) := by
      rw [← hword]
      exact At.start _
    have hstop : At (Text.firstWord s) (size before) (w ++ after) := by
      rw [← Nat.zero_add (size before)]
      exact hstart.append
    exact hstart.piece_eq hstop

theorem readTimeInPlace_follows (s : List Char) : Follows Eq (readTimeInPlace s) (readTime s) := by
  unfold readTimeInPlace readTime
  rw [literalInPlace_eq, pure_bind]
  dsimp only
  cases readTime? (timeLiteral s) with
  | none => exact .throw _
  | some n => exact .pure rfl

theorem readBoundInPlace_follows (comparison : String) (hsize : size comparison.toList = 2)
    (default : Nanos) (s : List Char) :
    Follows Eq (readBoundInPlace comparison default s (Text.lower s))
      (readBound comparison default s) := by
  unfold readBoundInPlace readBound
  rw [find?_lower]
  cases hcut : Text.cut? comparison.toList s with
  | none => exact .pure rfl
  | some p =>
    obtain ⟨before, after⟩ := p
    have hafter := at_of_cut? hcut
    rw [hsize] at hafter
    dsimp only [Option.map_some]
    rw [hafter.piece_size, pure_bind]
    exact readTimeInPlace_follows after

theorem readRangeInPlace_follows (condition : List Char) (now : Nanos) :
    Follows Eq (readRangeInPlace condition now) (readRange condition now) := by
  unfold readRangeInPlace readRange
  dsimp only
  rw [find?_lower]
  cases hcut : Text.cut? "time".toList condition with
  | none => exact .pure rfl
  | some p =>
    obtain ⟨before, after⟩ := p
    have hafter : At condition (size before + 4) after := at_of_cut? hcut
    dsimp only [Option.map_some]
    rw [hafter.piece_size, pure_bind, (At.lower hafter).piece_size, pure_bind]
    refine (readBoundInPlace_follows ">=" (by decide) .zero after).bind ?_
    rintro start _ - rfl
    refine (readBoundInPlace_follows "<=" (by decide) now after).bind ?_
    rintro stop _ - rfl
    exact .pure rfl

/-! ## Clauses -/

/-- Behind numbers of characters stand the places of a clause. -/
theorem piece_take (s : List Char) (h : i ≤ j) :
    (piece s (size (s.take i)) (size (s.take j)) : Scan _) = pure (slice s i j) := by
  have hstart := Text.at_take s i
  rw [← List.take_append_drop (j - i) (s.drop i), List.drop_drop, Nat.add_sub_cancel' h] at hstart
  exact hstart.piece_eq (Text.at_take s j)

theorem piece_take_length (s : List Char) (h : i ≤ s.length) :
    (piece s (size (s.take i)) (size s) : Scan _) = pure (slice s i s.length) := by
  have hpiece := piece_take s h
  rwa [List.take_length] at hpiece

theorem find?_span (keyword : String) (ws : List Word) :
    (ws.map (Word.span s)).find? (·.is keyword) =
      (ws.find? (·.is keyword)).map (Word.span s) := by
  rw [List.find?_map]
  rfl

theorem spanGroupBy?_span (ws : List Word) :
    spanGroupBy? (ws.map (Word.span s)) =
      (findGroupBy? ws).map fun g => (g.1.span s, g.2.span s) := by
  fun_induction findGroupBy? ws with
  | case1 a b ws h =>
    have hspan : ((a.span s).is "group" && (b.span s).is "by") = true := h
    rw [List.map_cons, List.map_cons, spanGroupBy?, if_pos hspan]
    rfl
  | case2 a b ws h ih =>
    have hspan : ¬ ((a.span s).is "group" && (b.span s).is "by") = true := h
    rw [List.map_cons, List.map_cons, spanGroupBy?, if_neg hspan]
    exact ih
  | case3 ws h =>
    cases ws with
    | nil => rfl
    | cons a ws =>
      cases ws with
      | nil => rfl
      | cons b ws => exact absurd rfl (h a b ws)

/-- The place where something starts that may be missing is the end of the text if it is. -/
theorem getD_size_take {α : Type} (f : α → Nat) (o : Option α) :
    (o.map fun a => size (s.take (f a))).getD (size s) = size (s.take ((o.map f).getD s.length)) := by
  cases o with
  | none => rw [Option.map_none, Option.map_none, Option.getD_none, Option.getD_none, List.take_length]
  | some a => rfl

theorem getD_start_span (o : Option Word) :
    ((o.map (Word.span s)).map Span.start).getD (size s) =
      size (s.take ((o.map Word.start).getD s.length)) := by
  rw [Option.map_map]
  exact getD_size_take Word.start o

theorem getD_start_groupBy (o : Option (Word × Word)) :
    ((o.map fun g => (g.1.span s, g.2.span s)).map (·.1.start)).getD (size s) =
      size (s.take ((o.map (·.1.start)).getD s.length)) := by
  rw [Option.map_map]
  exact getD_size_take (·.1.start) o

/-- A word ends before a later one, which may be missing, starts. -/
theorem AreWordsOf.stop_le_getD {α : Type} {ws : List Word} (h : AreWordsOf s ws) {w : Word}
    (hw : w ∈ ws) {f : α → Word} {o : Option α} (ho : ∀ a ∈ o, f a ∈ ws ∧ w.start < (f a).start) :
    w.stop ≤ (o.map fun a => (f a).start).getD s.length := by
  cases o with
  | none => exact h.stop_le w hw
  | some a => exact h.stop_le_start hw (ho a rfl).1 (ho a rfl).2

theorem AreWordsOf.getD_le {α : Type} {ws : List Word} (h : AreWordsOf s ws) {f : α → Word}
    {o : Option α} (ho : ∀ a ∈ o, f a ∈ ws) :
    (o.map fun a => (f a).start).getD s.length ≤ s.length := by
  cases o with
  | none => exact Nat.le_refl _
  | some a =>
    have := h.start_lt _ (ho a rfl)
    have := h.stop_le _ (ho a rfl)
    show (f a).start ≤ s.length
    omega

/-- The condition can be cut out: it ends at a GROUP BY only if that stands behind the WHERE. -/
theorem takeRange_follows {ws : List Word} (h : AreWordsOf body ws) {whereWord : Option Word}
    (hwhere : ∀ w ∈ whereWord, w ∈ ws) {groupBy : Option (Word × Word)}
    (hgroup : ∀ g ∈ groupBy, g.1 ∈ ws) {groupStart : Nat}
    (hstart : groupStart = (groupBy.map (·.1.start)).getD body.length) (now : Nanos) :
    Follows Eq (takeRange body (size (body.take groupStart)) now (whereWord.map (Word.span body)))
      ((whereWord.map fun w =>
        slice body w.stop (if w.start < groupStart then groupStart else body.length)).elim
          (.ok (.zero, now)) (readRange · now)) := by
  cases whereWord with
  | none => exact .pure rfl
  | some w =>
    have hw := hwhere w rfl
    have hle : groupStart ≤ body.length := by
      rw [hstart]
      exact h.getD_le hgroup
    have hlt : size (body.take w.start) < size (body.take groupStart) ↔ w.start < groupStart :=
      Text.size_take_lt_iff hle
    have hpiece : (piece body (size (body.take w.stop))
        (if size (body.take w.start) < size (body.take groupStart) then size (body.take groupStart)
          else size body) : Scan _) =
        pure (slice body w.stop (if w.start < groupStart then groupStart else body.length)) := by
      by_cases hbefore : w.start < groupStart
      -- Two words that start one after the other do not overlap.
      · rw [if_pos (hlt.mpr hbefore), if_pos hbefore]
        refine piece_take body ?_
        rw [hstart]
        refine h.stop_le_getD hw fun g hg => ⟨hgroup g hg, ?_⟩
        rw [Option.mem_def] at hg
        rw [hstart, hg] at hbefore
        exact hbefore
      · rw [if_neg (mt hlt.mp hbefore), if_neg hbefore]
        exact piece_take_length body (h.stop_le w hw)
    rw [Option.map_some, takeRange, Word.span]
    dsimp only
    rw [hpiece, pure_bind]
    exact readRangeInPlace_follows _ now

theorem takeWidth_eq (groupBy : Option (Word × Word)) :
    takeWidth body (groupBy.map fun g => (g.1.span body, g.2.span body)) =
      pure ((groupBy.map fun g => body.drop g.2.stop).bind readWidth?) := by
  cases groupBy with
  | none => rfl
  | some g =>
    have hpiece : (piece body (g.2.span body).stop (size body) : Scan _) =
        pure (body.drop g.2.stop) := (Text.at_take body g.2.stop).piece_size
    rw [Option.map_some, takeWidth, hpiece]
    rfl

theorem readClausesInPlace_follows {fromWord : Word} {later : List Word}
    (h : AreWordsOf body (fromWord :: later)) (query : List Char) (now : Nanos) :
    Follows Eq
      (readClausesInPlace body query now (fromWord.span body) (later.map (Word.span body)))
      (match readSelector? (clausesAt body fromWord later).selector with
      | none => .error (.invalidSyntax (String.ofList query))
      | some (selector, f) =>
        if bareName (clausesAt body fromWord later).source = [] then
          .error (.missingMeasurement (String.ofList query))
        else ((clausesAt body fromWord later).range now).map
          ((clausesAt body fromWord later).select selector f)) := by
  have hfrom : fromWord ∈ fromWord :: later := List.mem_cons_self
  have hlater : ∀ w ∈ later, fromWord.start < w.start := fun w hw =>
    Nat.lt_of_lt_of_le (h.start_lt _ hfrom) ((List.pairwise_cons.mp h.pairwise).1 w hw)
  have hwhere : ∀ w ∈ later.find? (·.is "where"), w ∈ later := fun w hw =>
    List.mem_of_find?_eq_some hw
  have hgroup : ∀ g ∈ findGroupBy? later, g.1 ∈ later := fun g hg => fst_mem_of_findGroupBy? hg
  have hselector : (piece body 0 (fromWord.span body).start : Scan _) =
      pure (clausesAt body fromWord later).selector := piece_take body (Nat.zero_le _)
  have hsource : (piece body (fromWord.span body).stop
      (size (body.take (min (((later.find? (·.is "where")).map Word.start).getD body.length)
        (((findGroupBy? later).map (·.1.start)).getD body.length)))) : Scan _) =
      pure (clausesAt body fromWord later).source := by
    -- WHERE and GROUP BY are looked for behind FROM, so neither starts before it has ended.
    refine piece_take body (Nat.le_min.mpr ⟨h.stop_le_getD hfrom fun w hw => ?_,
      h.stop_le_getD hfrom fun g hg => ?_⟩)
    · exact ⟨List.mem_cons_of_mem _ (hwhere w hw), hlater _ (hwhere w hw)⟩
    · exact ⟨List.mem_cons_of_mem _ (hgroup g hg), hlater _ (hgroup g hg)⟩
  unfold readClausesInPlace
  dsimp only
  rw [hselector, pure_bind, find?_span, spanGroupBy?_span, getD_start_span, getD_start_groupBy,
    ← Text.size_take_min]
  cases readSelector? (clausesAt body fromWord later).selector with
  | none => exact .throw _
  | some selected =>
    obtain ⟨selector, f⟩ := selected
    dsimp only
    rw [hsource, pure_bind, takeWidth_eq]
    split
    · exact .throw _
    · show Follows Eq _ ((clausesAt body fromWord later).select selector f <$>
        (clausesAt body fromWord later).range now)
      rw [map_eq_pure_bind]
      refine (takeRange_follows h (fun w hw => List.mem_cons_of_mem _ (hwhere w hw))
        (fun g hg => List.mem_cons_of_mem _ (hgroup g hg)) rfl now).bind ?_
      rintro range _ - rfl
      exact .pure rfl

theorem readSelectInPlace_follows (body query : List Char) (now : Nanos) :
    Follows Eq (readSelectInPlace body query now) (readSelect body query now) := by
  have hdrop : ((words body).map (Word.span body)).dropWhile (!·.is "from") =
      ((words body).dropWhile (!·.is "from")).map (Word.span body) := by
    rw [List.dropWhile_map]
    rfl
  have hsuffix := List.dropWhile_suffix (!·.is "from") (l := words body)
  unfold readSelectInPlace
  rw [takeWords_eq, pure_bind, hdrop, readSelect_eq, clauses?_eq]
  cases hws : (words body).dropWhile (!·.is "from") with
  | nil => exact .throw _
  | cons fromWord later =>
    rw [hws] at hsuffix
    have hwords := (areWordsOf_words body).of_sublist hsuffix.sublist
    have hclauses := readClausesInPlace_follows hwords query now
    rw [List.map_cons]
    dsimp only
    -- Each side has a match of its own on the selector, and in each case of it they are the same.
    cases hselector : readSelector? (clausesAt body fromWord later).selector with
    | none =>
      rw [hselector] at hclauses
      exact hclauses
    | some selected =>
      rw [hselector] at hclauses
      exact hclauses

/-! ## Queries -/

theorem interpretTrimmedInPlace_follows (query : List Char) (now : Nanos) :
    Follows Eq (interpretTrimmedInPlace query now) (interpretTrimmed query now) := by
  unfold interpretTrimmedInPlace interpretTrimmed
  dsimp only
  cases query.isEmpty with
  | true => exact .throw _
  | false =>
    rw [if_neg Bool.false_ne_true, if_neg Bool.false_ne_true]
    cases readShow? query with
    | some statement => exact .pure rfl
    | none =>
      cases keyword? "create" query with
      | some rest =>
        dsimp only
        cases readCreate? rest with
        | some name => exact .pure rfl
        | none => exact .throw _
      | none =>
        cases keyword? "use" query with
        | some rest =>
          dsimp only
          cases readName? rest with
          | some name => exact .pure rfl
          | none => exact .throw _
        | none =>
          cases keyword? "select" query with
          | none => exact .throw _
          | some rest =>
            have hselect := readSelectInPlace_follows rest query now
            dsimp only
            cases hread : readSelect rest query now with
            | error e =>
              rw [hread] at hselect
              rw [show readSelectInPlace rest query now = throw e from hselect]
              exact .throw e
            | ok s =>
              rw [hread] at hselect
              obtain ⟨_, heq, rfl⟩ := hselect
              rw [heq]
              exact .pure rfl

/-- A query can be read in place: no reader gives up on it, and what comes out is what is read. -/
theorem interpretInPlace_eq (query : String) (now : Nanos) :
    interpretInPlace query now = some (interpret query now) :=
  Outcome.follows_eq_iff.mp (interpretTrimmedInPlace_follows _ now)

end TimeSeries.Query

namespace TimeSeries

/-- Every line and every query can be read by places in its bytes, and comes out as what is read:
no reader cuts at a place beyond the text or inside a character, or ends a piece before its start,
for there each cut gives up, and the reader with it. -/
theorem read_in_place_eq :
    (∀ line, Line.decodeInPlace line = some (Line.decode line)) ∧
    (∀ query now, Query.interpretInPlace query now = some (Query.interpret query now)) ∧
    ∀ (ε : Type) (s : List Char) (i j : Nat),
      (Text.piece s i j : ExceptT ε Option (List Char)).run.isSome = true ↔
        i ≤ j ∧ String.Pos.Raw.IsValid (String.ofList s) ⟨i⟩ ∧
          String.Pos.Raw.IsValid (String.ofList s) ⟨j⟩ :=
  ⟨Line.decodeInPlace_eq, Query.interpretInPlace_eq, fun _ _ _ _ => Text.isSome_run_piece_iff⟩

end TimeSeries
