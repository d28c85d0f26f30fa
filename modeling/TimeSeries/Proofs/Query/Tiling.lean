/-
# TimeSeries.Proofs.Query.Tiling — the words of a query tile it.

Words take up places of a text, one behind the other, and leave out nothing but breaks. A break
inside a word has an odd number of the word's quotes before it, and one that ends a word an even
number. So the first word can stand in one place only, then the next, and a text has one tiling
(`TilesFrom.unique`). That quotes turn is a fact about one word (`Runs.isTile`); where words stand
is one about the walk over them. Both walks tile, the one over characters and the one over bytes,
so elements, breaks and the quote are parameters here.
-/
import Mathlib
import TimeSeries.Query.Word

namespace TimeSeries.Query

/-- The places of a word: that of its first element, and the one behind its last. -/
structure Extent where
  start : Nat
  stop : Nat
deriving Repr, DecidableEq

/-- A place belongs to the word. -/
def Extent.Covers (e : Extent) (i : Nat) : Prop := e.start ≤ i ∧ i < e.stop

section Tilings

variable {α : Type} {separates : α → Bool} {s : List α} {i j : Nat}

/-! ## Tilings -/

/-- A break stands at a place. -/
def BreakAt (separates : α → Bool) (s : List α) (i : Nat) : Prop :=
  ∃ c, s[i]? = some c ∧ separates c = true

theorem breakAt_drop : BreakAt separates (s.drop i) j ↔ BreakAt separates s (i + j) := by
  rw [BreakAt, BreakAt, List.getElem?_drop]

variable [DecidableEq α] {quote : α} {n : Nat} {quoted : Bool} {e f : Extent}
  {es fs : List Extent}

/-- The number of quotes from one place up to another. -/
def quotesBetween (quote : α) (s : List α) (i j : Nat) : Nat := (s.extract i j).count quote

/-- A word of a text: its breaks stand in quotes, and it ends with the text or at a break that does
not. Quotes are counted from the word's start. -/
structure IsTile (separates : α → Bool) (quote : α) (s : List α) (e : Extent) : Prop where
  nonempty : e.start < e.stop
  within : e.stop ≤ s.length
  odd_of_break : ∀ i, e.Covers i → BreakAt separates s i → Odd (quotesBetween quote s e.start i)
  ends : e.stop = s.length ∨
    BreakAt separates s e.stop ∧ Even (quotesBetween quote s e.start e.stop)

/-- From a place on, words stand one behind the other, and outside of them are breaks only. -/
structure TilesFrom (separates : α → Bool) (quote : α) (s : List α) (n : Nat) (es : List Extent) :
    Prop where
  isTile : ∀ e ∈ es, IsTile separates quote s e
  behind : ∀ e ∈ es, n ≤ e.start
  ascending : es.Pairwise fun a b => a.stop ≤ b.start
  outside : ∀ i, n ≤ i → i < s.length → (∀ e ∈ es, ¬ e.Covers i) → BreakAt separates s i

/-- Words tile a text, and each starts with the text or right behind a break. -/
structure IsTiling (separates : α → Bool) (quote : α) (s : List α) (es : List Extent) : Prop
    extends TilesFrom separates quote s 0 es where
  starts : ∀ e ∈ es, e.start = 0 ∨ BreakAt separates s (e.start - 1)

/-! ## At most one tiling -/

theorem IsTile.not_breakAt_start (h : IsTile separates quote s e) :
    ¬ BreakAt separates s e.start := by
  intro hbreak
  have hodd := h.odd_of_break e.start ⟨Nat.le_refl _, h.nonempty⟩ hbreak
  simp [quotesBetween] at hodd

theorem IsTile.stop_le (he : IsTile separates quote s e) (hf : IsTile separates quote s f)
    (hstart : e.start = f.start) : e.stop ≤ f.stop := by
  -- The break that ends one word would stand inside the other, with an even number of quotes.
  by_contra hlt
  have hnonempty := hf.nonempty
  rcases hf.ends with hend | ⟨hbreak, heven⟩
  · have := he.within
    omega
  · have hodd := he.odd_of_break f.stop ⟨by omega, by omega⟩ hbreak
    rw [hstart] at hodd
    exact Nat.not_even_iff_odd.mpr hodd heven

/-- Where a word ends is settled by where it starts. -/
theorem IsTile.eq (he : IsTile separates quote s e) (hf : IsTile separates quote s f)
    (hstart : e.start = f.start) : e = f := by
  have hstop := Nat.le_antisymm (he.stop_le hf hstart) (hf.stop_le he hstart.symm)
  show Extent.mk e.start e.stop = Extent.mk f.start f.stop
  rw [hstart, hstop]

/-- Up to the first word there are breaks only. -/
theorem TilesFrom.breakAt_of_lt (h : TilesFrom separates quote s n (e :: es)) (hi : n ≤ i)
    (hlt : i < e.start) : BreakAt separates s i := by
  have he := h.isTile e List.mem_cons_self
  have hnonempty := he.nonempty
  have hwithin := he.within
  refine h.outside i hi (by omega) fun g hg hcovers => ?_
  have hstart := hcovers.1
  rcases List.mem_cons.mp hg with rfl | hg
  · omega
  · have := (List.pairwise_cons.mp h.ascending).1 g hg
    omega

theorem TilesFrom.start_le (he : TilesFrom separates quote s n (e :: es))
    (hf : TilesFrom separates quote s n (f :: fs)) : f.start ≤ e.start := by
  by_contra hlt
  have hbreak := hf.breakAt_of_lt (he.behind e List.mem_cons_self) (by omega)
  exact (he.isTile e List.mem_cons_self).not_breakAt_start hbreak

theorem TilesFrom.tail (h : TilesFrom separates quote s n (e :: es)) :
    TilesFrom separates quote s e.stop es where
  isTile g hg := h.isTile g (List.mem_cons_of_mem e hg)
  behind := (List.pairwise_cons.mp h.ascending).1
  ascending := h.ascending.of_cons
  outside i hi hlength hfree := by
    have hbehind := h.behind e List.mem_cons_self
    have hnonempty := (h.isTile e List.mem_cons_self).nonempty
    refine h.outside i (by omega) hlength fun g hg hcovers => ?_
    rcases List.mem_cons.mp hg with rfl | hg
    · have := hcovers.2
      omega
    · exact hfree g hg hcovers

/-- Behind its last word a text has breaks only, so no further word starts there. -/
theorem TilesFrom.eq_nil (he : TilesFrom separates quote s n [])
    (hf : TilesFrom separates quote s n fs) : fs = [] := by
  apply List.eq_nil_iff_forall_not_mem.mpr
  intro f hmem
  have htile := hf.isTile f hmem
  have hlt := htile.nonempty
  have hwithin := htile.within
  exact htile.not_breakAt_start (he.outside f.start (hf.behind f hmem) (by omega) (by simp))

/-- The words of a tiling are forced one after the other: each starts at the first place that is no
break, and where it ends is settled there. -/
theorem TilesFrom.unique (he : TilesFrom separates quote s n es)
    (hf : TilesFrom separates quote s n fs) : es = fs := by
  induction es generalizing n fs with
  | nil => exact (he.eq_nil hf).symm
  | cons e es ih =>
    cases fs with
    | nil => exact hf.eq_nil he
    | cons f fs =>
      have hstart := Nat.le_antisymm (hf.start_le he) (he.start_le hf)
      obtain rfl := (he.isTile e List.mem_cons_self).eq (hf.isTile f List.mem_cons_self) hstart
      rw [ih he.tail hf.tail]

/-- The first word starts at the place or behind a break, and no word starts right where the one
before it ends, for that one ends at a break. -/
theorem TilesFrom.starts (h : TilesFrom separates quote s n es) :
    ∀ e ∈ es, e.start = n ∨ BreakAt separates s (e.start - 1) := by
  induction es generalizing n with
  | nil => simp
  | cons e es ih =>
    have htile := h.isTile e List.mem_cons_self
    rw [List.forall_mem_cons]
    constructor
    · rcases Nat.eq_or_lt_of_le (h.behind e List.mem_cons_self) with heq | hlt
      · exact .inl heq.symm
      · exact .inr (h.breakAt_of_lt (by omega) (by omega))
    · intro g hg
      have hnext := h.isTile g (List.mem_cons_of_mem e hg)
      have hnonempty := hnext.nonempty
      have hwithin := hnext.within
      rcases ih h.tail g hg with hstart | hbreak
      · rcases htile.ends with hend | ⟨hbreak, -⟩
        · omega
        · rw [← hstart] at hbreak
          exact absurd hbreak hnext.not_breakAt_start
      · exact .inr hbreak

theorem TilesFrom.isTiling (h : TilesFrom separates quote s 0 es) :
    IsTiling separates quote s es where
  toTilesFrom := h
  starts := h.starts

/-! ## Tilings step by step -/

theorem TilesFrom.nil (h : s.length ≤ n) : TilesFrom separates quote s n [] where
  isTile := by simp
  behind := by simp
  ascending := .nil
  outside i hi hlength _ := by omega

/-- A break is passed over. -/
theorem TilesFrom.skip (hbreak : BreakAt separates s n)
    (h : TilesFrom separates quote s (n + 1) es) : TilesFrom separates quote s n es where
  isTile := h.isTile
  behind e he := by
    have := h.behind e he
    omega
  ascending := h.ascending
  outside i hi hlength hfree := by
    rcases Nat.eq_or_lt_of_le hi with rfl | hlt
    · exact hbreak
    · exact h.outside i hlt hlength hfree

/-- A word is put in front. -/
theorem TilesFrom.cons (he : IsTile separates quote s e)
    (h : TilesFrom separates quote s e.stop es) :
    TilesFrom separates quote s e.start (e :: es) where
  isTile := List.forall_mem_cons.mpr ⟨he, h.isTile⟩
  behind := by
    refine List.forall_mem_cons.mpr ⟨Nat.le_refl _, fun g hg => ?_⟩
    have := he.nonempty
    have := h.behind g hg
    omega
  ascending := .cons h.behind h.ascending
  outside i hi hlength hfree := by
    obtain ⟨hnot, hfree⟩ := List.forall_mem_cons.mp hfree
    have hstop : e.stop ≤ i := by
      by_contra hlt
      exact hnot ⟨hi, by omega⟩
    exact h.outside i hstop hlength hfree

/-! ## One word -/

/-- A word, read inside or outside quotes, goes on over so many elements of a text. -/
inductive Runs (separates : α → Bool) (quote : α) : Bool → List α → Nat → Prop
  | nil (quoted : Bool) : Runs separates quote quoted [] 0
  | stop {c : α} (s : List α) : separates c = true → Runs separates quote false (c :: s) 0
  | step {quoted : Bool} {c : α} {s : List α} {n : Nat} :
      (separates c && !quoted) = false →
      Runs separates quote (if c = quote then !quoted else quoted) s n →
      Runs separates quote quoted (c :: s) (n + 1)

/-- An odd number of quotes turns inside and outside around. -/
theorem odd_count_cons (quoted : Bool) (c : α) (s : List α) :
    Odd ((c :: s).count quote + quoted.toNat) ↔
      Odd (s.count quote + (if c = quote then !quoted else quoted).toNat) := by
  by_cases hc : c = quote
  · subst hc
    cases quoted with
    | false => simp
    | true => simp [Nat.odd_add_one]
  · simp [hc]

theorem Runs.le_length (h : Runs separates quote quoted s n) : n ≤ s.length := by
  induction h with
  | nil => simp
  | stop => simp
  | step _ _ ih =>
    rw [List.length_cons]
    omega

theorem Runs.odd_of_break (h : Runs separates quote quoted s n) (hi : i < n)
    (hbreak : BreakAt separates s i) : Odd ((s.take i).count quote + quoted.toNat) := by
  induction h generalizing i with
  | nil => omega
  | stop => omega
  | @step quoted c s n hstay _ ih =>
    cases i with
    | zero =>
      obtain ⟨d, hd, hbreak⟩ := hbreak
      obtain rfl : c = d := by simpa using hd
      have hquoted : quoted = true := by simpa [hbreak] using hstay
      simp [hquoted]
    | succ i =>
      rw [List.take_succ_cons, odd_count_cons]
      exact ih (by omega) (by simpa [BreakAt] using hbreak)

theorem Runs.ends (h : Runs separates quote quoted s n) :
    n = s.length ∨ BreakAt separates s n ∧ Even ((s.take n).count quote + quoted.toNat) := by
  induction h with
  | nil => exact .inl rfl
  | @stop c s hbreak => exact .inr ⟨⟨c, rfl, hbreak⟩, by simp⟩
  | step _ _ ih =>
    rw [List.take_succ_cons, ← Nat.not_odd_iff_even, odd_count_cons, Nat.not_odd_iff_even]
    simpa [BreakAt] using ih

/-- What is read as a word from a place on is one. -/
theorem Runs.isTile (h : Runs separates quote false (s.drop i) n) (hpos : 0 < n) :
    IsTile separates quote s ⟨i, i + n⟩ where
  nonempty := by
    show i < i + n
    omega
  within := by
    have hle := h.le_length
    rw [List.length_drop] at hle
    show i + n ≤ s.length
    omega
  odd_of_break j hcovers hbreak := by
    obtain ⟨hstart : i ≤ j, hstop : j < i + n⟩ := hcovers
    obtain ⟨k, rfl⟩ := Nat.exists_eq_add_of_le hstart
    have hodd := h.odd_of_break (i := k) (by omega) (breakAt_drop.mpr hbreak)
    simpa [quotesBetween] using hodd
  ends := by
    rcases h.ends with hend | ⟨hbreak, heven⟩
    · rw [List.length_drop] at hend
      left
      show i + n = s.length
      omega
    · right
      exact ⟨breakAt_drop.mp hbreak, by simpa [quotesBetween] using heven⟩

end Tilings

/-! ## Words of characters -/

variable {s t : List Char} {i : Nat}

/-- The places of a word. -/
def Word.extent (w : Word) : Extent := ⟨w.start, w.stop⟩

theorem readWord_fst_append (quoted : Bool) (s : List Char) :
    (readWord quoted s).1 ++ (readWord quoted s).2 = s := by
  fun_induction readWord quoted s with
  | case1 => rfl
  | case2 => rfl
  | case3 quoted c s h word rest hw ih =>
    rw [hw] at ih
    exact congrArg (c :: ·) ih

/-- A word starts outside quotes, or opens them with its first character. -/
theorem readWord_cons {c : Char} (hc : isBreak c = false) (s : List Char) :
    readWord false (c :: s) = (c :: (readWord (c == '"') s).1, (readWord (c == '"') s).2) := by
  have hquoted : (if c = '"' then !false else false) = (c == '"') := by
    by_cases h : c = '"'
    · rw [if_pos h, h]
      rfl
    · rw [if_neg h, beq_eq_false_iff_ne.mpr h]
  rw [readWord, hc, hquoted]
  rfl

/-- Behind a word stands what is left when it is read. -/
theorem drop_readWord (quoted : Bool) {place : Nat} (h : t.drop place = s) :
    t.drop (place + (readWord quoted s).1.length) = (readWord quoted s).2 := by
  have happend := readWord_fst_append quoted s
  rw [← List.drop_drop, h]
  nth_rewrite 2 [← happend]
  rw [List.drop_left]

theorem runs_readWord (quoted : Bool) (s : List Char) :
    Runs isBreak '"' quoted s (readWord quoted s).1.length := by
  fun_induction readWord quoted s with
  | case1 quoted => exact .nil quoted
  | case2 quoted c s h =>
    obtain ⟨hbreak, hquoted⟩ := Bool.and_eq_true_iff.mp h
    obtain rfl : quoted = false := by simpa using hquoted
    exact .stop s hbreak
  | case3 quoted c s h word rest hw ih =>
    rw [hw] at ih
    exact .step (Bool.eq_false_iff.mpr h) ih

/-- The words that are read from a place on tile what stands there, and each is the text at its
places. -/
theorem tilesFrom_wordsFrom {place : Nat} (h : t.drop place = s) :
    TilesFrom isBreak '"' t place ((wordsFrom place s).map Word.extent) ∧
      ∀ w ∈ wordsFrom place s, w.text = slice t w.start w.stop := by
  fun_induction wordsFrom place s with
  | case1 place => exact ⟨.nil (List.drop_eq_nil_iff.mp h), by simp⟩
  | case2 place c s hbreak ih =>
    have hplace : BreakAt isBreak t (place + 0) := breakAt_drop.mp ⟨c, by rw [h]; rfl, hbreak⟩
    have hnext : t.drop (place + 1) = s := by
      rw [← List.drop_drop, h]
      rfl
    exact ⟨.skip hplace (ih hnext).1, (ih hnext).2⟩
  | case3 place c s hbreak tail word ih =>
    -- The break behind a word, if there is one, belongs to what is left: the next step passes it.
    have hword : readWord false (c :: s) = (word.text, tail.2) :=
      readWord_cons (Bool.eq_false_iff.mpr hbreak) s
    have hruns := runs_readWord false (c :: s)
    have happend := readWord_fst_append false (c :: s)
    have hnext := drop_readWord false h
    rw [hword] at hruns happend hnext
    have htile : IsTile isBreak '"' t word.extent := Runs.isTile (h ▸ hruns) (by simp [word])
    have htext : word.text = slice t word.start word.stop := by
      rw [slice, h, ← happend, Word.stop, Nat.add_sub_cancel_left, List.take_left]
    exact ⟨.cons htile (ih hnext).1, List.forall_mem_cons.mpr ⟨htext, (ih hnext).2⟩⟩

theorem isTiling_words (s : List Char) : IsTiling isBreak '"' s ((words s).map Word.extent) :=
  (tilesFrom_wordsFrom rfl).1.isTiling

theorem text_of_mem_words {w : Word} (hw : w ∈ words s) : w.text = slice s w.start w.stop :=
  (tilesFrom_wordsFrom rfl).2 w hw

theorem eq_of_map_eq {β γ : Type} {f : β → γ} {as bs : List β}
    (hinj : ∀ a ∈ as, ∀ b ∈ bs, f a = f b → a = b) (h : as.map f = bs.map f) : as = bs := by
  have hlength : as.length = bs.length := by simpa using congrArg List.length h
  refine List.ext_getElem hlength fun i hi hj => ?_
  have hi' : i < (as.map f).length := by simpa using hi
  apply hinj _ (List.getElem_mem hi) _ (List.getElem_mem hj)
  simpa using List.getElem_of_eq h hi'

/-- Words with the text at their places are known by their places. -/
theorem eq_of_extents {ws vs : List Word} (hws : ∀ w ∈ ws, w.text = slice s w.start w.stop)
    (hvs : ∀ v ∈ vs, v.text = slice s v.start v.stop)
    (h : ws.map Word.extent = vs.map Word.extent) : ws = vs := by
  refine eq_of_map_eq (fun w hw v hv heq => ?_) h
  obtain ⟨hstart, hstop⟩ := Extent.mk.inj heq
  have htext : w.text = v.text := by rw [hws w hw, hvs v hv, hstart, hstop]
  show Word.mk w.text w.start = Word.mk v.text v.start
  rw [htext, hstart]

/-- The words of a text are the words that tile it, each with the text at its places. -/
theorem eq_words_iff {ws : List Word} :
    ws = words s ↔
      IsTiling isBreak '"' s (ws.map Word.extent) ∧ ∀ w ∈ ws, w.text = slice s w.start w.stop := by
  constructor
  · rintro rfl
    exact ⟨isTiling_words s, fun w hw => text_of_mem_words hw⟩
  · rintro ⟨htiling, htexts⟩
    apply eq_of_extents htexts (fun w hw => text_of_mem_words hw)
    exact htiling.unique (isTiling_words s).toTilesFrom

example : (words "a\" b\"c\t \"d e".toList).map Word.extent = [⟨0, 6⟩, ⟨8, 12⟩] := by
  decide +kernel

end TimeSeries.Query
