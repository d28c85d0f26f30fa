/-
# TimeSeries.Proofs.Line.Token — the tokens of a line, said without reading them.

Every token has a declarative description here: what may stand between quotes (`IsContent`), a bare
run (`IsBare`), the text of a key (`IsKeyText`) and a value (`IsValue`). Each reader of
`TimeSeries.Line.Token` is then characterised by one equivalence: it takes the token at the start of
a text exactly when the text is that token followed by what is left. A token is therefore fixed by
the text that it starts (`IsValue.append_inj`), and nothing after this module opens a reader again.
-/
import TimeSeries.Line.Token
import TimeSeries.Proofs.Text.Trim

namespace TimeSeries.Line

variable {s t c k v rest : List Char}

/-! ## Text without separators -/

/-- Bare text: no comma and no space. -/
def IsBare (s : List Char) : Prop := ',' ∉ s ∧ ' ' ∉ s

/-- The text of a key: no equals sign, no comma and no space. -/
def IsKeyText (s : List Char) : Prop := '=' ∉ s ∧ IsBare s

/-- The text is empty or starts with a comma or a space. -/
def AtSeparator (s : List Char) : Prop := ∀ x ∈ s.head?, endsValue x = true

instance : Decidable (IsBare s) := inferInstanceAs (Decidable (_ ∧ _))

theorem endsValue_iff {x : Char} : endsValue x = true ↔ x = ',' ∨ x = ' ' := by
  simp [endsValue]

theorem isBare_iff : IsBare s ↔ ∀ x ∈ s, endsValue x = false := by
  constructor
  · rintro ⟨hcomma, hspace⟩ x hx
    rw [Bool.eq_false_iff, ne_eq, endsValue_iff]
    rintro (rfl | rfl)
    · exact hcomma hx
    · exact hspace hx
  · intro h
    exact ⟨fun hx => by simpa [endsValue] using h _ hx, fun hx => by simpa [endsValue] using h _ hx⟩

theorem isKeyText_iff : IsKeyText s ↔ ∀ x ∈ s, endsKey x = false := by
  simp only [IsKeyText, isBare_iff, endsKey, Bool.or_eq_false_iff, beq_eq_false_iff_ne]
  constructor
  · rintro ⟨heq, hbare⟩ x hx
    exact ⟨by rintro rfl; exact heq hx, hbare x hx⟩
  · intro h
    exact ⟨fun hx => (h _ hx).1 rfl, fun x hx => (h x hx).2⟩

theorem IsBare.nil : IsBare [] := ⟨List.not_mem_nil, List.not_mem_nil⟩

theorem isBare_append : IsBare (s ++ t) ↔ IsBare s ∧ IsBare t := by
  simp only [IsBare, List.mem_append, not_or]
  constructor
  · rintro ⟨⟨h1, h2⟩, h3, h4⟩
    exact ⟨⟨h1, h3⟩, h2, h4⟩
  · rintro ⟨⟨h1, h3⟩, h2, h4⟩
    exact ⟨⟨h1, h2⟩, h3, h4⟩

theorem IsBare.of_subset (h : IsBare t) (hst : s ⊆ t) : IsBare s :=
  ⟨fun hx => h.1 (hst hx), fun hx => h.2 (hst hx)⟩

theorem IsKeyText.of_subset (h : IsKeyText t) (hst : s ⊆ t) : IsKeyText s :=
  ⟨fun hx => h.1 (hst hx), h.2.of_subset hst⟩

theorem atSeparator_cons {x : Char} : AtSeparator (x :: s) ↔ endsValue x = true := by
  simp [AtSeparator]

/-- Bare text is cut off by a separator. -/
theorem bare_span_iff :
    (s.takeWhile (!endsValue ·) = t ∧ s.dropWhile (!endsValue ·) = rest) ↔
      s = t ++ rest ∧ IsBare t ∧ AtSeparator rest := by
  rw [Text.span_eq_iff, isBare_iff, AtSeparator]
  simp

/-- The text of a key is cut off by an equals sign or a separator. -/
theorem key_span_iff :
    (s.takeWhile (!endsKey ·) = k ∧ s.dropWhile (!endsKey ·) = rest) ↔
      s = k ++ rest ∧ IsKeyText k ∧ ∀ x ∈ rest.head?, endsKey x = true := by
  rw [Text.span_eq_iff, isKeyText_iff]
  simp

theorem AtSeparator.endsKey (h : AtSeparator rest) : ∀ x ∈ rest.head?, endsKey x = true := by
  intro x hx
  rw [Line.endsKey, h x hx, Bool.or_true]

theorem endsKey_equals (s : List Char) : ∀ x ∈ ('=' :: s).head?, endsKey x = true := by
  intro x hx
  obtain rfl : '=' = x := Option.some.inj hx
  rfl

/-- What a text is with the text of a key at its start: an equals sign follows, or a separator. -/
inductive StartsWithKey : List Char → Prop
  | equals {k : List Char} (key : IsKeyText k) (s : List Char) : StartsWithKey (k ++ '=' :: s)
  | separator {k rest : List Char} (key : IsKeyText k) (sep : AtSeparator rest) :
      StartsWithKey (k ++ rest)

theorem startsWithKey (s : List Char) : StartsWithKey s := by
  obtain ⟨he, hkey, hend⟩ := (key_span_iff (s := s)).mp ⟨rfl, rfl⟩
  rw [he]
  generalize s.dropWhile (!endsKey ·) = rest at hend
  by_cases hequals : rest.head? = some '='
  · obtain ⟨r, rfl⟩ := List.head?_eq_some_iff.mp hequals
    exact .equals hkey r
  · refine .separator hkey fun x hx => ?_
    have hends := hend x hx
    rw [endsKey, Bool.or_eq_true, beq_iff_eq] at hends
    exact hends.resolve_left (by rintro rfl; exact hequals hx)

theorem IsBare.append_inj {s' t' : List Char} (hs : IsBare s) (ht : AtSeparator t)
    (hs' : IsBare s') (ht' : AtSeparator t') (h : s ++ t = s' ++ t') : s = s' ∧ t = t' := by
  have h1 := bare_span_iff.mpr ⟨rfl, hs, ht⟩
  have h2 := bare_span_iff.mpr ⟨h, hs', ht'⟩
  exact ⟨h1.1.symm.trans h2.1, h1.2.symm.trans h2.2⟩

/-! ## What stands between quotes -/

/-- What may stand between two quotes: every quote inside comes right after a backslash, and the
last character is no backslash. -/
structure IsContent (s : List Char) : Prop where
  quotes : ∀ before after, s = before ++ '"' :: after → before.getLast? = some '\\'
  ending : s.getLast? ≠ some '\\'

theorem IsContent.nil : IsContent [] where
  quotes before after h := by simp at h
  ending := by simp

theorem not_isContent_quote : ¬ IsContent ('"' :: s) := by
  intro h
  have := h.quotes [] s rfl
  simp at this

/-- A quote after a backslash may be dropped with it. -/
theorem isContent_escaped : IsContent ('\\' :: '"' :: s) ↔ IsContent s := by
  constructor
  · intro h
    constructor
    · rintro before after rfl
      have hlast := h.quotes ('\\' :: '"' :: before) after rfl
      cases before with
      | nil => simp at hlast
      | cons x before => simpa [List.getLast?_cons] using hlast
    · intro hlast
      exact h.ending (by rw [List.getLast?_cons, List.getLast?_cons, hlast]; rfl)
  · intro h
    constructor
    · intro before after he
      -- The quote in question is the escaped one itself, or one of the text that follows.
      match before with
      | [] => simp at he
      | [x] =>
        obtain ⟨rfl, -⟩ := List.cons.inj he
        rfl
      | x :: y :: before =>
        have hs : s = before ++ '"' :: after := (List.cons.inj (List.cons.inj he).2).2
        rw [List.getLast?_cons, List.getLast?_cons, h.quotes before after hs]
        rfl
    · intro hlast
      rw [List.getLast?_cons, List.getLast?_cons] at hlast
      cases hs : s.getLast? with
      | none => rw [hs] at hlast; simp at hlast
      | some x => exact h.ending (by rw [hs] at hlast ⊢; simpa using hlast)

/-- Any other character that is no quote may be dropped; a backslash only if it is not the last. -/
theorem isContent_cons {x : Char} (hquote : x ≠ '"') (hpair : x = '\\' → s.head? ≠ some '"') :
    IsContent (x :: s) ↔ IsContent s ∧ (x = '\\' → s ≠ []) := by
  constructor
  · intro h
    refine ⟨⟨?_, ?_⟩, ?_⟩
    · rintro before after rfl
      have hlast := h.quotes (x :: before) after rfl
      cases before with
      | nil =>
        have hx : x = '\\' := by simpa using hlast
        exact absurd rfl (hpair hx)
      | cons y before => simpa [List.getLast?_cons] using hlast
    · intro hlast
      exact h.ending (by rw [List.getLast?_cons, hlast]; rfl)
    · rintro rfl rfl
      exact h.ending rfl
  · rintro ⟨h, hne⟩
    constructor
    · intro before after he
      cases before with
      | nil => exact absurd (List.cons.inj he).1 hquote
      | cons y before =>
        rw [List.getLast?_cons, h.quotes before after (List.cons.inj he).2]
        rfl
    · intro hlast
      rw [List.getLast?_cons] at hlast
      cases hs : s.getLast? with
      | none =>
        rw [hs] at hlast
        exact hne (by simpa using hlast) (List.getLast?_eq_none_iff.mp hs)
      | some y => exact h.ending (by rw [hs] at hlast ⊢; simpa using hlast)

/-- The reader stops at the first quote that does not come after a backslash. -/
theorem readQuoted_eq_some_iff :
    readQuoted s = some (c, rest) ↔ s = c ++ '"' :: rest ∧ IsContent c := by
  fun_induction readQuoted s generalizing c with
  | case1 => simp
  | case2 r =>
    -- A quote ends the token.
    constructor
    · intro h
      obtain ⟨rfl, rfl⟩ := Prod.mk.inj (Option.some.inj h)
      exact ⟨rfl, .nil⟩
    · rintro ⟨he, hc⟩
      cases c with
      | nil => rw [(List.cons.inj he).2]
      | cons x c =>
        obtain rfl : '"' = x := (List.cons.inj he).1
        exact absurd hc not_isContent_quote
  | case3 r ih =>
    -- A backslash keeps the quote after it from ending the token.
    constructor
    · intro h
      obtain ⟨⟨i, r'⟩, hq, he⟩ := Option.map_eq_some_iff.1 h
      obtain ⟨rfl, rfl⟩ := Prod.mk.inj he
      obtain ⟨rfl, hc⟩ := ih.mp hq
      exact ⟨rfl, isContent_escaped.mpr hc⟩
    · rintro ⟨he, hc⟩
      cases c with
      | nil => exact absurd (List.cons.inj he).1 (by decide)
      | cons x c =>
        obtain ⟨rfl, he₁⟩ := List.cons.inj he
        cases c with
        | nil => exact absurd rfl hc.ending
        | cons y c =>
          obtain ⟨rfl, he₂⟩ := List.cons.inj he₁
          exact Option.map_eq_some_iff.2 ⟨_, ih.mpr ⟨he₂, isContent_escaped.mp hc⟩, rfl⟩
  | case4 x r hquote hpair ih =>
    have hquote' : x ≠ '"' := by
      rintro rfl
      exact hquote rfl
    have hpair' : x = '\\' → ∀ l : List Char, r ≠ '"' :: l := by
      rintro rfl l rfl
      exact hpair _ rfl rfl
    constructor
    · intro h
      obtain ⟨⟨i, r'⟩, hq, he⟩ := Option.map_eq_some_iff.1 h
      obtain ⟨rfl, rfl⟩ := Prod.mk.inj he
      obtain ⟨rfl, hc⟩ := ih.mp hq
      refine ⟨rfl, (isContent_cons hquote' ?_).mpr ⟨hc, ?_⟩⟩
      · intro hx hi
        obtain ⟨l, rfl⟩ := List.head?_eq_some_iff.mp hi
        exact hpair' hx _ rfl
      · rintro hx rfl
        exact hpair' hx _ rfl
    · rintro ⟨he, hc⟩
      cases c with
      | nil => exact absurd (List.cons.inj he).1 hquote'
      | cons y c =>
        obtain ⟨rfl, rfl⟩ := List.cons.inj he
        have hc' := (isContent_cons hquote' fun hx hi => by
          obtain ⟨l, rfl⟩ := List.head?_eq_some_iff.mp hi
          exact hpair' hx _ rfl).mp hc
        exact Option.map_eq_some_iff.2 ⟨_, ih.mpr ⟨rfl, hc'.1⟩, rfl⟩

/-! ## Escapes -/

theorem unescape_cons {x : Char} (hpair : x = '\\' → s.head? ≠ some '"') :
    unescape (x :: s) = x :: unescape s := by
  rw [unescape]
  rintro r rfl rfl
  exact hpair rfl rfl

theorem escape_cons {x : Char} (hquote : x ≠ '"') : escape (x :: s) = x :: escape s := by
  rw [escape, if_neg hquote]

theorem head?_escape_ne_quote (s : List Char) : (escape s).head? ≠ some '"' := by
  cases s with
  | nil => simp [escape]
  | cons x s =>
    by_cases hx : x = '"'
    · subst hx
      simp [escape_cons_quote]
    · simpa [escape_cons hx] using hx

/-- Escaping is undone by unescaping, whatever backslashes the text holds of its own. -/
@[simp] theorem unescape_escape (s : List Char) : unescape (escape s) = s := by
  induction s with
  | nil => rfl
  | cons x s ih =>
    by_cases hx : x = '"'
    · subst hx
      rw [escape_cons_quote, unescape, ih]
    · rw [escape_cons hx, unescape_cons fun _ => head?_escape_ne_quote s, ih]

/-- What stands between two quotes is the escaped form of what it stands for. -/
theorem escape_unescape (h : IsContent c) : escape (unescape c) = c := by
  fun_induction unescape c with
  | case1 => rfl
  | case2 c ih => rw [escape_cons_quote, ih (isContent_escaped.mp h)]
  | case3 x c hpair ih =>
    have hquote : x ≠ '"' := by
      rintro rfl
      exact not_isContent_quote h
    have hpair' : x = '\\' → c.head? ≠ some '"' := by
      rintro rfl hc
      obtain ⟨l, rfl⟩ := List.head?_eq_some_iff.mp hc
      exact hpair l rfl rfl
    rw [escape_cons hquote, ih ((isContent_cons hquote hpair').mp h).1]

theorem getLast?_escape (s : List Char) : (escape s).getLast? = s.getLast? := by
  induction s with
  | nil => rfl
  | cons x s ih =>
    by_cases hx : x = '"'
    · subst hx
      rw [escape_cons_quote, List.getLast?_cons, List.getLast?_cons, List.getLast?_cons, ih]
      rfl
    · rw [escape_cons hx, List.getLast?_cons, List.getLast?_cons, ih]

theorem escape_eq_nil_iff : escape s = [] ↔ s = [] := by
  rw [← List.getLast?_eq_none_iff, getLast?_escape, List.getLast?_eq_none_iff]

/-- An escaped text may stand between quotes exactly when it does not end with a backslash. -/
theorem isContent_escape_iff : IsContent (escape s) ↔ s.getLast? ≠ some '\\' := by
  induction s with
  | nil => simp [escape, IsContent.nil]
  | cons x s ih =>
    by_cases hx : x = '"'
    · subst hx
      rw [escape_cons_quote, isContent_escaped, ih, List.getLast?_cons]
      cases s.getLast? with
      | none => simp
      | some y => simp
    · rw [escape_cons hx, isContent_cons hx fun _ => head?_escape_ne_quote s, ih]
      cases s with
      | nil => simp [escape]
      | cons y s => simp [escape_eq_nil_iff, List.getLast?_cons]

theorem subset_escape (s : List Char) : s ⊆ escape s := by
  induction s with
  | nil => exact List.Subset.refl _
  | cons x s ih =>
    by_cases hx : x = '"'
    · subst hx
      rw [escape_cons_quote]
      exact List.Subset.trans (List.cons_subset_cons _ ih) (List.subset_cons_self _ _)
    · rw [escape_cons hx]
      exact List.cons_subset_cons _ ih

theorem mem_escape {x : Char} (h : x ∈ escape s) : x ∈ s ∨ x = '\\' := by
  induction s with
  | nil => exact absurd h List.not_mem_nil
  | cons y s ih =>
    by_cases hy : y = '"'
    · subst hy
      rw [escape_cons_quote, List.mem_cons, List.mem_cons] at h
      rcases h with rfl | rfl | h
      · exact .inr rfl
      · exact .inl List.mem_cons_self
      · exact (ih h).imp_left (List.mem_cons_of_mem _)
    · rw [escape_cons hy, List.mem_cons] at h
      rcases h with rfl | h
      · exact .inl List.mem_cons_self
      · exact (ih h).imp_left (List.mem_cons_of_mem _)

theorem isBare_escape_iff : IsBare (escape s) ↔ IsBare s := by
  refine ⟨fun h => h.of_subset (subset_escape s), fun h => ⟨fun hx => ?_, fun hx => ?_⟩⟩
  · exact (mem_escape hx).elim h.1 (by decide)
  · exact (mem_escape hx).elim h.2 (by decide)

theorem length_escape (s : List Char) : (escape s).length = s.length + s.count '"' := by
  induction s with
  | nil => rfl
  | cons x s ih =>
    by_cases hx : x = '"'
    · subst hx
      rw [escape_cons_quote, List.count_cons_self]
      simp only [List.length_cons, ih]
      omega
    · rw [escape_cons hx, List.count_cons_of_ne (by exact hx)]
      simp only [List.length_cons, ih]
      omega

theorem escape_eq_self_iff : escape s = s ↔ '"' ∉ s := by
  constructor
  · intro h hs
    -- Every quote makes the escaped text one longer.
    have hlen := length_escape s
    have hpos : 0 < s.count '"' := List.count_pos_iff.mpr hs
    rw [h] at hlen
    omega
  · intro h
    induction s with
    | nil => rfl
    | cons x s ih =>
      rw [escape_cons (List.ne_of_not_mem_cons h).symm, ih (List.not_mem_of_not_mem_cons h)]

/-- No quote inside an escaped text closes it: what the reader finds between the quotes starts with
the whole escaped text. -/
theorem escape_prefix_of_append_eq {after : List Char} (hc : IsContent c)
    (h : c ++ '"' :: rest = escape s ++ after) : escape s <+: c := by
  induction s generalizing c with
  | nil => exact List.nil_prefix
  | cons x s ih =>
    by_cases hx : x = '"'
    · subst hx
      rw [escape_cons_quote] at h ⊢
      match c with
      | [] => simp at h
      | [y] =>
        -- Content that ended with this backslash would not have been closed by the quote.
        obtain rfl : y = '\\' := (List.cons.inj h).1
        exact absurd rfl hc.ending
      | y :: z :: c =>
        obtain ⟨rfl, h₁⟩ := List.cons.inj h
        obtain ⟨rfl, h₂⟩ := List.cons.inj h₁
        have hpre := ih (isContent_escaped.mp hc) h₂
        exact List.cons_prefix_cons.mpr ⟨rfl, List.cons_prefix_cons.mpr ⟨rfl, hpre⟩⟩
    · rw [escape_cons hx] at h ⊢
      cases c with
      | nil => exact absurd (List.cons.inj h).1.symm hx
      | cons y c =>
        obtain rfl : y = x := (List.cons.inj h).1
        have h₁ : c ++ '"' :: rest = escape s ++ after := (List.cons.inj h).2
        refine List.cons_prefix_cons.mpr ⟨rfl, ?_⟩
        by_cases hs : s = []
        · subst hs
          exact List.nil_prefix
        · -- The text goes on with no quote, so the first character may be dropped from the content.
          have hhead : (c ++ '"' :: rest).head? ≠ some '"' := by
            rw [h₁, List.head?_append_of_ne_nil _ (mt escape_eq_nil_iff.mp hs)]
            exact head?_escape_ne_quote s
          have hc₁ : c.head? ≠ some '"' := by
            cases c with
            | nil => simp at hhead
            | cons z c => simpa using hhead
          exact ih ((isContent_cons hx fun _ => hc₁).mp hc).1 h₁

/-! ## Values -/

/-- A text between quotes. -/
def quoted (s : List Char) : List Char := '"' :: s ++ ['"']

/-- A value as it is written: bare text, or a quoted token and bare text after it. Bare text that
stands alone does not start with a quote. -/
inductive IsValue : List Char → Prop
  | bare {s : List Char} (head : s.head? ≠ some '"') (bare : IsBare s) : IsValue s
  | quoted {c t : List Char} (content : IsContent c) (tail : IsBare t) :
      IsValue (Line.quoted c ++ t)

theorem quoted_append : quoted c ++ t = '"' :: (c ++ '"' :: t) := by
  simp [quoted]

theorem length_quoted (s : List Char) : (quoted s).length = s.length + 2 := by
  simp [quoted]

theorem quoted_ne_nil : quoted s ≠ [] := List.cons_ne_nil _ _

theorem head?_quoted_append : (quoted s ++ t).head? = some '"' := rfl

theorem startsSolid_quoted : Text.StartsSolid (quoted s) := by
  intro x hx
  obtain rfl : x = '"' := by simpa [quoted] using hx.symm
  decide

theorem endsSolid_quoted : Text.EndsSolid (quoted s) := by
  intro x hx
  rw [quoted, List.getLast?_concat] at hx
  obtain rfl : '"' = x := Option.some.inj hx
  decide

theorem isBare_quoted_iff : IsBare (quoted s) ↔ IsBare s := by
  simp [quoted, IsBare]

/-- A value that starts with a quote starts with a quoted token. -/
theorem IsValue.exists_quoted (h : IsValue v) (hhead : v.head? = some '"') :
    ∃ c t, IsContent c ∧ IsBare t ∧ v = Line.quoted c ++ t := by
  cases h with
  | bare hne => exact absurd hhead hne
  | quoted hc ht => exact ⟨_, _, hc, ht, rfl⟩

theorem readValue_append (hv : IsValue v) (hrest : AtSeparator rest) :
    readValue (v ++ rest) = .ok (v, rest) := by
  cases hv with
  | bare hhead hbare =>
    obtain ⟨htake, hdrop⟩ := bare_span_iff.mpr ⟨rfl, hbare, hrest⟩
    rw [readValue, htake, hdrop]
    rintro s hs
    cases v with
    | nil =>
      rw [List.nil_append] at hs
      rw [hs, atSeparator_cons] at hrest
      exact absurd hrest (by decide)
    | cons x v =>
      obtain rfl : x = '"' := (List.cons.inj hs).1
      exact hhead rfl
  | @quoted c t hc ht =>
    have hq : readQuoted (c ++ '"' :: (t ++ rest)) = some (c, t ++ rest) :=
      readQuoted_eq_some_iff.mpr ⟨rfl, hc⟩
    obtain ⟨htake, hdrop⟩ := bare_span_iff.mpr ⟨rfl, ht, hrest⟩
    rw [List.append_assoc, quoted_append, readValue, hq]
    simp only [htake, hdrop, quoted_append, List.cons_append]

/-- The reader of values takes the value at the start of a text, up to a separator. -/
theorem readValue_eq_ok_iff :
    readValue s = .ok (v, rest) ↔ s = v ++ rest ∧ IsValue v ∧ AtSeparator rest := by
  constructor
  · intro h
    unfold readValue at h
    split at h
    · rename_i s
      split at h
      · cases h
      · rename_i c r hq
        obtain ⟨rfl, hc⟩ := readQuoted_eq_some_iff.mp hq
        obtain ⟨hv, rfl⟩ := Prod.mk.inj (Except.ok.inj h)
        rw [List.cons_append, ← quoted_append] at hv
        subst hv
        obtain ⟨hr, ht, hrest⟩ := bare_span_iff.mp ⟨rfl, rfl⟩
        refine ⟨?_, .quoted hc ht, hrest⟩
        rw [List.append_assoc, ← hr, quoted_append]
    · rename_i hs
      obtain ⟨rfl, rfl⟩ := Prod.mk.inj (Except.ok.inj h)
      obtain ⟨he, hbare, hrest⟩ := bare_span_iff.mp ⟨rfl, rfl⟩
      refine ⟨he, .bare ?_ hbare, hrest⟩
      intro hhead
      obtain ⟨l, hl⟩ := List.head?_eq_some_iff.mp hhead
      rw [hl] at he
      exact hs _ he
  · rintro ⟨rfl, hv, hrest⟩
    exact readValue_append hv hrest

/-- A value is fixed by the text that it starts. -/
theorem IsValue.append_inj {v' rest' : List Char} (hv : IsValue v) (hrest : AtSeparator rest)
    (hv' : IsValue v') (hrest' : AtSeparator rest') (h : v ++ rest = v' ++ rest') :
    v = v' ∧ rest = rest' := by
  have h1 := readValue_append hv hrest
  rw [h, readValue_append hv' hrest'] at h1
  exact (Prod.mk.inj (Except.ok.inj h1)).imp Eq.symm Eq.symm

end TimeSeries.Line
