/-
# TimeSeries.Proofs.FieldValue.Spelling — the grammars of literals, and what the readers take.

Each type of values has a language of literals (`Spells`), given by a grammar. The readers take the
words of these languages and no others: each reader is the recognizer of one production, from digits
and exponents up to whole literals. What has a sign is first cut behind it (`Decimal.exists_sign`).
-/
import TimeSeries.Proofs.FieldValue
import TimeSeries.Proofs.Query.TimeLiteral

namespace TimeSeries.FieldValue

open Decimal (IsSign IsUnsigned readNat? readInt? readExponent? read? readMagnitude? readFloat?)
open Query (IsDigits Fits)
open Text (lower)

variable {s whole fraction tail w : List Char}

/-! ## Grammars -/

/-- Nothing, or an `e` of either case with digits behind it, which may have a sign. -/
inductive IsExponent : List Char → Prop
  | none : IsExponent []
  | some {c : Char} {n : Int} {mark ds : List Char} (letter : c = 'e' ∨ c = 'E')
      (sign : IsSign n mark) (digits : IsDigits ds) : IsExponent (c :: (mark ++ ds))

/-- Digits with at most one point before, among or behind them, and an exponent. -/
inductive IsNumeral : List Char → Prop
  | whole {whole tail : List Char} (digits : IsDigits whole) (exponent : IsExponent tail) :
      IsNumeral (whole ++ tail)
  | point {whole fraction tail : List Char} (digits : IsDigits (whole ++ fraction))
      (exponent : IsExponent tail) : IsNumeral (whole ++ '.' :: (fraction ++ tail))

/-- A numeral, or one of the three words that stand for numbers, in any case. -/
inductive IsMagnitude : List Char → Prop
  | word {w : List Char}
      (word : lower w = "inf".toList ∨ lower w = "infinity".toList ∨ lower w = "nan".toList) :
      IsMagnitude w
  | numeral {w : List Char} (numeral : IsNumeral w) : IsMagnitude w

/-- The languages of the four types. An integer is one of 64 bits with a sign. -/
inductive Spells : FieldType → List Char → Prop
  | string {content : List Char} : Spells .string ('"' :: (content ++ ['"']))
  | integer {n : Int} {mark ds : List Char} (sign : IsSign n mark) (digits : IsDigits ds)
      (fits : Fits (n * Nat.ofDigitChars 10 ds 0)) : Spells .integer (mark ++ ds ++ ['i'])
  | boolean {w : List Char} (word : lower w = "true".toList ∨ lower w = "false".toList) :
      Spells .boolean w
  | float {n : Int} {mark w : List Char} (sign : IsSign n mark) (magnitude : IsMagnitude w) :
      Spells .float (mark ++ w)

/-! ## First characters -/

theorem IsNumeral.head (h : IsNumeral s) : ∀ c ∈ s.head?, c.isDigit = true ∨ c = '.' := by
  intro c hc
  cases h with
  | whole hdigits _ =>
    rw [List.head?_append_of_ne_nil _ hdigits.ne_nil] at hc
    exact .inl (hdigits.isDigit c (List.mem_of_head? hc))
  | @point whole fraction tail hdigits _ =>
    cases whole with
    | nil => exact .inr (Option.some.inj hc).symm
    | cons d whole =>
      obtain rfl : d = c := Option.some.inj hc
      exact .inl (hdigits.isDigit d List.mem_cons_self)

/-- A magnitude starts with a letter, a digit or a point. -/
theorem IsMagnitude.isUnsigned (h : IsMagnitude w) : IsUnsigned w := by
  intro c hc
  cases h with
  | word hword =>
    have hlower : (lower w).head? = some c.toLower := by
      rw [lower, List.head?_map, Option.mem_def.mp hc, Option.map_some]
    have hletter : c.toLower = 'i' ∨ c.toLower = 'n' := by
      rcases hword with hword | hword | hword <;> rw [hword] at hlower
      · exact .inl (Option.some.inj hlower).symm
      · exact .inl (Option.some.inj hlower).symm
      · exact .inr (Option.some.inj hlower).symm
    constructor <;> rintro rfl <;> revert hletter <;> decide
  | numeral hnumeral =>
    have hfirst := hnumeral.head c hc
    constructor <;> rintro rfl <;> revert hfirst <;> decide

/-! ## What the readers take -/

theorem readNat?_eq_some_iff {n : Nat} :
    readNat? s = some n ↔ IsDigits s ∧ n = Nat.ofDigitChars 10 s 0 := by
  constructor
  · intro h
    have hdigits : IsDigits s := by
      refine ⟨?_, Decimal.forall_isDigit_of_readNat? h⟩
      rintro rfl
      cases h
    exact ⟨hdigits, Option.some.inj (h.symm.trans hdigits.readNat?_eq)⟩
  · rintro ⟨hdigits, rfl⟩
    exact hdigits.readNat?_eq

theorem readInt?_eq_some_iff {n : Int} : readInt? s = some n ↔
    ∃ sign mark ds, IsSign sign mark ∧ IsDigits ds ∧ s = mark ++ ds ∧
      n = sign * Nat.ofDigitChars 10 ds 0 := by
  constructor
  · intro h
    obtain ⟨sign, mark, ds, hsign, hunsigned, rfl⟩ := Decimal.exists_sign s
    rw [Decimal.readInt?_append hsign hunsigned] at h
    obtain ⟨m, hm, rfl⟩ := Option.map_eq_some_iff.mp h
    obtain ⟨hdigits, rfl⟩ := readNat?_eq_some_iff.mp hm
    exact ⟨sign, mark, ds, hsign, hdigits, rfl, rfl⟩
  · rintro ⟨sign, mark, ds, hsign, hdigits, rfl, rfl⟩
    have hunsigned := Decimal.isUnsigned_of_forall_isDigit hdigits.isDigit
    rw [Decimal.readInt?_append hsign fun _ => hunsigned, hdigits.readNat?_eq]
    rfl

/-- An integer is read exactly if its literal is in the language of integers. -/
theorem isSome_readInteger?_iff : (readInteger? s).isSome = true ↔ Spells .integer s := by
  constructor
  · intro h
    obtain ⟨n, hn⟩ := Option.isSome_iff_exists.mp h
    unfold readInteger? at hn
    split at hn
    · rename_i hlast
      obtain ⟨m, hm, hfits⟩ := Option.bind_eq_some_iff.mp hn
      obtain ⟨sign, mark, ds, hsign, hdigits, hs, rfl⟩ := readInt?_eq_some_iff.mp hm
      rw [← List.dropLast_append_getLast? _ hlast, hs]
      exact .integer hsign hdigits (Nanos.ofInt?_eq_some_iff.mp hfits ▸ Query.fits_toInt n)
    · cases hn
  · intro h
    cases h with
    | @integer sign mark ds hsign hdigits hfits =>
      obtain ⟨n, hn⟩ := hfits.exists_toInt
      have hread : readInt? (mark ++ ds) = some n.toInt :=
        readInt?_eq_some_iff.mpr ⟨sign, mark, ds, hsign, hdigits, rfl, hn⟩
      rw [readInteger?, if_pos List.getLast?_concat, List.dropLast_concat, Nanos.read?, hread]
      exact Option.isSome_iff_exists.mpr ⟨n, Nanos.ofInt?_eq_some_iff.mpr rfl⟩

theorem isSome_readExponent?_iff : (readExponent? s).isSome = true ↔ IsExponent s := by
  constructor
  · intro h
    obtain ⟨n, hn⟩ := Option.isSome_iff_exists.mp h
    unfold readExponent? at hn
    split at hn
    · exact .none
    · split at hn
      · rename_i hletter
        obtain ⟨sign, mark, ds, hsign, hdigits, rfl, -⟩ := readInt?_eq_some_iff.mp hn
        exact .some hletter hsign hdigits
      · cases hn
  · intro h
    cases h with
    | none => rfl
    | some hletter hsign hdigits =>
      rw [readExponent?, if_pos hletter,
        readInt?_eq_some_iff.mpr ⟨_, _, _, hsign, hdigits, rfl, rfl⟩]
      rfl

/-- Every text is cut behind the digits that it starts with. -/
theorem exists_digits (s : List Char) : ∃ ds rest, s = ds ++ rest ∧
    (∀ c ∈ ds, c.isDigit = true) ∧ ∀ c ∈ rest.head?, c.isDigit = false :=
  ⟨_, _, Text.span_eq_iff.mp ⟨rfl, rfl⟩⟩

/-- A numeral with a point is read if there are digits at the point. -/
theorem isSome_read?_point (hwhole : ∀ c ∈ whole, c.isDigit = true)
    (hfraction : ∀ c ∈ fraction, c.isDigit = true) (htail : ∀ c ∈ tail.head?, c.isDigit = false) :
    (read? (whole ++ '.' :: (fraction ++ tail))).isSome = true ↔
      whole ++ fraction ≠ [] ∧ IsExponent tail := by
  have hpoint : ∀ c ∈ ('.' :: (fraction ++ tail)).head?, c.isDigit = false := by
    intro c hc
    obtain rfl := Option.some.inj hc
    rfl
  obtain ⟨htake, hdrop⟩ := Text.span_eq_iff.mpr ⟨rfl, hwhole, hpoint⟩
  obtain ⟨htake', hdrop'⟩ := Text.span_eq_iff.mpr ⟨rfl, hfraction, htail⟩
  rw [← isSome_readExponent?_iff, read?, htake, hdrop]
  simp only [htake', hdrop']
  by_cases hnil : whole = [] ∧ fraction = []
  · simp [hnil]
  · have hsome : (whole.isEmpty && fraction.isEmpty) = false := by
      simpa [Bool.eq_false_iff] using hnil
    simp [hsome, hnil]

/-- A numeral without a point is read if it starts with a digit. -/
theorem isSome_read?_whole (hwhole : ∀ c ∈ whole, c.isDigit = true)
    (htail : ∀ c ∈ tail.head?, c.isDigit = false ∧ c ≠ '.') :
    (read? (whole ++ tail)).isSome = true ↔ whole ≠ [] ∧ IsExponent tail := by
  obtain ⟨htake, hdrop⟩ :=
    Text.span_eq_iff.mpr ⟨rfl, hwhole, fun c hc => (htail c hc).1⟩
  rw [← isSome_readExponent?_iff, read?, htake, hdrop]
  split
  rename_i fraction rest hparts
  split at hparts
  · exact absurd rfl (htail '.' rfl).2
  · obtain ⟨rfl, rfl⟩ := Prod.mk.inj hparts
    by_cases hnil : whole = [] <;> simp [hnil]

theorem IsExponent.head (h : IsExponent tail) : ∀ c ∈ tail.head?, c.isDigit = false ∧ c ≠ '.' := by
  cases h with
  | none => simp
  | some hletter =>
    intro c hc
    obtain rfl := Option.some.inj hc
    rcases hletter with rfl | rfl <;> decide

theorem isSome_read?_iff : (read? s).isSome = true ↔ IsNumeral s := by
  constructor
  · intro h
    obtain ⟨whole, rest, rfl, hwhole, hrest⟩ := exists_digits s
    -- Behind a point there are digits again; without one the exponent comes at once.
    by_cases hpoint : ∃ r, rest = '.' :: r
    · obtain ⟨r, rfl⟩ := hpoint
      obtain ⟨fraction, tail, rfl, hfraction, htail⟩ := exists_digits r
      obtain ⟨hne, hexponent⟩ := (isSome_read?_point hwhole hfraction htail).mp h
      exact .point ⟨hne, List.forall_mem_append.mpr ⟨hwhole, hfraction⟩⟩ hexponent
    · have htail : ∀ c ∈ rest.head?, c.isDigit = false ∧ c ≠ '.' := by
        intro c hc
        refine ⟨hrest c hc, ?_⟩
        rintro rfl
        exact hpoint (List.head?_eq_some_iff.mp hc)
      obtain ⟨hne, hexponent⟩ := (isSome_read?_whole hwhole htail).mp h
      exact .whole ⟨hne, hwhole⟩ hexponent
  · intro h
    cases h with
    | whole hdigits hexponent =>
      exact (isSome_read?_whole hdigits.isDigit hexponent.head).mpr ⟨hdigits.ne_nil, hexponent⟩
    | point hdigits hexponent =>
      obtain ⟨hwhole, hfraction⟩ := List.forall_mem_append.mp hdigits.isDigit
      exact (isSome_read?_point hwhole hfraction fun c hc => (hexponent.head c hc).1).mpr
        ⟨hdigits.ne_nil, hexponent⟩

theorem isSome_readMagnitude?_iff : (readMagnitude? s).isSome = true ↔ IsMagnitude s := by
  simp only [readMagnitude?, Text.ofList_lower_eq_iff]
  constructor
  · intro h
    split at h
    · rename_i hword
      exact .word (hword.imp_right .inl)
    · split at h
      · rename_i hword
        exact .word (.inr (.inr hword))
      · exact .numeral (isSome_read?_iff.mp (Option.isSome_map ▸ h))
  · intro h
    cases h with
    | word hword =>
      rcases hword with hword | hword | hword
      · rw [if_pos (.inl hword)]
        rfl
      · rw [if_pos (.inr hword)]
        rfl
      · rw [hword]
        rfl
    | numeral hnumeral =>
      split
      · rfl
      · split
        · rfl
        · rw [Option.isSome_map]
          exact isSome_read?_iff.mpr hnumeral

theorem isSome_readFloat?_iff : (readFloat? s).isSome = true ↔ Spells .float s := by
  constructor
  · intro h
    obtain ⟨sign, mark, w, hsign, hunsigned, rfl⟩ := Decimal.exists_sign s
    rw [Decimal.isSome_readFloat?_append hsign hunsigned] at h
    exact .float hsign (isSome_readMagnitude?_iff.mp h)
  · intro h
    cases h with
    | float hsign hmagnitude =>
      rw [Decimal.isSome_readFloat?_append hsign fun _ => hmagnitude.isUnsigned]
      exact isSome_readMagnitude?_iff.mpr hmagnitude

theorem spells_string_iff : Spells .string s ↔
    s.head? = some '"' ∧ s.getLast? = some '"' ∧ 2 ≤ s.length := by
  constructor
  · intro h
    cases h with
    | @string content =>
      rw [← List.cons_append, List.getLast?_concat]
      exact ⟨rfl, rfl, by simp⟩
  · rintro ⟨hhead, hlast, hlength⟩
    obtain ⟨r, rfl⟩ := List.head?_eq_some_iff.mp hhead
    have hne : r ≠ [] := by
      rintro rfl
      simp at hlength
    obtain ⟨c, r, rfl⟩ := List.exists_cons_of_ne_nil hne
    rw [List.getLast?_cons_cons] at hlast
    rw [← List.dropLast_append_getLast? _ hlast]
    exact .string

end TimeSeries.FieldValue
