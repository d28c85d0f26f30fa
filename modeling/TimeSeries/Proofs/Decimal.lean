/-
# TimeSeries.Proofs.Decimal — the characters of numerals, and whole numbers written and read back.

No reader of numbers takes a text with a blank, a comma or a quote in it. A numeral can therefore
stand in a line without quotes, and stripping the blanks at its ends changes nothing.
-/
import TimeSeries.Decimal.Basic
import TimeSeries.Nanos
import TimeSeries.Proofs.Text.Case
import TimeSeries.Proofs.Text.Letter

namespace TimeSeries.Decimal

open Text (isBlank lower)

variable {c : Char} {s mark rest : List Char} {sign : Int}

/-! ## Plain characters -/

/-- No blank, no comma and no quote. -/
def IsPlain (c : Char) : Prop := isBlank c = false ∧ c ≠ ',' ∧ c ≠ '"'

instance : Decidable (IsPlain c) := inferInstanceAs (Decidable (_ ∧ _ ∧ _))

theorem isPlain_of_isAlphanum (h : c.isAlphanum = true) : IsPlain c :=
  Text.of_isAlphanum (by decide +kernel) h

theorem isPlain_of_isDigit (h : c.isDigit = true) : IsPlain c :=
  isPlain_of_isAlphanum (Text.isAlphanum_of_isDigit h)

/-- A text that a word of letters is the lower case of has plain characters only. -/
theorem forall_isPlain_of_lower {word : String} (h : lower s = word.toList)
    (hword : word.toList.all Char.isAlpha = true) : ∀ c ∈ s, IsPlain c := by
  intro c hc
  have hlower : c.toLower ∈ word.toList := by
    rw [← h]
    exact List.mem_map_of_mem hc
  have halpha : c.isAlpha = true := by
    rw [← Char.isAlpha_toLower_eq_isAlpha]
    exact List.all_eq_true.mp hword _ hlower
  exact isPlain_of_isAlphanum (Text.isAlphanum_of_isAlpha halpha)

/-! ## Signs -/

/-- At most one sign, and the factor that it stands for. -/
inductive IsSign : Int → List Char → Prop
  | none : IsSign 1 []
  | plus : IsSign 1 ['+']
  | minus : IsSign (-1) ['-']

/-- The text has no sign at its start. -/
def IsUnsigned (s : List Char) : Prop := ∀ c ∈ s.head?, c ≠ '-' ∧ c ≠ '+'

theorem IsSign.forall_isPlain (h : IsSign sign mark) : ∀ c ∈ mark, IsPlain c := by
  cases h with
  | none => exact List.forall_mem_nil _
  | plus => exact List.forall_mem_singleton.mpr (by decide)
  | minus => exact List.forall_mem_singleton.mpr (by decide)

theorem isUnsigned_of_forall_isDigit (h : ∀ c ∈ s, c.isDigit = true) : IsUnsigned s := by
  intro c hc
  have hdigit := h c (List.mem_of_head? hc)
  constructor <;> rintro rfl <;> cases hdigit

/-- Every text is cut behind its sign, if it has one. -/
theorem exists_sign (s : List Char) : ∃ sign mark rest,
    IsSign sign mark ∧ (mark = [] → IsUnsigned rest) ∧ s = mark ++ rest := by
  by_cases h : IsUnsigned s
  · exact ⟨1, [], s, .none, fun _ => h, rfl⟩
  · simp only [IsUnsigned, not_forall] at h
    obtain ⟨c, hc, hsign⟩ := h
    obtain ⟨rest, rfl⟩ := List.head?_eq_some_iff.mp hc
    by_cases hminus : c = '-'
    · subst hminus
      exact ⟨-1, ['-'], rest, .minus, fun h => absurd h (List.cons_ne_nil _ _), rfl⟩
    · obtain rfl : c = '+' := by simpa [hminus] using hsign
      exact ⟨1, ['+'], rest, .plus, fun h => absurd h (List.cons_ne_nil _ _), rfl⟩

theorem readInt?_append (h : IsSign sign mark) (hrest : mark = [] → IsUnsigned rest) :
    readInt? (mark ++ rest) = Option.map (fun n : Nat => sign * (n : Int)) (readNat? rest) := by
  cases h with
  | none =>
    have hunsigned := hrest rfl
    rw [List.nil_append]
    unfold readInt?
    split
    · exact absurd rfl (hunsigned '-' rfl).1
    · exact absurd rfl (hunsigned '+' rfl).2
    · cases readNat? rest <;> simp
  | plus => cases hread : readNat? rest <;> simp [readInt?, hread]
  | minus => cases hread : readNat? rest <;> simp [readInt?, hread]

theorem isSome_readFloat?_append (h : IsSign sign mark) (hrest : mark = [] → IsUnsigned rest) :
    (readFloat? (mark ++ rest)).isSome = (readMagnitude? rest).isSome := by
  cases h with
  | none =>
    have hunsigned := hrest rfl
    rw [List.nil_append]
    unfold readFloat?
    split
    · exact absurd rfl (hunsigned '-' rfl).1
    · exact absurd rfl (hunsigned '+' rfl).2
    · rfl
  | plus => rfl
  | minus => exact Option.isSome_map

/-! ## Numerals -/

theorem forall_isDigit_of_readNat? {n : Nat} (h : readNat? s = some n) :
    ∀ c ∈ s, c.isDigit = true := by
  unfold readNat? at h
  split at h
  · cases h
  · rename_i hs
    simp only [Bool.or_eq_true, Bool.not_eq_true', not_or, Bool.not_eq_false,
      List.all_eq_true] at hs
    exact hs.2

theorem forall_isPlain_of_readNat? {n : Nat} (h : readNat? s = some n) : ∀ c ∈ s, IsPlain c :=
  fun c hc => isPlain_of_isDigit (forall_isDigit_of_readNat? h c hc)

theorem readInt?_of_readNat? {n : Nat} (h : readNat? s = some n) : readInt? s = some (n : Int) := by
  have hunsigned := isUnsigned_of_forall_isDigit (forall_isDigit_of_readNat? h)
  have hread := readInt?_append .none fun _ => hunsigned
  rw [List.nil_append, h, Option.map_some, Int.one_mul] at hread
  exact hread

theorem forall_isPlain_of_readInt? {n : Int} (h : readInt? s = some n) : ∀ c ∈ s, IsPlain c := by
  obtain ⟨sign, mark, digits, hsign, hunsigned, rfl⟩ := exists_sign s
  rw [readInt?_append hsign hunsigned] at h
  obtain ⟨m, hm, -⟩ := Option.map_eq_some_iff.mp h
  exact List.forall_mem_append.mpr ⟨hsign.forall_isPlain, forall_isPlain_of_readNat? hm⟩

theorem forall_isPlain_of_readExponent? {e : Int} (h : readExponent? s = some e) :
    ∀ c ∈ s, IsPlain c := by
  unfold readExponent? at h
  split at h
  · exact fun c hc => absurd hc List.not_mem_nil
  · split at h
    · rename_i he
      refine List.forall_mem_cons.mpr ⟨?_, forall_isPlain_of_readInt? h⟩
      rcases he with rfl | rfl <;> decide
    · cases h

theorem forall_isPlain_takeWhile_isDigit (s : List Char) :
    ∀ c ∈ s.takeWhile Char.isDigit, IsPlain c :=
  fun _ hc => isPlain_of_isDigit (List.mem_takeWhile_imp hc)

theorem forall_isPlain_of_read? {d : Decimal} (h : read? s = some d) : ∀ c ∈ s, IsPlain c := by
  have hwhole := List.takeWhile_append_dropWhile (p := Char.isDigit) (l := s)
  rw [← hwhole, List.forall_mem_append]
  refine ⟨forall_isPlain_takeWhile_isDigit s, ?_⟩
  unfold read? at h
  dsimp only at h
  split at h
  · rename_i r hr
    split at h
    · cases h
    · obtain ⟨e, he, -⟩ := Option.map_eq_some_iff.mp h
      have hfraction := List.takeWhile_append_dropWhile (p := Char.isDigit) (l := r)
      rw [hr, List.forall_mem_cons, ← hfraction, List.forall_mem_append]
      exact ⟨by decide, forall_isPlain_takeWhile_isDigit r, forall_isPlain_of_readExponent? he⟩
  · split at h
    · cases h
    · obtain ⟨e, he, -⟩ := Option.map_eq_some_iff.mp h
      exact forall_isPlain_of_readExponent? he

theorem forall_isPlain_of_readMagnitude? {x : Float} (h : readMagnitude? s = some x) :
    ∀ c ∈ s, IsPlain c := by
  simp only [readMagnitude?, Text.ofList_lower_eq_iff] at h
  split at h
  · rename_i hs
    rcases hs with hs | hs
    · exact forall_isPlain_of_lower hs (by decide)
    · exact forall_isPlain_of_lower hs (by decide)
  · split at h
    · rename_i hs
      exact forall_isPlain_of_lower hs (by decide)
    · obtain ⟨d, hd, -⟩ := Option.map_eq_some_iff.mp h
      exact forall_isPlain_of_read? hd

theorem forall_isPlain_of_readFloat? {x : Float} (h : readFloat? s = some x) :
    ∀ c ∈ s, IsPlain c := by
  obtain ⟨sign, mark, w, hsign, hunsigned, rfl⟩ := exists_sign s
  have hsome := isSome_readFloat?_append hsign hunsigned
  rw [h] at hsome
  obtain ⟨y, hy⟩ := Option.isSome_iff_exists.mp hsome.symm
  exact List.forall_mem_append.mpr ⟨hsign.forall_isPlain, forall_isPlain_of_readMagnitude? hy⟩

/-! ## Numerals without leading zeros -/

theorem digitChar_toNat_sub (h : c.isDigit = true) :
    c.toNat - 48 < 10 ∧ (c.toNat - 48).digitChar = c :=
  Text.of_isAlphanum
    (P := fun c => c.isDigit = true → c.toNat - 48 < 10 ∧ (c.toNat - 48).digitChar = c)
    (by decide +kernel) (Text.isAlphanum_of_isDigit h) h

/-- Digits that do not start with a zero are what their number is written as. -/
theorem toDigits_ofDigitChars (hne : s ≠ []) (hs : ∀ c ∈ s, c.isDigit = true)
    (hhead : s.head? ≠ some '0') : Nat.toDigits 10 (Nat.ofDigitChars 10 s 0) = s := by
  -- From the last digit on: the number before it is written as the digits before it.
  induction s using List.reverseRecOn with
  | nil => exact absurd rfl hne
  | append_singleton s c ih =>
    obtain ⟨hlt, hchar⟩ := digitChar_toNat_sub (hs c List.mem_concat_self)
    have hlast : Nat.ofDigitChars 10 (s ++ [c]) 0 =
        10 * Nat.ofDigitChars 10 s 0 + (c.toNat - 48) := by
      rw [Nat.ofDigitChars_append, Nat.ofDigitChars_cons, Nat.ofDigitChars_nil]
      rfl
    have hdigit : Nat.toDigits 10 (c.toNat - 48) = [c] := by
      rw [Nat.toDigits_of_lt_base hlt, hchar]
    by_cases hnil : s = []
    · subst hnil
      rw [hlast, Nat.ofDigitChars_nil, Nat.mul_zero, Nat.zero_add, hdigit, List.nil_append]
    · rw [List.head?_append_of_ne_nil _ hnil] at hhead
      have hfront := ih hnil (fun d hd => hs d (List.mem_append_left _ hd)) hhead
      have hpos : 0 < Nat.ofDigitChars 10 s 0 := by
        rw [Nat.pos_iff_ne_zero]
        intro hzero
        rw [hzero, Nat.toDigits_zero] at hfront
        exact hhead (by rw [← hfront]; rfl)
      rw [hlast, ← Nat.toDigits_append_toDigits (by decide) hpos hlt, hfront, hdigit]

theorem ofDigitChars_pos (hne : s ≠ []) (hs : ∀ c ∈ s, c.isDigit = true)
    (hhead : s.head? ≠ some '0') : 0 < Nat.ofDigitChars 10 s 0 := by
  rw [Nat.pos_iff_ne_zero]
  intro hzero
  have hdigits := toDigits_ofDigitChars hne hs hhead
  rw [hzero, Nat.toDigits_zero] at hdigits
  exact hhead (by rw [← hdigits]; rfl)

end TimeSeries.Decimal

namespace TimeSeries.Nanos

theorem forall_isPlain_of_read? {s : List Char} {n : Nanos} (h : read? s = some n) :
    ∀ c ∈ s, Decimal.IsPlain c := by
  obtain ⟨m, hm, -⟩ := Option.bind_eq_some_iff.mp h
  exact Decimal.forall_isPlain_of_readInt? hm

/-- A count that is not negative is written in digits alone. -/
theorem toList_text {n : Nanos} {m : Nat} (h : n.toInt = m) : n.text.toList = Nat.toDigits 10 m := by
  rw [text, h]
  show (toString m).toList = _
  rw [Nat.toString_eq_ofList_toDigits, String.toList_ofList]

/-- A positive count is read back from its text. -/
theorem read?_text {n : Nanos} (h : 0 < n.toInt) : read? n.text.toList = some n := by
  obtain ⟨m, hm⟩ := Int.eq_ofNat_of_zero_le (Int.le_of_lt h)
  rw [read?, toList_text hm, Decimal.readInt?_of_readNat? (Decimal.readNat?_toDigits m)]
  exact ofInt?_eq_some_iff.mpr hm

end TimeSeries.Nanos
