/-
# TimeSeries.Proofs.Text.Letter — what is no letter.

Names are told from what stands around them by their characters: no blank is one of them, and among
the characters of ASCII only letters, digits and the underscore are.
-/
import TimeSeries.Proofs.Text.Trim
import TimeSeries.Text.Letter

namespace TimeSeries.Text

variable {c : Char}

theorem toNat_lt_of_isAlphanum (h : c.isAlphanum = true) : c.toNat < 128 := by
  simp only [Char.isAlphanum, Char.isAlpha, Char.isUpper, Char.isLower, Char.isDigit,
    Bool.or_eq_true, Bool.and_eq_true, decide_eq_true_eq, ge_iff_le, UInt32.le_iff_toNat_le] at h
  have hZ : 'Z'.val.toNat = 90 := rfl
  have hz : 'z'.val.toNat = 122 := rfl
  have h9 : '9'.val.toNat = 57 := rfl
  show c.val.toNat < 128
  omega

theorem isAlphanum_of_isAlpha (h : c.isAlpha = true) : c.isAlphanum = true := by
  rw [Char.isAlphanum, h, Bool.true_or]

theorem isAlphanum_of_isDigit (h : c.isDigit = true) : c.isAlphanum = true := by
  rw [Char.isAlphanum, h, Bool.or_true]

/-- What is true of the letters and digits among the first 128 characters is true of all of them,
so it can be gone through one by one. -/
theorem of_isAlphanum {P : Char → Prop}
    (hP : ∀ n < 128, (Char.ofNat n).isAlphanum = true → P (Char.ofNat n))
    (h : c.isAlphanum = true) : P c := by
  have hascii := toNat_lt_of_isAlphanum h
  rw [← Char.ofNat_toNat c] at h ⊢
  exact hP _ hascii h

theorem isAlpha_of_isDigit (h : c.isDigit = true) : c.isAlpha = false :=
  of_isAlphanum (P := fun c => c.isDigit = true → c.isAlpha = false) (by decide +kernel)
    (isAlphanum_of_isDigit h) h

/-- The letters and digits of ASCII stand in the first three ranges of the table. -/
theorem isLetter_of_lt (h : c.toNat < 128) : isLetter c = c.isAlphanum := by
  have hsplit : letterRanges = (0x30, 0x39) :: (0x41, 0x5a) :: (0x61, 0x7a) :: letterRanges.drop 3 :=
    rfl
  have hletter : isLetter c = letterRanges.any fun r => r.1 ≤ c.toNat && c.toNat ≤ r.2 := rfl
  have hlater : ∀ r ∈ letterRanges.drop 3, 128 ≤ r.1 := by decide +kernel
  have hnone : ((letterRanges.drop 3).any fun r => r.1 ≤ c.toNat && c.toNat ≤ r.2) = false := by
    rw [List.any_eq_false]
    intro r hr
    have hr := hlater r hr
    simp only [Bool.and_eq_true, decide_eq_true_eq, not_and]
    omega
  rw [hletter, hsplit, List.any_cons, List.any_cons, List.any_cons, hnone]
  have h9 : '0'.val.toNat = 48 ∧ '9'.val.toNat = 57 := ⟨rfl, rfl⟩
  have hZ : 'A'.val.toNat = 65 ∧ 'Z'.val.toNat = 90 := ⟨rfl, rfl⟩
  have hz : 'a'.val.toNat = 97 ∧ 'z'.val.toNat = 122 := ⟨rfl, rfl⟩
  have hval : c.toNat = c.val.toNat := rfl
  rw [Bool.eq_iff_iff]
  simp only [Char.isAlphanum, Char.isAlpha, Char.isUpper, Char.isLower, Char.isDigit,
    Bool.or_eq_true, Bool.and_eq_true, decide_eq_true_eq, ge_iff_le, UInt32.le_iff_toNat_le,
    Bool.false_eq_true, or_false]
  omega

theorem isNameChar_of_lt (h : c.toNat < 128) : isNameChar c = (c.isAlphanum || c == '_') := by
  rw [isNameChar, isLetter_of_lt h]

theorem isNameChar_of_isAlphanum (h : c.isAlphanum = true) : isNameChar c = true := by
  rw [isNameChar_of_lt (toNat_lt_of_isAlphanum h), h]
  rfl

/-- The blanks, in the order of their code points. -/
def blanks : List Char :=
  ['\t', '\n', '\x0b', '\x0c', '\r', ' ', '\u0085', '\u00a0', '\u1680', '\u2000', '\u2001',
    '\u2002', '\u2003', '\u2004', '\u2005', '\u2006', '\u2007', '\u2008', '\u2009', '\u200a',
    '\u2028', '\u2029', '\u202f', '\u205f', '\u3000']

theorem mem_blanks_of_isBlank (h : isBlank c = true) : c ∈ blanks := by
  have hrange : ∀ a b : Char, a ≤ c → c ≤ b → ∃ n, a.toNat ≤ n ∧ n ≤ b.toNat ∧ c = Char.ofNat n :=
    fun a b ha hb => ⟨c.toNat, ha, hb, (Char.ofNat_toNat c).symm⟩
  simp only [isBlank, Bool.or_eq_true, Bool.and_eq_true, decide_eq_true_eq, beq_iff_eq] at h
  rcases h with (((((((((h | rfl) | rfl) | rfl) | rfl) | h) | rfl) | rfl) | rfl) | rfl) | rfl
  · obtain ⟨n, hn, hn', rfl⟩ := hrange _ _ h.1 h.2
    have hn : 9 ≤ n := hn
    have hn' : n ≤ 13 := hn'
    interval_cases n <;> decide
  all_goals try decide
  obtain ⟨n, hn, hn', rfl⟩ := hrange _ _ h.1 h.2
  have hn : 8192 ≤ n := hn
  have hn' : n ≤ 8202 := hn'
  interval_cases n <;> decide

theorem isNameChar_of_isBlank (h : isBlank c = true) : isNameChar c = false := by
  have hmem := mem_blanks_of_isBlank h
  simp only [blanks, List.mem_cons, List.not_mem_nil, or_false] at hmem
  -- Each blank is looked up in the table of letters.
  rcases hmem with rfl | rfl | rfl | rfl | rfl | rfl | rfl | rfl | rfl | rfl | rfl | rfl | rfl |
    rfl | rfl | rfl | rfl | rfl | rfl | rfl | rfl | rfl | rfl | rfl | rfl <;> decide +kernel

/-- A character of a name is no blank. -/
theorem isBlank_of_isNameChar (h : isNameChar c = true) : isBlank c = false := by
  rw [Bool.eq_false_iff]
  intro hblank
  rw [isNameChar_of_isBlank hblank] at h
  cases h

end TimeSeries.Text
