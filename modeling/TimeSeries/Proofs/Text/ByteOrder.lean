/-
# TimeSeries.Proofs.Text.ByteOrder — the order of texts, read off their bytes.

Texts are compared character by character, and their bytes in UTF-8 compare in the same way: the
first byte of a longer character is greater, and in characters of one length the digits of the code
points to base 64 stand in order.
-/
import Mathlib

namespace TimeSeries.Text

/-- The bytes of a text in UTF-8. -/
def utf8 (s : String) : List UInt8 := s.toUTF8.data.toList

theorem utf8_eq_flatMap (s : String) : utf8 s = s.toList.flatMap String.utf8EncodeChar := by
  rw [utf8, String.toUTF8_eq_toByteArray]
  conv => lhs; rw [← String.ofList_toList (s := s)]
  rw [String.toByteArray_ofList, List.utf8Encode, List.data_toByteArray]

/-! ## Bytes and digits -/

theorem ofNat_lt_ofNat {m n : Nat} (hm : m < 256) (hn : n < 256) :
    UInt8.ofNat m < UInt8.ofNat n ↔ m < n := by
  rw [UInt8.lt_iff_toNat_lt, UInt8.toNat_ofNat_of_lt' hm, UInt8.toNat_ofNat_of_lt' hn]

theorem ofNat_inj {m n : Nat} (hm : m < 256) (hn : n < 256) :
    UInt8.ofNat m = UInt8.ofNat n ↔ m = n := by
  rw [← UInt8.toNat_inj, UInt8.toNat_ofNat_of_lt' hm, UInt8.toNat_ofNat_of_lt' hn]

/-- The last digit to base 64 decides between numbers that agree before it. -/
theorem digit_lt {v w : Nat} (h : v < w) :
    v / 64 < w / 64 ∨ v / 64 = w / 64 ∧ v % 64 < w % 64 := by
  omega

theorem digits_lt {v w : Nat} (h : v < w) :
    v / 262144 < w / 262144 ∨ v / 262144 = w / 262144 ∧
      (v / 4096 % 64 < w / 4096 % 64 ∨ v / 4096 % 64 = w / 4096 % 64 ∧
        (v / 64 % 64 < w / 64 % 64 ∨ v / 64 % 64 = w / 64 % 64 ∧ v % 64 < w % 64)) := by
  have hv : v / 4096 = v / 64 / 64 := by omega
  have hw : w / 4096 = w / 64 / 64 := by omega
  have hv' : v / 262144 = v / 64 / 64 / 64 := by omega
  have hw' : w / 262144 = w / 64 / 64 / 64 := by omega
  rw [hv, hw, hv', hw']
  rcases digit_lt h with h | ⟨h, h₀⟩
  · rcases digit_lt h with h | ⟨h, h₁⟩
    · exact (digit_lt h).imp_right fun h => ⟨h.1, .inl h.2⟩
    · rw [h]
      exact .inr ⟨rfl, .inr ⟨rfl, .inl h₁⟩⟩
  · rw [h]
    exact .inr ⟨rfl, .inr ⟨rfl, .inr ⟨rfl, h₀⟩⟩⟩

/-! ## Characters and texts -/

/-- The lesser of two characters has the lesser bytes, whatever follows them. -/
theorem utf8EncodeChar_append_lt {c d : Char} (h : c < d) (x y : List UInt8) :
    String.utf8EncodeChar c ++ x < String.utf8EncodeChar d ++ y := by
  have hlt : c.val.toNat < d.val.toNat := h
  have hmax : d.val.toNat < 0x110000 := by
    rcases d.valid with hd | hd
    · exact Nat.lt_trans hd (by decide)
    · exact hd.2
  have hdigits := digits_lt hlt
  have htop : ∀ n, n < 0x110000 → n / 262144 % 8 = n / 262144 := by
    intro n hn
    omega
  unfold String.utf8EncodeChar
  generalize c.val.toNat = v at hlt hdigits
  generalize d.val.toNat = w at hlt hmax hdigits
  dsimp only
  -- The number of bytes grows with the code point, so the first bytes differ or the digits decide.
  split_ifs <;> simp (disch := omega) only [List.cons_append, List.nil_append,
    List.cons_lt_cons_iff, ofNat_lt_ofNat, ofNat_inj, htop] <;> omega

theorem flatMap_utf8EncodeChar_lt {s t : List Char} (h : s < t) :
    s.flatMap String.utf8EncodeChar < t.flatMap String.utf8EncodeChar := by
  induction h with
  | @nil d t =>
    obtain ⟨b, bytes, hb⟩ := List.exists_cons_of_ne_nil (String.utf8EncodeChar_ne_nil (c := d))
    rw [List.flatMap_cons, hb]
    exact List.nil_lt_cons _ _
  | @cons c s t _ ih =>
    rw [List.flatMap_cons, List.flatMap_cons]
    generalize String.utf8EncodeChar c = bytes
    induction bytes with
    | nil => exact ih
    | cons b bytes ih => exact List.cons_lt_cons_iff.mpr (.inr ⟨rfl, ih⟩)
  | @rel c s d t hcd =>
    rw [List.flatMap_cons, List.flatMap_cons]
    exact utf8EncodeChar_append_lt hcd _ _

/-- Texts in order have their bytes in order. -/
theorem utf8_lt {a b : String} (h : a < b) : utf8 a < utf8 b := by
  rw [utf8_eq_flatMap, utf8_eq_flatMap]
  exact flatMap_utf8EncodeChar_lt (String.lt_iff.mp h)

end TimeSeries.Text
