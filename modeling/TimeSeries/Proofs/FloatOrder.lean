/-
# TimeSeries.Proofs.FloatOrder — the order of floating-point numbers.

A number that is not NaN has a rank: three integers, which tell its side of zero, then its exponent,
then its mantissa. One number is less than another exactly when both have ranks and the rank of the
one is less (`lt_iff`). So the comparison is a strict order with the two infinities at its ends, and
NaN stands outside it.
-/
import Mathlib
import TimeSeries.Decimal.Basic

namespace TimeSeries.Decimal

open Float.Model (Format UnpackedFloat)
open Float.Model.UnpackedFloat (Sign unpack unpackSign unpackExponent unpackMantissa)

variable {x y z : Float} {s : Sign}

/-! ## Ranks -/

/-- The rank of a number from its parts. The two zeros have one rank; that of NaN does not count. -/
def rankOf : UnpackedFloat → ℤ ×ₗ ℤ ×ₗ ℤ
  | .infinity .negative => toLex (-2, toLex (0, 0))
  | .finite .negative mantissa exponent _ => toLex (-1, toLex (-exponent, -mantissa))
  | .zero _ | .notANumber => toLex (0, toLex (0, 0))
  | .finite .positive mantissa exponent _ => toLex (1, toLex (exponent, mantissa))
  | .infinity .positive => toLex (2, toLex (0, 0))

/-- The rank of a number. -/
def rank (x : Float) : ℤ ×ₗ ℤ ×ₗ ℤ := rankOf x.toModel.unpack

theorem compare_then_eq_lt_iff {a b : ℤ} {m n : ℕ} :
    (compare a b).then (compare m n) = .lt ↔ a < b ∨ a = b ∧ m < n := by
  rw [Ordering.then_eq_lt, compare_lt_iff_lt, compare_eq_iff_eq, compare_lt_iff_lt]

theorem compare_then_eq_gt_iff {a b : ℤ} {m n : ℕ} :
    (compare a b).then (compare m n) = .gt ↔ b < a ∨ a = b ∧ n < m := by
  rw [Ordering.then_eq_gt, compare_gt_iff_gt, compare_eq_iff_eq, compare_gt_iff_gt]

theorem compare_sign_eq_lt_iff {s t : Sign} :
    compare s t = .lt ↔ s = .negative ∧ t = .positive := by
  cases s <;> cases t <;> simp [compare]

theorem unpacked_lt_iff (a b : UnpackedFloat) :
    a.lt b = true ↔ a.isNaN = false ∧ b.isNaN = false ∧ rankOf a < rankOf b := by
  -- Numbers of one sign are compared by exponent, then by mantissa; all else is told by the sides.
  rcases a with (_ | _) | _ | _ | ⟨_ | _, m, e, hm⟩ <;>
    rcases b with (_ | _) | _ | _ | ⟨_ | _, n, f, hn⟩ <;>
    simp [UnpackedFloat.lt, UnpackedFloat.compare, UnpackedFloat.isNaN, rankOf,
      Prod.Lex.toLex_lt_toLex, compare_then_eq_lt_iff, compare_then_eq_gt_iff,
      compare_sign_eq_lt_iff]

/-- One number is less than another when neither is NaN and the ranks say so. -/
theorem lt_iff : x < y ↔ x.isNaN = false ∧ y.isNaN = false ∧ rank x < rank y := by
  show decide (x.toModel < y.toModel) = true ↔ _
  rw [decide_eq_true_iff]
  exact unpacked_lt_iff x.toModel.unpack y.toModel.unpack

theorem lt_irrefl (x : Float) : ¬ x < x := fun h => (lt_iff.mp h).2.2.false

theorem lt_trans (h : x < y) (h' : y < z) : x < z := by
  rw [lt_iff] at h h' ⊢
  exact ⟨h.1, h'.2.1, h.2.2.trans h'.2.2⟩

/-- A number that is not NaN stands on one side or the other of two numbers that differ. -/
theorem lt_or_lt_of_lt (hy : y.isNaN = false) (h : x < z) : x < y ∨ y < z := by
  rw [lt_iff] at h
  obtain ⟨hx, hz, hlt⟩ := h
  rcases lt_or_ge (rank x) (rank y) with hxy | hyx
  · exact .inl (lt_iff.mpr ⟨hx, hy, hxy⟩)
  · exact .inr (lt_iff.mpr ⟨hy, hz, hyx.trans_lt hlt⟩)

/-! ## The ends of the order -/

/-- The bits of a number are its three fields, side by side. -/
theorem eq_of_fields {b c : BitVec 64}
    (hs : @unpackSign .binary64 b = @unpackSign .binary64 c)
    (he : @unpackExponent .binary64 b = @unpackExponent .binary64 c)
    (hm : @unpackMantissa .binary64 b = @unpackMantissa .binary64 c) : b = c := by
  have hs := congrArg BitVec.toNat hs
  have he := congrArg BitVec.toNat he
  have hm := congrArg BitVec.toNat hm
  simp only [unpackSign, unpackExponent, unpackMantissa, BitVec.toNat_cast,
    BitVec.extractLsb_toNat, Nat.shiftRight_eq_div_pow] at hs he hm
  norm_num at hs he hm
  -- What is left are quotients and remainders by powers of two, which make up the number.
  have hb := b.isLt
  have hc := c.isLt
  exact BitVec.eq_of_toNat_eq (by omega)

/-- The fields of an infinity are told by its sign. -/
theorem fields_of_unpack_eq_infinity {b : BitVec 64} (h : unpack .binary64 b = .infinity s) :
    @unpackSign .binary64 b = s.toBitVec ∧
      @unpackExponent .binary64 b = -1#11 ∧
      @unpackMantissa .binary64 b = 0#52 := by
  have hsign : ∀ v : BitVec 1, v = (Sign.ofBitVec v).toBitVec := by decide
  unfold unpack at h
  dsimp only at h
  split at h
  · rename_i he
    split at h
    · rename_i hm
      cases h
      exact ⟨hsign _, he, hm⟩
    · cases h
  · split at h
    · split at h <;> cases h
    · cases h

/-- There is one infinity of each sign. -/
theorem eq_of_unpack_eq_infinity (hx : x.toModel.unpack = .infinity s)
    (hy : y.toModel.unpack = .infinity s) : x = y := by
  obtain ⟨⟨⟨b⟩, hb⟩⟩ := x
  obtain ⟨⟨⟨c⟩, hc⟩⟩ := y
  obtain ⟨hxs, hxe, hxm⟩ := fields_of_unpack_eq_infinity hx
  obtain ⟨hys, hye, hym⟩ := fields_of_unpack_eq_infinity hy
  obtain rfl : b = c :=
    eq_of_fields (hxs.trans hys.symm) (hxe.trans hye.symm) (hxm.trans hym.symm)
  rfl

theorem unpack_infinity : infinity.toModel.unpack = .infinity .positive := rfl

theorem unpack_neg_infinity : (-infinity).toModel.unpack = .infinity .negative := rfl

theorem isNaN_infinity : infinity.isNaN = false := rfl

theorem isNaN_neg_infinity : (-infinity).isNaN = false := rfl

/-- Only infinity has so high a rank. -/
theorem rankOf_infinity_le_iff {a : UnpackedFloat} :
    rankOf (.infinity .positive) ≤ rankOf a ↔ a = .infinity .positive := by
  rcases a with (_ | _) | _ | _ | ⟨_ | _, m, e, hm⟩ <;> simp [rankOf, Prod.Lex.toLex_le_toLex]

theorem rankOf_le_neg_infinity_iff {a : UnpackedFloat} :
    rankOf a ≤ rankOf (.infinity .negative) ↔ a = .infinity .negative := by
  rcases a with (_ | _) | _ | _ | ⟨_ | _, m, e, hm⟩ <;> simp [rankOf, Prod.Lex.toLex_le_toLex]

/-- A number is below infinity, unless it is infinity or NaN. -/
theorem eq_infinity_of_not_lt (hx : x.isNaN = false) (h : ¬ x < infinity) : x = infinity := by
  rw [lt_iff, not_and, not_and, not_lt] at h
  exact eq_of_unpack_eq_infinity (rankOf_infinity_le_iff.mp (h hx isNaN_infinity)) unpack_infinity

/-- A number is above the least infinity, unless it is that or NaN. -/
theorem eq_neg_infinity_of_not_lt (hx : x.isNaN = false) (h : ¬ -infinity < x) :
    x = -infinity := by
  rw [lt_iff, not_and, not_and, not_lt] at h
  exact eq_of_unpack_eq_infinity (rankOf_le_neg_infinity_iff.mp (h isNaN_neg_infinity hx))
    unpack_neg_infinity

end TimeSeries.Decimal
