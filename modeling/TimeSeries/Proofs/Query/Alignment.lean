/-
# TimeSeries.Proofs.Query.Alignment — buckets start at the multiples of their width.

The start of a bucket is worked out by a division and a product. The quotient always fits, and the
product is refused where it does not (`div?_map_mul?`). What comes out is the quotient of time and
width as a rational number, rounded down, times the width. So it is the last multiple of the width
up to the time, and two times share a bucket unless a multiple lies between them
(`bucketStart_aligned`).
-/
import TimeSeries.Proofs.Query.Bucket

namespace TimeSeries

/-! ## Division -/

/-- The quotient of two counts, rounded so that what remains is not negative. By zero there is none,
and none is given that does not fit: the least count has no quotient by minus one. -/
def Nanos.div? (a b : Nanos) : Option Nanos :=
  if b.toInt = 0 then none else ofInt? (a.toInt / b.toInt)

/-- A count divided by a positive one comes no farther from zero, so the quotient fits. -/
theorem Nanos.exists_div?_eq (a : Nanos) {b : Nanos} (hb : 0 < b.toInt) :
    ∃ q, a.div? b = some q ∧ q.toInt = a.toInt / b.toInt := by
  have hlower : -9223372036854775808 ≤ a.toInt / b.toInt := by
    have ha := a.lower
    exact (Int.le_ediv_iff_mul_le hb).mpr (by omega)
  have hupper : a.toInt / b.toInt ≤ 9223372036854775807 := by
    have ha := a.upper
    exact Int.lt_add_one_iff.mp ((Int.ediv_lt_iff_lt_mul hb).mpr (by omega))
  refine ⟨⟨a.toInt / b.toInt, hlower, hupper⟩, ?_, rfl⟩
  rw [div?, if_neg (by omega)]
  exact ofInt?_eq_some_iff.mpr rfl

namespace Query

variable {width b b' t t' : Nanos}

/-- The two steps of a bucket's start: the division gives a quotient, and the product is the start
or is refused. -/
theorem div?_map_mul? (hw : 0 < width.toInt) (t : Nanos) :
    (t.div? width).map (·.mul? width) = some (bucketStart width t) := by
  obtain ⟨q, hq, hvalue⟩ := t.exists_div?_eq hw
  rw [hq, Option.map_some, Nanos.mul?, hvalue, bucketStart]

/-! ## The multiple below a time -/

/-- The quotient of time and width as a rational number, rounded down, times the width. -/
def floorMultiple (width t : Nanos) : Int := ⌊(t.toInt : ℚ) / width.toInt⌋ * width.toInt

theorem floor_div_eq_fdiv (hw : 0 < width.toInt) :
    ⌊(t.toInt : ℚ) / width.toInt⌋ = t.toInt.fdiv width.toInt := by
  obtain ⟨w, hwidth⟩ := Int.eq_ofNat_of_zero_le (Int.le_of_lt hw)
  rw [fdiv_eq_div hw, hwidth]
  exact_mod_cast Rat.floor_intCast_div_natCast t.toInt w

theorem inBucket_iff_eq_floorMultiple (hw : 0 < width.toInt) :
    InBucket width b t ↔ b.toInt = floorMultiple width t := by
  rw [InBucket, floorMultiple, floor_div_eq_fdiv hw, eq_comm]

theorem hasBucket_iff_le_floorMultiple (hw : 0 < width.toInt) :
    HasBucket width t ↔ -2 ^ 63 ≤ floorMultiple width t := by
  rw [HasBucket, floorMultiple, floor_div_eq_fdiv hw]
  norm_num

/-- Less than a width lies between the multiple and the time. -/
theorem lt_floorMultiple_add (hw : 0 < width.toInt) :
    t.toInt < floorMultiple width t + width.toInt := by
  have h := Int.lt_ediv_add_one_mul_self t.toInt hw
  rw [floorMultiple, floor_div_eq_fdiv hw, fdiv_eq_div hw]
  linarith [h]

/-! ## Times in buckets -/

theorem InBucket.dvd (h : InBucket width b t) : width.toInt ∣ b.toInt := by
  rw [← h]
  exact Int.dvd_mul_left _ _

/-- A later time is not in an earlier bucket. -/
theorem InBucket.start_le_start (hw : 0 < width.toInt) (h : InBucket width b t)
    (h' : InBucket width b' t') (hle : t ≤ t') : b ≤ b' :=
  h'.le_start hw h.dvd (Int.le_trans (h.le hw) hle)

/-- A later time is in the same bucket as long as no bucket starts between them. -/
theorem InBucket.start_eq_iff (hw : 0 < width.toInt) (h : InBucket width b t)
    (h' : InBucket width b' t') (hle : t ≤ t') :
    b = b' ↔ ¬ ∃ k, width.toInt ∣ k ∧ t.toInt < k ∧ k ≤ t'.toInt := by
  have hb := h.le hw
  constructor
  · rintro rfl ⟨k, hk, hlt, hkle⟩
    have hstart := h'.le_start hw hk hkle
    omega
  · intro hnone
    by_contra hne
    have hstart : b.toInt ≤ b'.toInt := h.start_le_start hw h' hle
    have hne : b.toInt ≠ b'.toInt := fun heq => hne (Nanos.ext heq)
    refine hnone ⟨b'.toInt, h'.dvd, ?_, h'.le hw⟩
    -- Otherwise the later start would be a multiple up to the earlier time, beyond its own start.
    by_contra hlt
    have hstart' := h.le_start hw h'.dvd (Int.not_lt.mp hlt)
    omega

/-! ## The starts of buckets -/

/-- What is asked of the starts of buckets of one width, over all times. -/
structure StartsAligned (width : Nanos) : Prop where
  /-- The quotient is there and fits, and the start is its product with the width. -/
  steps : ∀ t : Nanos, (t.div? width).map (·.mul? width) = some (bucketStart width t)
  start : ∀ t, -2 ^ 63 ≤ floorMultiple width t →
    ∃ b, bucketStart width t = some b ∧ b.toInt = floorMultiple width t
  no_start : ∀ t, floorMultiple width t < -2 ^ 63 → bucketStart width t = none
  bounds : ∀ t b, bucketStart width t = some b →
    width.toInt ∣ b.toInt ∧ b.toInt ≤ t.toInt ∧ t.toInt < b.toInt + width.toInt
  lt_of_no_start : ∀ t, bucketStart width t = none → t.toInt < -2 ^ 63 + width.toInt
  monotone : ∀ t t' b b', t ≤ t' → bucketStart width t = some b → bucketStart width t' = some b' →
    b ≤ b'
  shared : ∀ t t' b b', t ≤ t' → bucketStart width t = some b → bucketStart width t' = some b' →
    (b = b' ↔ ¬ ∃ k, width.toInt ∣ k ∧ t.toInt < k ∧ k ≤ t'.toInt)

/-- A bucket starts at the last multiple of the width up to the times in it, or nowhere if that
multiple cannot be told. -/
theorem bucketStart_aligned (hw : 0 < width.toInt) : StartsAligned width := by
  have hnone : ∀ t, bucketStart width t = none ↔ floorMultiple width t < -2 ^ 63 := by
    intro t
    rw [← not_le, ← hasBucket_iff_le_floorMultiple hw, hasBucket_iff hw,
      Option.eq_none_iff_forall_ne_some, not_exists]
    exact forall_congr' fun b => not_congr (bucketStart_eq_some_iff hw)
  refine ⟨div?_map_mul? hw, fun t ht => ?_, fun t => (hnone t).mpr, fun t b hb => ?_,
    fun t ht => ?_, fun t t' b b' hle hb hb' => ?_, fun t t' b b' hle hb hb' => ?_⟩
  · obtain ⟨b, hb⟩ := (hasBucket_iff hw).mp ((hasBucket_iff_le_floorMultiple hw).mpr ht)
    exact ⟨b, (bucketStart_eq_some_iff hw).mpr hb, (inBucket_iff_eq_floorMultiple hw).mp hb⟩
  · have hin := (bucketStart_eq_some_iff hw).mp hb
    refine ⟨hin.dvd, hin.le hw, ?_⟩
    rw [(inBucket_iff_eq_floorMultiple hw).mp hin]
    exact lt_floorMultiple_add hw
  · have hlt := lt_floorMultiple_add (t := t) hw
    have hlow := (hnone t).mp ht
    omega
  · rw [bucketStart_eq_some_iff hw] at hb hb'
    exact hb.start_le_start hw hb' hle
  · rw [bucketStart_eq_some_iff hw] at hb hb'
    exact hb.start_eq_iff hw hb' hle

/-- The greatest width has buckets on either side of zero, and none for the least time. -/
theorem bucketStart_aligned_last :
    0 < Nanos.last.toInt ∧ StartsAligned .last ∧
      bucketStart .last ⟨-1, by decide, by decide⟩ =
        some ⟨-9223372036854775807, by decide, by decide⟩ ∧
      bucketStart .last ⟨-9223372036854775808, by decide, by decide⟩ = none :=
  ⟨by decide, bucketStart_aligned (by decide), by decide, by decide⟩

end Query
end TimeSeries
