/-
# TimeSeries.Proofs.Query.Bucket — what the buckets of points hold.

The points of a selection are a list of entries, one for each field of each point: a time, a name
and a value, so an entry is a row of its own. Buckets hold, under a start and a name, the values of
the selected entries of that name whose times fall into the bucket, in the order of the entries
(`Buckets.collects_ofPoints`). Each entry is one step, and the step keeps that.
-/
import Mathlib
import TimeSeries.Query.Rows

namespace TimeSeries.Query

variable {selector : Selector} {width b t : Nanos} {es : List Row} {e : Row}
  {g : Nanos × String} {m : Buckets}

/-! ## The start of a bucket -/

/-- The time falls into the bucket that starts at `b`: the quotient of time and width, rounded
down, is the quotient of `b`, a multiple of the width. -/
def InBucket (width b t : Nanos) : Prop := t.toInt.fdiv width.toInt * width.toInt = b.toInt

instance : Decidable (InBucket width b t) := inferInstanceAs (Decidable (_ = _))

/-- The bucket of a time starts at a time that can be told. -/
def HasBucket (width t : Nanos) : Prop :=
  -9223372036854775808 ≤ t.toInt.fdiv width.toInt * width.toInt

instance : Decidable (HasBucket width t) := inferInstanceAs (Decidable (_ ≤ _))

theorem fdiv_eq_div (hw : 0 < width.toInt) :
    t.toInt.fdiv width.toInt = t.toInt / width.toInt :=
  Int.fdiv_eq_ediv_of_nonneg _ (Int.le_of_lt hw)

theorem bucketStart_eq_some_iff (hw : 0 < width.toInt) :
    bucketStart width t = some b ↔ InBucket width b t := by
  rw [bucketStart, Nanos.ofInt?_eq_some_iff, InBucket, fdiv_eq_div hw, eq_comm]

/-- A bucket never starts after the times in it, so it can only start too early. -/
theorem hasBucket_iff (hw : 0 < width.toInt) :
    HasBucket width t ↔ ∃ b, InBucket width b t := by
  constructor
  · intro h
    have hle : t.toInt.fdiv width.toInt * width.toInt ≤ t.toInt := by
      rw [fdiv_eq_div hw]
      exact Int.ediv_mul_le _ (by omega)
    have hupper := t.upper
    exact ⟨⟨_, h, by omega⟩, rfl⟩
  · rintro ⟨b, hb⟩
    have hlower := b.lower
    rw [HasBucket, hb]
    exact hlower

theorem InBucket.unique {b' : Nanos} (h : InBucket width b t) (h' : InBucket width b' t) :
    b = b' :=
  Nanos.ext (h.symm.trans h')

theorem InBucket.le (hw : 0 < width.toInt) (h : InBucket width b t) : b.toInt ≤ t.toInt := by
  rw [InBucket, fdiv_eq_div hw] at h
  rw [← h]
  exact Int.ediv_mul_le _ (by omega)

/-- A multiple of the width that is not after a time is not after the start of its bucket. -/
theorem InBucket.le_start {n : Int} (hw : 0 < width.toInt) (hn : width.toInt ∣ n)
    (h : InBucket width b t) (hle : n ≤ t.toInt) : n ≤ b.toInt := by
  obtain ⟨k, rfl⟩ := hn
  rw [InBucket, fdiv_eq_div hw] at h
  rw [Int.mul_comm] at hle
  rw [← h, Int.mul_comm]
  exact Int.mul_le_mul_of_nonneg_right ((Int.le_ediv_iff_mul_le hw).mpr hle) (by omega)

/-! ## Entries in groups -/

/-- The entries of one bucket and one name, in order. -/
def groupEntries (width : Nanos) (es : List Row) (g : Nanos × String) : List Row :=
  es.filter fun e => decide (InBucket width g.1 e.timestamp ∧ e.label = g.2)

/-- The values of one bucket and one name, in order. -/
def groupValues (width : Nanos) (es : List Row) (g : Nanos × String) : List Float :=
  (groupEntries width es g).map Row.value

theorem mem_groupEntries :
    e ∈ groupEntries width es g ↔
      e ∈ es ∧ InBucket width g.1 e.timestamp ∧ e.label = g.2 := by
  simp [groupEntries]

theorem groupEntries_concat :
    groupEntries width (es ++ [e]) g = groupEntries width es g ++
      if InBucket width g.1 e.timestamp ∧ e.label = g.2 then [e] else [] := by
  rw [groupEntries, List.filter_append, List.filter_singleton]
  simp only [groupEntries, Bool.cond_decide]

theorem groupEntries_filter (hg : selector.matches? g.2 = true) (es : List Row) :
    groupEntries width (es.filter fun e => selector.matches? e.label) g =
      groupEntries width es g := by
  rw [groupEntries, groupEntries, List.filter_filter]
  refine List.filter_congr fun e _ => ?_
  by_cases he : e.label = g.2
  · rw [he, hg, Bool.and_true]
  · simp [he]

/-! ## Filling the buckets -/

namespace Buckets

/-- Adds the value of an entry to its bucket, if it is selected and has one. -/
def pushEntry (selector : Selector) (width : Nanos) (m : Buckets) (e : Row) : Buckets :=
  match bucketStart width e.timestamp with
  | none => m
  | some start => if selector.matches? e.label then m.push (start, e.label) e.value else m

/-- Adding a point is adding its fields one by one. -/
theorem pushPoint_eq_foldl (m : Buckets) (p : Point) :
    pushPoint selector width m p = (rawRows .all p).foldl (pushEntry selector width) m := by
  unfold pushPoint rawRows
  simp only [List.foldl_map, List.foldl_filter, pushEntry]
  cases bucketStart width p.timestamp with
  | none => induction p.fields.toList with
    | nil => rfl
    | cons field fields ih => exact ih
  | some start => rfl

theorem ofPoints_eq_foldl (ps : List Point) :
    ofPoints selector width ps =
      (ps.flatMap (rawRows .all)).foldl (pushEntry selector width) ∅ := by
  rw [ofPoints, List.foldl_flatMap]
  congr 1
  funext m p
  exact pushPoint_eq_foldl m p

/-- The buckets hold the values of the selected entries, group by group; a group without entries
is not there. -/
def Collects (selector : Selector) (width : Nanos) (m : Buckets) (es : List Row) : Prop :=
  ∀ g, m[g]? = if selector.matches? g.2 = true ∧ groupEntries width es g ≠ [] then
    some (groupValues width es g) else none

theorem collects_empty : Collects selector width ∅ [] := by
  intro g
  simp [groupEntries]

/-- What stands in a bucket before anything is put there is nothing. -/
theorem Collects.getD (h : Collects selector width m es) (hg : selector.matches? g.2 = true) :
    m.getD g [] = groupValues width es g := by
  rw [Std.TreeMap.getD_eq_getD_getElem?, h g]
  by_cases hnil : groupEntries width es g = []
  · simp [groupValues, hnil]
  · simp [hg, hnil]

theorem getElem?_push (m : Buckets) (key : Nanos × String) (x : Float) :
    (m.push key x)[g]? = if key = g then some (m.getD key [] ++ [x]) else m[g]? := by
  rw [push, Std.TreeMap.getElem?_insert]
  simp only [Std.LawfulEqCmp.compare_eq_iff_eq]

/-- A group that an entry does not belong to stays as it is. -/
theorem Collects.getElem?_concat (h : Collects selector width m es)
    (hother : ¬ (selector.matches? e.label = true ∧ InBucket width g.1 e.timestamp ∧
      e.label = g.2)) :
    m[g]? = if selector.matches? g.2 = true ∧ groupEntries width (es ++ [e]) g ≠ [] then
      some (groupValues width (es ++ [e]) g) else none := by
  rw [h g]
  by_cases hg : selector.matches? g.2 = true
  · have hout : ¬ (InBucket width g.1 e.timestamp ∧ e.label = g.2) := by
      rintro ⟨hb, hl⟩
      exact hother ⟨hl ▸ hg, hb, hl⟩
    simp only [groupValues, groupEntries_concat, if_neg hout, List.append_nil]
  · simp [hg]

/-- An entry is added to its own group, and the other groups stay as they are. -/
theorem Collects.pushEntry (hw : 0 < width.toInt) (h : Collects selector width m es) (e : Row) :
    Collects selector width (pushEntry selector width m e) (es ++ [e]) := by
  intro g
  have hstart : ∀ b, bucketStart width e.timestamp = some b ↔ InBucket width b e.timestamp :=
    fun b => bucketStart_eq_some_iff hw
  unfold Buckets.pushEntry
  cases hb : bucketStart width e.timestamp with
  | none =>
    apply h.getElem?_concat
    rintro ⟨-, hin, -⟩
    rw [← hstart, hb] at hin
    cases hin
  | some b =>
    have hin : InBucket width b e.timestamp := (hstart b).mp hb
    by_cases hm : selector.matches? e.label = true
    · simp only [hm, if_true, getElem?_push]
      by_cases hkey : (b, e.label) = g
      · -- The entry's own group is not empty any more, and its value comes last.
        subst hkey
        simp [h.getD, hm, groupValues, groupEntries_concat, hin]
      · rw [if_neg hkey]
        apply h.getElem?_concat
        rintro ⟨-, hin', hl⟩
        exact hkey (Prod.ext (hin.unique hin') hl)
    · simp only [if_neg hm]
      apply h.getElem?_concat
      rintro ⟨hm', -⟩
      exact hm hm'

/-- Entries whose names are not selected do not matter. -/
theorem Collects.filter (h : Collects selector width m es) :
    Collects selector width m (es.filter fun e => selector.matches? e.label) := by
  intro g
  rw [h g]
  by_cases hg : selector.matches? g.2 = true
  · simp only [groupValues, groupEntries_filter hg]
  · simp [hg]

/-- The buckets of points hold the values of all fields of the points. -/
theorem collects_ofPoints (hw : 0 < width.toInt) (ps : List Point) :
    Collects selector width (ofPoints selector width ps) (ps.flatMap (rawRows .all)) := by
  rw [ofPoints_eq_foldl]
  generalize ps.flatMap (rawRows .all) = es
  -- The last entry is added last.
  induction es using List.reverseRecOn with
  | nil => exact collects_empty
  | append_singleton es e ih =>
    rw [List.foldl_append]
    exact ih.pushEntry hw e

end Buckets
end TimeSeries.Query
