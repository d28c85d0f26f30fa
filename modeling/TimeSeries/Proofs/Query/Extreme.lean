/-
# TimeSeries.Proofs.Query.Extreme — the least and the greatest of the values.

Both reductions keep, from left to right, the first value in an order of their own, and NaN never
takes a place. They start from the infinity that stands last in that order. One step keeps the first
of two values (`Keeps`), so a run keeps the first of the start and all values. The start is of no
matter when there is a value that is not NaN, and it is all there is to answer when there is none.
-/
import TimeSeries.Proofs.FloatOrder
import TimeSeries.Proofs.Outcome
import TimeSeries.Proofs.Query.Grouped

namespace TimeSeries.Query

variable {before : Float → Float → Prop} {step : Float → Float → Float} {last x y m : Float}
  {xs : List Float} {f : Aggregation} {width : Nanos} {ps : List Point} {g : Nanos × String}

/-! ## Keeping the first of the values -/

/-- The number is the first of the values; NaN comes before none. -/
structure IsFirst (before : Float → Float → Prop) (xs : List Float) (m : Float) : Prop where
  mem : m ∈ xs
  isNaN : m.isNaN = false
  unbeaten : ∀ x ∈ xs, x.isNaN = false → ¬ before x m

/-- The step keeps a number unless the next value comes before it. The order puts every number on
one side or the other of two that differ. -/
structure Keeps (before : Float → Float → Prop) (step : Float → Float → Float) : Prop where
  irrefl : ∀ x, ¬ before x x
  trans : ∀ {x y z}, before x y → before y z → before x z
  split : ∀ {x y z}, y.isNaN = false → before x z → before x y ∨ before y z
  step : ∀ {x y}, x.isNaN = false →
    step x y = y ∧ y.isNaN = false ∧ before y x ∨
      step x y = x ∧ (y.isNaN = false → ¬ before y x)

theorem ite_isNaN_cases {p : Prop} [Decidable p] {kept : Float}
    (h : (if y.isNaN then x else if p then y else x) = kept) :
    kept = y ∧ y.isNaN = false ∧ p ∨ kept = x ∧ (y.isNaN = false → ¬ p) := by
  split at h
  · rename_i hy
    exact .inr ⟨h.symm, fun hy' => absurd (hy.symm.trans hy') Bool.noConfusion⟩
  · rename_i hy
    split at h
    · rename_i hp
      exact .inl ⟨h.symm, Bool.not_eq_true _ ▸ hy, hp⟩
    · rename_i hp
      exact .inr ⟨h.symm, fun _ => hp⟩

theorem keeps_lesser : Keeps (· < ·) lesser where
  irrefl := Decimal.lt_irrefl
  trans := Decimal.lt_trans
  split := Decimal.lt_or_lt_of_lt
  step {x y} hx := ite_isNaN_cases (by rw [lesser, hx]; rfl)

theorem keeps_greater : Keeps (fun x y => y < x) greater where
  irrefl := Decimal.lt_irrefl
  trans h h' := Decimal.lt_trans h' h
  split hy h := (Decimal.lt_or_lt_of_lt hy h).symm
  step {x y} hx := ite_isNaN_cases (by rw [greater, hx]; rfl)

theorem Keeps.isNaN_step (h : Keeps before step) (hx : x.isNaN = false) :
    (step x y).isNaN = false := by
  rcases h.step (y := y) hx with ⟨heq, hy, -⟩ | ⟨heq, -⟩
  · rw [heq, hy]
  · rw [heq, hx]

/-- What is first of the value kept and those behind is first of all. -/
theorem IsFirst.of_step (h : Keeps before step) (hx : x.isNaN = false)
    (hm : IsFirst before (step x y :: xs) m) : IsFirst before (x :: y :: xs) m := by
  obtain ⟨hmem, hnum, hrest⟩ := hm
  rw [List.forall_mem_cons] at hrest
  obtain ⟨hkept, hrest⟩ := hrest
  rcases h.step (y := y) hx with ⟨heq, hy, hbefore⟩ | ⟨heq, hnot⟩
  · rw [heq] at hmem hkept
    refine ⟨List.mem_cons_of_mem _ hmem, hnum, ?_⟩
    rw [List.forall_mem_cons, List.forall_mem_cons]
    exact ⟨fun _ hxm => hkept hy (h.trans hbefore hxm), hkept, hrest⟩
  · rw [heq] at hmem hkept
    refine ⟨(List.cons_subset_cons x (List.subset_cons_self y xs)) hmem, hnum, ?_⟩
    rw [List.forall_mem_cons, List.forall_mem_cons]
    refine ⟨hkept, fun hy hym => ?_, hrest⟩
    rcases h.split hx hym with hyx | hxm
    · exact hnot hy hyx
    · exact hkept hx hxm

theorem Keeps.isFirst_foldl (h : Keeps before step) (hx : x.isNaN = false) :
    IsFirst before (x :: xs) (xs.foldl step x) := by
  -- The value kept changes from step to step; that it is not NaN is what a step preserves.
  induction xs generalizing x with
  | nil =>
    refine ⟨List.mem_singleton_self x, hx, ?_⟩
    rintro y hy -
    rw [List.mem_singleton.mp hy]
    exact h.irrefl x
  | cons y xs ih => exact (ih (h.isNaN_step hx)).of_step h hx

/-! ## Reductions to an extreme -/

/-- The reduction looks for the first value in this order; the number stands last in it. -/
inductive Seeks : Aggregation → (Float → Float → Prop) → Float → Prop
  | min : Seeks .min (· < ·) Decimal.infinity
  | max : Seeks .max (fun x y => y < x) (-Decimal.infinity)

theorem Seeks.exists_step (h : Seeks f before last) :
    ∃ step, Keeps before step ∧ ∀ xs, xs ≠ [] → f.apply xs = some (xs.foldl step last) := by
  cases h with
  | min => exact ⟨lesser, keeps_lesser, fun xs hne => by simp [Aggregation.apply, hne]⟩
  | max => exact ⟨greater, keeps_greater, fun xs hne => by simp [Aggregation.apply, hne]⟩

theorem Seeks.isNaN_last (h : Seeks f before last) : last.isNaN = false := by
  cases h with
  | min => exact Decimal.isNaN_infinity
  | max => exact Decimal.isNaN_neg_infinity

theorem Seeks.eq_last (h : Seeks f before last) (hx : x.isNaN = false) (hlast : ¬ before x last) :
    x = last := by
  cases h with
  | min => exact Decimal.eq_infinity_of_not_lt hx hlast
  | max => exact Decimal.eq_neg_infinity_of_not_lt hx hlast

/-- The number is the extreme of the values that some data have. It is one of them exactly when one
of them is not NaN, and none of them comes before it. For data of NaN alone it is what stands last
in the order. -/
structure IsExtreme (before : Float → Float → Prop) (last : Float) (Has : Float → Prop)
    (m : Float) : Prop where
  has_iff : Has m ↔ ∃ x, Has x ∧ x.isNaN = false
  unbeaten : ∀ x, Has x → x.isNaN = false → ¬ before x m
  default : (∀ x, Has x → x.isNaN = true) → m = last

/-- Where the first is the start, a number among the values does not come before it, and so equals
it. -/
theorem IsFirst.isExtreme (h : Seeks f before last) (hm : IsFirst before (last :: xs) m) :
    IsExtreme before last (· ∈ xs) m where
  has_iff := by
    constructor
    · intro hmem
      exact ⟨m, hmem, hm.isNaN⟩
    · rintro ⟨x, hx, hnum⟩
      rcases List.mem_cons.mp hm.mem with rfl | hmem
      · rw [← h.eq_last hnum (hm.unbeaten x (List.mem_cons_of_mem _ hx) hnum)]
        exact hx
      · exact hmem
  unbeaten x hx := hm.unbeaten x (List.mem_cons_of_mem _ hx)
  default hall := by
    rcases List.mem_cons.mp hm.mem with rfl | hmem
    · rfl
    · exact absurd (hall m hmem) (hm.isNaN ▸ Bool.noConfusion)

theorem Seeks.isExtreme_apply (h : Seeks f before last) (hne : xs ≠ []) :
    ∃ m, f.apply xs = some m ∧ IsExtreme before last (· ∈ xs) m := by
  obtain ⟨step, hstep, happly⟩ := h.exists_step
  exact ⟨_, happly xs hne, (hstep.isFirst_foldl h.isNaN_last).isExtreme h⟩

/-! ## Extremes of buckets -/

/-- Some point of the bucket has the value under this name. -/
def BucketHas (width start : Nanos) (name : String) (ps : List Point) (x : Float) : Prop :=
  ∃ p ∈ ps, InBucket width start p.timestamp ∧ p.value? name = some x

theorem mem_groupValues_iff :
    x ∈ groupValues width (ps.flatMap (rawRows .all)) g ↔ BucketHas width g.1 g.2 ps x := by
  simp only [groupValues, List.mem_map, mem_groupEntries, List.mem_flatMap, rawRows]
  constructor
  · rintro ⟨_, ⟨⟨p, hp, ⟨name, value⟩, hfield, rfl⟩, hb, rfl⟩, rfl⟩
    exact ⟨p, hp, hb, Std.TreeMap.mem_toList_iff_getElem?_eq_some.mp hfield⟩
  · rintro ⟨p, hp, hb, hvalue⟩
    have hfield := Std.TreeMap.mem_toList_iff_getElem?_eq_some.mpr hvalue
    exact ⟨⟨p.timestamp, g.2, x⟩, ⟨⟨p, hp, (g.2, x), hfield, rfl⟩, hb, rfl⟩, rfl⟩

/-- The row of a group is the extreme of the values of its bucket. -/
theorem IsReduction.isExtreme {selector : Selector} {row : Row} (h : Seeks f before last)
    (hrow : IsReduction f selector width (ps.flatMap (rawRows .all)) g row) :
    IsExtreme before last (BucketHas width row.timestamp g.2 ps) row.value := by
  have hvalue := hrow.value
  have hne : groupValues width (ps.flatMap (rawRows .all)) g ≠ [] := by
    intro hnil
    rw [hnil] at hvalue
    cases hvalue
  obtain ⟨m, hm, hextreme⟩ := h.isExtreme_apply hne
  obtain rfl : m = row.value := Option.some.inj (hm.symm.trans hvalue)
  rw [hrow.timestamp]
  simpa only [mem_groupValues_iff] using hextreme

/-- The least and the greatest value are taken from the data when the data have a value that is not
NaN: from the values of the list, and in an answer from the values that points of the row's bucket
have under the name that the row is of. None of these is lesser, or greater. For NaN alone the
answer is an infinity, which is not in the data. -/
theorem isExtreme_apply_and_rows (h : Seeks f before last) :
    (∀ xs, xs ≠ [] → ∃ m, f.apply xs = some m ∧ IsExtreme before last (· ∈ xs) m) ∧
      ∀ (s : Select) (ps : List Point) (rows : List Row),
        s.aggregation = some f → s.rows ps = .ok rows → ∀ row ∈ rows,
          ∃ name, s.selector.matches? name = true ∧
            row.label = (if s.selector = .all then f.name ++ "_" ++ name else f.name) ∧
            IsExtreme before last
              (BucketHas (s.bucketWidth.getD defaultWidth) row.timestamp name ps) row.value := by
  refine ⟨fun xs => h.isExtreme_apply, fun s ps rows hf hrows row hrow => ?_⟩
  simp only [Select.rows, hf] at hrows
  split at hrows
  · cases hrows
  · rename_i hpos
    obtain rfl := Except.ok.inj hrows
    have hgrouped : Grouped f s.selector _ _ _ _ := grouped_bucketRows (not_le.mp hpos) ps
    obtain ⟨⟨b, name⟩, hg, hred⟩ := Outcome.exists_of_mem_right hgrouped.reduced hrow
    exact ⟨name, ((hgrouped.mem_groups b name).mp hg).1, hred.label, hred.isExtreme h⟩

/-- NaN stands between the values, and the least of them is found behind it. -/
theorem isExtreme_apply_and_rows_min :
    Seeks .min (· < ·) Decimal.infinity ∧ [3.0, Float.nan, 2.5] ≠ [] ∧
      IsExtreme (· < ·) Decimal.infinity (· ∈ [3.0, Float.nan, 2.5]) 2.5 := by
  refine ⟨.min, List.cons_ne_nil _ _, ?_⟩
  obtain ⟨m, hm, hextreme⟩ := (isExtreme_apply_and_rows .min).1 [3.0, Float.nan, 2.5] (by simp)
  have heval : Aggregation.min.apply [3.0, Float.nan, 2.5] = some 2.5 := by decide +kernel
  obtain rfl : m = 2.5 := Option.some.inj (hm.symm.trans heval)
  exact hextreme

/-- The data of NaN alone do not have their extremes, neither the least nor the greatest. -/
theorem exists_extreme_not_mem :
    (Aggregation.min.apply [Float.nan] = some Decimal.infinity ∧
        Decimal.infinity ∉ [Float.nan]) ∧
      (Aggregation.max.apply [Float.nan] = some (-Decimal.infinity) ∧
        -Decimal.infinity ∉ [Float.nan]) := by
  simp only [List.mem_singleton]
  decide +kernel

end TimeSeries.Query
