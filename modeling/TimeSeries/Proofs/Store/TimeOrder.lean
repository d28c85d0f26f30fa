/-
# TimeSeries.Proofs.Store.TimeOrder — samples in the order of time.

A store answers with the samples of its log in ascending order of time. Samples of one time come in
the order in which they were saved: whatever the time, those that have it stand in the log and in
the answer in one and the same order.
-/
import Mathlib
import TimeSeries.Point

namespace TimeSeries

namespace Nanos

theorem le_iff {a b : Nanos} : a ≤ b ↔ a.toInt ≤ b.toInt := Iff.rfl

theorem not_le_iff {a b : Nanos} : ¬ a ≤ b ↔ b < a := Int.not_le

end Nanos

variable {rows log : List Sample} {x : Sample}

/-- The samples of a log in ascending order of time, those of one time as they come in the log. -/
structure TimeOrder (rows log : List Sample) : Prop where
  perm : rows.Perm log
  ascending : rows.Pairwise fun a b => a.timestamp ≤ b.timestamp
  arrival : ∀ t, rows.filter (fun a => decide (a.timestamp = t)) =
    log.filter (fun a => decide (a.timestamp = t))

namespace TimeOrder

theorem nil : TimeOrder [] [] where
  perm := .nil
  ascending := .nil
  arrival _ := rfl

/-- Leaving out samples by a rule that looks at each of them alone keeps the order. -/
theorem filter (h : TimeOrder rows log) (p : Sample → Bool) :
    TimeOrder (rows.filter p) (log.filter p) where
  perm := h.perm.filter p
  ascending := h.ascending.filter p
  arrival t := by
    rw [List.filter_comm, h.arrival t, List.filter_comm]

/-- The samples up to the time of a new one, the new one, and the later ones. -/
def place (rows : List Sample) (x : Sample) : List Sample :=
  rows.filter (fun a => decide (a.timestamp ≤ x.timestamp)) ++
    x :: rows.filter (fun a => !decide (a.timestamp ≤ x.timestamp))

theorem perm_place (rows : List Sample) (x : Sample) : (place rows x).Perm (rows ++ [x]) := by
  have hparts := List.filter_append_perm (fun a => decide (a.timestamp ≤ x.timestamp)) rows
  rw [place]
  refine List.perm_middle.trans ?_
  exact (hparts.cons x).trans (List.perm_append_singleton x rows).symm

/-- A new sample goes behind all samples that are not later. -/
theorem ascending_place (h : rows.Pairwise fun a b => a.timestamp ≤ b.timestamp) :
    (place rows x).Pairwise fun a b => a.timestamp ≤ b.timestamp := by
  rw [place, List.pairwise_append, List.pairwise_cons]
  have hearly : ∀ a ∈ rows.filter (fun a => decide (a.timestamp ≤ x.timestamp)),
      a.timestamp.toInt ≤ x.timestamp.toInt := by
    intro a ha
    exact of_decide_eq_true (List.mem_filter.mp ha).2
  have hlate : ∀ a ∈ rows.filter (fun a => !decide (a.timestamp ≤ x.timestamp)),
      x.timestamp.toInt ≤ a.timestamp.toInt := by
    intro a ha
    have hnot := (List.mem_filter.mp ha).2
    rw [Bool.not_eq_true', decide_eq_false_iff_not, Nanos.not_le_iff] at hnot
    exact Int.le_of_lt hnot
  refine ⟨h.filter _, ⟨hlate, h.filter _⟩, fun a ha b hb => ?_⟩
  rcases List.mem_cons.mp hb with rfl | hb
  · exact hearly a ha
  · exact Int.le_trans (hearly a ha) (hlate b hb)

/-- Among the samples of its time a new one comes last; those of other times do not move. -/
theorem arrival_place (t : Nanos) :
    (place rows x).filter (fun a => decide (a.timestamp = t)) =
      (rows ++ [x]).filter (fun a => decide (a.timestamp = t)) := by
  rw [place, List.filter_append, List.filter_append, List.filter_cons, List.filter_cons,
    List.filter_nil, List.filter_filter, List.filter_filter]
  -- What has this time stands wholly on one side of the new sample.
  have hside : ∀ q : Bool → Bool, rows.filter
      (fun a => decide (a.timestamp = t) && q (decide (a.timestamp ≤ x.timestamp))) =
      rows.filter (fun a => decide (a.timestamp = t) && q (decide (t ≤ x.timestamp))) := by
    intro q
    refine List.filter_congr fun a _ => ?_
    by_cases ha : a.timestamp = t
    · rw [ha]
    · simp only [ha, decide_false, Bool.false_and]
  have hearly := hside id
  have hlate := hside not
  simp only [id] at hearly
  by_cases hle : t ≤ x.timestamp
  · rw [hearly, hlate]
    simp [hle]
  · have hne : ¬ x.timestamp = t := by
      rintro rfl
      exact hle (Int.le_refl _)
    rw [hearly, hlate]
    simp [hle, hne]

theorem insert (h : TimeOrder rows log) (x : Sample) : TimeOrder (place rows x) (log ++ [x]) where
  perm := (perm_place rows x).trans (h.perm.append_right [x])
  ascending := ascending_place h.ascending
  arrival t := by
    rw [arrival_place, List.filter_append, h.arrival t, ← List.filter_append]

/-- Changing samples in all but their times keeps the order. -/
theorem map (h : TimeOrder rows log) {f : Sample → Sample}
    (hf : ∀ a, (f a).timestamp = a.timestamp) : TimeOrder (rows.map f) (log.map f) where
  perm := h.perm.map f
  ascending := by
    rw [List.pairwise_map]
    simpa only [hf] using h.ascending
  arrival t := by
    have hcomp : (fun a => decide (a.timestamp = t)) ∘ f = fun a => decide (a.timestamp = t) := by
      funext a
      simp only [Function.comp_apply, hf]
    rw [List.filter_map, List.filter_map, hcomp, h.arrival t]

/-! ## There is one order only -/

/-- Of lists in ascending order the first samples have one time, and of these the first is told by
those of that time. -/
theorem eq_of_perm {rows' : List Sample} (hperm : rows.Perm rows')
    (h : rows.Pairwise fun a b => a.timestamp ≤ b.timestamp)
    (h' : rows'.Pairwise fun a b => a.timestamp ≤ b.timestamp)
    (hsame : ∀ t, rows.filter (fun a => decide (a.timestamp = t)) =
      rows'.filter (fun a => decide (a.timestamp = t))) : rows = rows' := by
  induction rows generalizing rows' with
  | nil => exact hperm.nil_eq
  | cons a rows ih =>
    cases rows' with
    | nil => exact absurd hperm.symm.nil_eq (List.cons_ne_nil _ _).symm
    | cons b rows' =>
      obtain ⟨ha, hrest⟩ := List.pairwise_cons.mp h
      obtain ⟨hb, hrest'⟩ := List.pairwise_cons.mp h'
      have hab : a.timestamp.toInt ≤ b.timestamp.toInt := by
        rcases List.mem_cons.mp (hperm.mem_iff.mpr List.mem_cons_self) with rfl | hmem
        · exact Int.le_refl _
        · exact ha b hmem
      have hba : b.timestamp.toInt ≤ a.timestamp.toInt := by
        rcases List.mem_cons.mp (hperm.mem_iff.mp List.mem_cons_self) with rfl | hmem
        · exact Int.le_refl _
        · exact hb a hmem
      have htime : b.timestamp = a.timestamp := Nanos.ext (Int.le_antisymm hba hab)
      have hfirst := hsame a.timestamp
      simp only [List.filter_cons, htime, decide_true, if_true] at hfirst
      obtain ⟨rfl, -⟩ := List.cons.inj hfirst
      refine congrArg (a :: ·) (ih hperm.cons_inv hrest hrest' fun t => ?_)
      have ht := hsame t
      rw [List.filter_cons, List.filter_cons] at ht
      split at ht
      · exact (List.cons.inj ht).2
      · exact ht

theorem unique {rows' : List Sample} (h : TimeOrder rows log) (h' : TimeOrder rows' log) :
    rows = rows' :=
  eq_of_perm (h.perm.trans h'.perm.symm) h.ascending h'.ascending fun t =>
    (h.arrival t).trans (h'.arrival t).symm

/-- A stable sort by time gives the order. -/
theorem mergeSort (log : List Sample) :
    TimeOrder (log.mergeSort fun a b => decide (a.timestamp ≤ b.timestamp)) log := by
  have htrans : ∀ a b c : Sample, decide (a.timestamp ≤ b.timestamp) = true →
      decide (b.timestamp ≤ c.timestamp) = true → decide (a.timestamp ≤ c.timestamp) = true := by
    intro a b c hab hbc
    rw [decide_eq_true_eq, Nanos.le_iff] at *
    omega
  have htotal : ∀ a b : Sample,
      (decide (a.timestamp ≤ b.timestamp) || decide (b.timestamp ≤ a.timestamp)) = true := by
    intro a b
    rw [Bool.or_eq_true, decide_eq_true_eq, decide_eq_true_eq, Nanos.le_iff, Nanos.le_iff]
    omega
  have hperm := List.mergeSort_perm log fun a b => decide (a.timestamp ≤ b.timestamp)
  refine ⟨hperm, ?_, fun t => ?_⟩
  · refine (List.pairwise_mergeSort htrans htotal log).imp fun {a b} hab => ?_
    exact of_decide_eq_true hab
  · -- Samples of one time are sorted as they come, so the sort keeps them in their order.
    have hsorted : (log.filter fun a => decide (a.timestamp = t)).Pairwise
        fun a b => decide (a.timestamp ≤ b.timestamp) = true := by
      refine List.pairwise_of_forall_mem_list fun a ha b hb => ?_
      have ha : a.timestamp = t := of_decide_eq_true (List.mem_filter.mp ha).2
      have hb : b.timestamp = t := of_decide_eq_true (List.mem_filter.mp hb).2
      rw [ha, hb, decide_eq_true_eq]
      exact Int.le_refl _
    have hsub := List.sublist_mergeSort htrans htotal hsorted List.filter_sublist
    have hsub := hsub.filter fun a => decide (a.timestamp = t)
    simp only [List.filter_filter, Bool.and_self] at hsub
    exact (hsub.eq_of_length (hperm.filter _).length_eq.symm).symm

theorem eq_mergeSort (h : TimeOrder rows log) :
    rows = log.mergeSort fun a b => decide (a.timestamp ≤ b.timestamp) :=
  h.unique (mergeSort log)

end TimeOrder
end TimeSeries
