/-
# TimeSeries.Proofs.Store.Interleaving — two sequences of saves in one store.

Saves of two sequences may come in any order that keeps each sequence in its own. Whatever it is,
the store holds all samples of both (`Refines.holdsBoth`). Its answers depend on that order only
where the two have samples of one measurement and one time, for a store does not tell in which order
samples of other times were saved (`Refines.of_alike`).
-/
import TimeSeries.Proofs.Store.Replies
import TimeSeries.Query.Session

namespace TimeSeries

/-! ## Interleavings -/

/-- The third list is made of the elements of the other two, each of them in its order. -/
inductive Interleaves {α : Type} : List α → List α → List α → Prop
  | nil : Interleaves [] [] []
  | left {x : α} {xs ys zs : List α} : Interleaves xs ys zs → Interleaves (x :: xs) ys (x :: zs)
  | right {y : α} {xs ys zs : List α} : Interleaves xs ys zs → Interleaves xs (y :: ys) (y :: zs)

namespace Interleaves

variable {α : Type} {xs ys zs : List α}

theorem append_left (h : Interleaves xs ys zs) (ws : List α) :
    Interleaves (ws ++ xs) ys (ws ++ zs) := by
  induction ws with
  | nil => exact h
  | cons w ws ih => exact .left ih

theorem append_right (h : Interleaves xs ys zs) (ws : List α) :
    Interleaves xs (ws ++ ys) (ws ++ zs) := by
  induction ws with
  | nil => exact h
  | cons w ws ih => exact .right ih

/-- One list and then the other. -/
theorem append (xs ys : List α) : Interleaves xs ys (xs ++ ys) := by
  have hys : Interleaves [] (ys ++ []) (ys ++ []) := Interleaves.nil.append_right ys
  rw [List.append_nil] at hys
  have h := hys.append_left xs
  rwa [List.append_nil] at h

theorem perm (h : Interleaves xs ys zs) : zs.Perm (xs ++ ys) := by
  induction h with
  | nil => exact .nil
  | left _ ih => exact ih.cons _
  | right _ ih => exact (ih.cons _).trans List.perm_middle.symm

theorem filter (h : Interleaves xs ys zs) (p : α → Bool) :
    Interleaves (xs.filter p) (ys.filter p) (zs.filter p) := by
  induction h with
  | nil => exact .nil
  | @left x xs ys zs _ ih =>
    by_cases hx : p x = true
    · rw [List.filter_cons_of_pos hx, List.filter_cons_of_pos hx]
      exact .left ih
    · rwa [List.filter_cons_of_neg hx, List.filter_cons_of_neg hx]
  | @right y xs ys zs _ ih =>
    by_cases hy : p y = true
    · rw [List.filter_cons_of_pos hy, List.filter_cons_of_pos hy]
      exact .right ih
    · rwa [List.filter_cons_of_neg hy, List.filter_cons_of_neg hy]

/-- Where one list is empty there is no choice. -/
theorem eq_append (h : Interleaves xs ys zs) (hnil : xs = [] ∨ ys = []) : zs = xs ++ ys := by
  induction h with
  | nil => rfl
  | left _ ih =>
    have hys := hnil.resolve_left (List.cons_ne_nil _ _)
    rw [ih (.inr hys), List.cons_append]
  | right _ ih =>
    have hxs := hnil.resolve_right (List.cons_ne_nil _ _)
    rw [ih (.inl hxs), hxs, List.nil_append, List.nil_append]

end Interleaves

/-! ## Logs that are alike -/

/-- The sample is of a measurement and a time. -/
def Sample.isAt (m : String) (t : Nanos) (x : Sample) : Bool :=
  decide (x.measurement = m ∧ x.timestamp = t)

/-- The samples of each measurement and time come in one order. -/
def Alike (log log' : List Sample) : Prop :=
  ∀ m t, log.filter (Sample.isAt m t) = log'.filter (Sample.isAt m t)

namespace Alike

variable {log log' xs ys zs : List Sample}

theorem perm (h : Alike log log') : log.Perm log' := by
  classical
  rw [List.perm_iff_count]
  intro x
  have hx : Sample.isAt x.measurement x.timestamp x = true := decide_eq_true ⟨rfl, rfl⟩
  rw [← List.count_filter hx, h x.measurement x.timestamp, List.count_filter hx]

/-- Two sequences without a measurement and a time in common may be interleaved in any way. -/
theorem append_interleaving (log : List Sample) (h : Interleaves xs ys zs)
    (hdisjoint : ∀ x ∈ xs, ∀ y ∈ ys,
      ¬ (x.measurement = y.measurement ∧ x.timestamp = y.timestamp)) :
    Alike (log ++ zs) (log ++ (xs ++ ys)) := by
  intro m t
  have hnil : xs.filter (Sample.isAt m t) = [] ∨ ys.filter (Sample.isAt m t) = [] := by
    by_contra hboth
    obtain ⟨hxs, hys⟩ := not_or.mp hboth
    obtain ⟨x, hx⟩ := List.exists_mem_of_ne_nil _ hxs
    obtain ⟨y, hy⟩ := List.exists_mem_of_ne_nil _ hys
    obtain ⟨hx, hxat⟩ := List.mem_filter.mp hx
    obtain ⟨hy, hyat⟩ := List.mem_filter.mp hy
    obtain ⟨hxm, hxt⟩ := of_decide_eq_true hxat
    obtain ⟨hym, hyt⟩ := of_decide_eq_true hyat
    exact hdisjoint x hx y hy ⟨hxm.trans hym.symm, hxt.trans hyt.symm⟩
  rw [List.filter_append, List.filter_append, List.filter_append, (h.filter _).eq_append hnil]

end Alike

/-- Of the samples of a measurement, those of a time. -/
theorem filter_filter_isAt (log : List Sample) (m : String) (t : Nanos) :
    (log.filter fun x => decide (x.measurement = m)).filter (fun x => decide (x.timestamp = t)) =
      log.filter (Sample.isAt m t) := by
  rw [List.filter_filter]
  refine List.filter_congr fun x _ => ?_
  rw [Sample.isAt, Bool.decide_and, Bool.and_comm]

/-! ## What a store holds of two sequences -/

namespace SeriesStore

variable {s s' : SeriesStore} {log log' xs ys zs : List Sample}

/-- A store that held a log holds it and all samples of two sequences of saves. Each is there once,
every series is in ascending order of time, and at one time the samples of the log come first and
then those of the two, each sequence in its order. -/
structure HoldsBoth (log xs ys : List Sample) (s : SeriesStore) : Prop where
  size_eq : s.size = log.length + xs.length + ys.length
  series : ∀ m, ∃ rows, List.Forall₂ Point.Shows (s.points m).toList rows ∧
    rows.Perm ((log ++ (xs ++ ys)).filter fun x => decide (x.measurement = m)) ∧
    (rows.Pairwise fun a b => a.timestamp ≤ b.timestamp) ∧
    ∀ t, ∃ merged, Interleaves (xs.filter (Sample.isAt m t)) (ys.filter (Sample.isAt m t)) merged ∧
      rows.filter (fun x => decide (x.timestamp = t)) = log.filter (Sample.isAt m t) ++ merged

theorem Refines.holdsBoth (h : Refines s (log ++ zs)) (hzs : Interleaves xs ys zs) :
    HoldsBoth log xs ys s where
  size_eq := by
    rw [h.size_eq, List.length_append, hzs.perm.length_eq, List.length_append, Nat.add_assoc]
  series m := by
    obtain ⟨rows, horder, hpoints⟩ := h.points m
    refine ⟨rows, ?_, horder.perm.trans ((hzs.perm.append_left log).filter _), horder.ascending,
      fun t => ⟨zs.filter (Sample.isAt m t), hzs.filter _, ?_⟩⟩
    · rw [hpoints, List.forall₂_map_left_iff, List.forall₂_same]
      exact fun x _ => x.shows_point
    · rw [horder.arrival t, filter_filter_isAt, List.filter_append]

/-- A store does not tell logs apart that are alike. -/
theorem Refines.of_alike (h : Refines s log) (halike : Alike log log') : Refines s log' where
  points m := by
    obtain ⟨rows, horder, hpoints⟩ := h.points m
    have hperm := horder.perm.trans (halike.perm.filter _)
    refine ⟨rows, ⟨hperm, horder.ascending, fun t => ?_⟩, hpoints⟩
    rw [horder.arrival t, filter_filter_isAt, filter_filter_isAt, halike m t]
  mem_series m := by
    rw [h.mem_series m]
    constructor
    · rintro ⟨x, hx, hm⟩
      exact ⟨x, halike.perm.mem_iff.mp hx, hm⟩
    · rintro ⟨x, hx, hm⟩
      exact ⟨x, halike.perm.mem_iff.mpr hx, hm⟩

/-! ## Answers -/

/-- Two stores give the same answers from now on: to requests, saves among them, and to statements,
also after further saves in both. -/
structure SameAnswers (s s' : SeriesStore) : Prop where
  replies_eq : ∀ rs, replies PointStore.serve s rs = replies PointStore.serve s' rs
  execute_eq : ∀ later session statement,
    Query.Session.execute (PointStore.saveAll s later) session statement =
      Query.Session.execute (PointStore.saveAll s' later) session statement

theorem Refines.execute_eq (h : Refines s log) (session : Query.Session)
    (statement : Query.Statement) :
    Query.Session.execute s session statement =
      Query.Session.execute (Log.mk log) session statement := by
  have h : Refines s (Log.mk log).samples := h
  cases statement with
  | select q =>
    rw [Query.Session.execute, Query.Session.execute, Query.Session.select, Query.Session.select,
      h.range_eq]
  | showMeasurements =>
    rw [Query.Session.execute, Query.Session.execute, h.measurements_eq]
  | showDatabases => rfl
  | createDatabase name => rfl
  | use database => rfl

/-- Stores that hold one log give the same answers. -/
theorem Refines.sameAnswers (h : Refines s log) (h' : Refines s' log) : SameAnswers s s' where
  replies_eq rs := by
    have h : Refines s (Log.mk log).samples := h
    have h' : Refines s' (Log.mk log).samples := h'
    rw [h.replies_eq, h'.replies_eq]
  execute_eq later session statement :=
    ((h.saveAll later).execute_eq session statement).trans
      ((h'.saveAll later).execute_eq session statement).symm

end SeriesStore
end TimeSeries
