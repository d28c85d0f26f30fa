/-
# TimeSeries.Proofs.Store.Halving — the place that a search by halving finds.

Where the elements that pass a test come first, the search finds how many they are. Every step keeps
a bracket around that place: what stands before it passes, and what stands from its end on fails.
-/
import Mathlib
import TimeSeries.Store.Series

namespace TimeSeries

variable {α : Type} {xs : Array α} {l : List α} {p q : α → Bool} {lo hi mid : Nat}

/-! ## Elements that pass first -/

/-- Elements that pass come first. -/
def PassFirst (p : α → Bool) (l : List α) : Prop := l.Pairwise fun a b => p b = true → p a = true

theorem PassFirst.tail {a : α} (h : PassFirst p (a :: l)) : PassFirst p l :=
  (List.pairwise_cons.mp h).2

/-- Behind an element that fails, all fail. -/
theorem PassFirst.filter_eq_nil {a : α} (h : PassFirst p (a :: l)) (ha : p a ≠ true) :
    l.filter p = [] := by
  rw [List.filter_eq_nil_iff]
  intro b hb hpass
  exact ha ((List.pairwise_cons.mp h).1 b hb hpass)

/-- The elements that pass are the first so many. -/
theorem PassFirst.take_countP (h : PassFirst p l) : l.take (l.countP p) = l.filter p := by
  induction l with
  | nil => rfl
  | cons a l ih =>
    by_cases ha : p a = true
    · rw [List.countP_cons_of_pos ha, List.take_succ_cons, List.filter_cons_of_pos ha, ih h.tail]
    · have hnil := h.filter_eq_nil ha
      rw [List.countP_cons_of_neg ha, List.filter_cons_of_neg ha, hnil,
        List.countP_eq_length_filter, hnil]
      rfl

/-- The elements that fail are all the others. -/
theorem PassFirst.drop_countP (h : PassFirst p l) : l.drop (l.countP p) = l.filter (!p ·) := by
  induction l with
  | nil => rfl
  | cons a l ih =>
    by_cases ha : p a = true
    · rw [List.countP_cons_of_pos ha, List.drop_succ_cons, List.filter_cons_of_neg (by simp [ha]),
        ih h.tail]
    · have hnil := h.filter_eq_nil ha
      have hall : (a :: l).filter (!p ·) = a :: l := by
        rw [List.filter_eq_self]
        intro b hb
        rcases List.mem_cons.mp hb with rfl | hb
        · simp [ha]
        · have hfail := List.filter_eq_nil_iff.mp hnil b hb
          simp [hfail]
      rw [hall, List.countP_cons_of_neg ha, List.countP_eq_length_filter, hnil]
      rfl

theorem PassFirst.getElem (h : PassFirst p xs.toList) {i j : Nat} (hij : i ≤ j) (hj : j < xs.size)
    (hpass : p xs[j] = true) : p xs[i] = true := by
  rcases Nat.lt_or_eq_of_le hij with hlt | rfl
  · exact List.pairwise_iff_getElem.mp h i j (Nat.lt_trans hlt hj) hj hlt hpass
  · exact hpass

/-! ## The bracket -/

/-- What stands before `lo` passes, and what stands at `hi` or behind it fails. -/
structure Bracket (xs : Array α) (p : α → Bool) (lo hi : Nat) : Prop where
  before : ∀ i (h : i < xs.size), i < lo → p xs[i] = true
  behind : ∀ i (h : i < xs.size), hi ≤ i → p xs[i] = false

/-- A middle that passes moves the lower end behind itself. -/
theorem Bracket.raise (h : Bracket xs p lo hi) (hp : PassFirst p xs.toList) (hmid : mid < xs.size)
    (hpass : p xs[mid] = true) : Bracket xs p (mid + 1) hi where
  before _ _ hlt := hp.getElem (Nat.le_of_lt_succ hlt) hmid hpass
  behind := h.behind

/-- A middle that fails moves the upper end to itself. -/
theorem Bracket.lower (h : Bracket xs p lo hi) (hp : PassFirst p xs.toList) (hmid : mid < xs.size)
    (hfail : p xs[mid] ≠ true) : Bracket xs p lo mid where
  before := h.before
  behind i hi hle := by
    rw [Bool.eq_false_iff]
    intro hpass
    exact hfail (hp.getElem hle hi hpass)

/-- The search ends where both ends of its bracket meet. -/
theorem Bracket.partitionBetween (hp : PassFirst p xs.toList) (hle : lo ≤ hi) (hsize : hi ≤ xs.size)
    (h : Bracket xs p lo hi) :
    TimeSeries.partitionBetween xs p lo hi hsize ≤ xs.size ∧
      Bracket xs p (TimeSeries.partitionBetween xs p lo hi hsize)
        (TimeSeries.partitionBetween xs p lo hi hsize) := by
  fun_induction TimeSeries.partitionBetween xs p lo hi hsize with
  | case1 lo hi hsize hlt mid hmid hpass ih =>
    exact ih (by omega) (h.raise hp hmid hpass)
  | case2 lo hi hsize hlt mid hmid hfail ih =>
    exact ih (by omega) (h.lower hp hmid hfail)
  | case3 lo hi hsize hlt =>
    obtain rfl : lo = hi := by omega
    exact ⟨hsize, h⟩

/-- Whatever the order, the search stays between its ends. -/
theorem partitionBetween_le (p : α → Bool) (hle : lo ≤ hi) (hsize : hi ≤ xs.size) :
    partitionBetween xs p lo hi hsize ≤ hi := by
  fun_induction partitionBetween xs p lo hi hsize with
  | case1 lo hi hsize hlt mid hmid hpass ih => exact ih (by omega)
  | case2 lo hi hsize hlt mid hmid hfail ih => exact (ih (by omega)).trans (by omega)
  | case3 lo hi hsize hlt => exact hle

theorem partitionPoint_le_size (xs : Array α) (p : α → Bool) : partitionPoint xs p ≤ xs.size :=
  partitionBetween_le p (Nat.zero_le _) (Nat.le_refl _)

/-- Where the elements that pass come first, the search finds how many they are. -/
theorem partitionPoint_eq_countP (hp : PassFirst p xs.toList) :
    partitionPoint xs p = xs.toList.countP p := by
  have hstart : Bracket xs p 0 xs.size := by
    refine ⟨fun i _ hlt => absurd hlt (Nat.not_lt_zero i), fun i hi hle => ?_⟩
    exact absurd hi (Nat.not_lt_of_le hle)
  obtain ⟨hk, hbracket⟩ := hstart.partitionBetween hp (Nat.zero_le _) (Nat.le_refl _)
  show partitionBetween xs p 0 xs.size (Nat.le_refl _) = _
  generalize partitionBetween xs p 0 xs.size (Nat.le_refl _) = k at hk hbracket
  -- All before the place pass, and none behind it.
  have htake : (xs.toList.take k).countP p = k := by
    have hall : ∀ x ∈ xs.toList.take k, p x = true := by
      intro x hx
      obtain ⟨i, hi, rfl⟩ := List.mem_take_iff_getElem.mp hx
      rw [Array.length_toList] at hi
      exact hbracket.before i (by omega) (by omega)
    rw [List.countP_eq_length.mpr hall, List.length_take, Array.length_toList]
    omega
  have hdrop : (xs.toList.drop k).countP p = 0 := by
    rw [List.countP_eq_zero]
    intro x hx
    obtain ⟨i, hi, rfl⟩ := List.mem_drop_iff_getElem.mp hx
    rw [Array.length_toList] at hi
    have hfail := hbracket.behind (k + i) (by omega) (Nat.le_add_right k i)
    exact Bool.eq_false_iff.mp hfail
  rw [← List.take_append_drop k xs.toList, List.countP_append, htake, hdrop, Nat.add_zero]

end TimeSeries
