/-
# TimeSeries.Proofs.Text.Trim — what trimming keeps and what it drops.

Trimming leaves a text with no blank at its ends, and changes nothing exactly when there was none
(`trim_eq_self_iff`). Statements about ends are put with `head?` and `getLast?`, so that the empty
text needs no case of its own.
-/
import Mathlib
import TimeSeries.Text.Blank

namespace TimeSeries.Text

variable {s t : List Char}

/-! ## Where a run ends -/

/-- A run of a class ends where the text does or at the first character outside the class. -/
theorem span_eq_iff {p : Char → Bool} {rest : List Char} :
    (s.takeWhile p = t ∧ s.dropWhile p = rest) ↔
      s = t ++ rest ∧ (∀ x ∈ t, p x = true) ∧ ∀ x ∈ rest.head?, p x = false := by
  constructor
  · rintro ⟨rfl, rfl⟩
    refine ⟨List.takeWhile_append_dropWhile.symm, fun _ => List.mem_takeWhile_imp, ?_⟩
    intro x hx
    have h := List.head?_dropWhile_not p s
    rw [Option.mem_def.mp hx] at h
    exact h
  · rintro ⟨rfl, ht, hrest⟩
    rw [List.takeWhile_append_of_pos ht, List.dropWhile_append_of_pos ht]
    cases rest with
    | nil => simp
    | cons x rest =>
      have hx : ¬ p x = true := by simp [hrest x rfl]
      rw [List.takeWhile_cons_of_neg hx, List.dropWhile_cons_of_neg hx]
      simp

/-! ## Ends -/

/-- The text does not start with a blank. -/
def StartsSolid (s : List Char) : Prop := ∀ c ∈ s.head?, isBlank c = false

/-- The text does not end with a blank. -/
def EndsSolid (s : List Char) : Prop := ∀ c ∈ s.getLast?, isBlank c = false

theorem startsSolid_append (hs : s ≠ []) : StartsSolid (s ++ t) ↔ StartsSolid s := by
  obtain ⟨c, s, rfl⟩ := List.exists_cons_of_ne_nil hs
  rfl

theorem endsSolid_append (ht : t ≠ []) : EndsSolid (s ++ t) ↔ EndsSolid t := by
  rw [EndsSolid, EndsSolid, List.getLast?_append_of_ne_nil s ht]

theorem endsSolid_cons {c : Char} (hs : s ≠ []) : EndsSolid (c :: s) ↔ EndsSolid s :=
  endsSolid_append (s := [c]) hs

theorem EndsSolid.of_suffix (h : EndsSolid s) (ht : t <:+ s) : EndsSolid t := by
  obtain ⟨front, rfl⟩ := ht
  obtain rfl | hne := eq_or_ne t []
  · simp [EndsSolid]
  · exact (endsSolid_append hne).mp h

theorem startsSolid_dropWhile (s : List Char) : StartsSolid (s.dropWhile isBlank) := by
  intro c hc
  have h := List.head?_dropWhile_not isBlank s
  rw [Option.mem_def.mp hc] at h
  exact h

theorem dropWhile_eq_self_of_startsSolid (h : StartsSolid s) : s.dropWhile isBlank = s := by
  cases s with
  | nil => rfl
  | cons c s => exact List.dropWhile_cons_of_neg (by simp [h c rfl])

theorem dropWhile_append_of_startsSolid (ht : StartsSolid t) (s : List Char) :
    (s ++ t).dropWhile isBlank = s.dropWhile isBlank ++ t := by
  rw [List.dropWhile_append]
  split
  · rename_i hempty
    rw [List.isEmpty_iff.mp hempty, List.nil_append, dropWhile_eq_self_of_startsSolid ht]
  · rfl

/-! ## Stripping the end -/

/-- No character of the class is left at the end. -/
theorem getLast?_stripEnd (p : Char → Bool) (s : List Char) :
    ∀ c ∈ (stripEnd p s).getLast?, p c = false := by
  intro c hc
  rw [stripEnd, List.getLast?_reverse] at hc
  have h := List.head?_dropWhile_not p s.reverse
  rw [Option.mem_def.mp hc] at h
  exact h

theorem endsSolid_stripEnd (s : List Char) : EndsSolid (stripEnd isBlank s) :=
  getLast?_stripEnd isBlank s

theorem stripEnd_isPrefix (p : Char → Bool) (s : List Char) : stripEnd p s <+: s :=
  List.rdropWhile_prefix p s

/-- Only characters of the class are stripped. -/
theorem exists_stripEnd_append (p : Char → Bool) (s : List Char) :
    ∃ r, (∀ c ∈ r, p c = true) ∧ stripEnd p s ++ r = s := by
  refine ⟨(s.reverse.takeWhile p).reverse, fun c hc => ?_, ?_⟩
  · exact List.mem_takeWhile_imp (List.mem_reverse.mp hc)
  · rw [stripEnd, ← List.reverse_append, List.takeWhile_append_dropWhile, List.reverse_reverse]

theorem stripEnd_eq_self_of_endsSolid (h : EndsSolid s) : stripEnd isBlank s = s := by
  rw [stripEnd, dropWhile_eq_self_of_startsSolid, List.reverse_reverse]
  intro c hc
  rw [List.head?_reverse] at hc
  exact h c hc

/-- A text that ends with no blank is stripped only in what follows it. -/
theorem stripEnd_append (hs : s ≠ []) (h : EndsSolid s) (t : List Char) :
    stripEnd isBlank (s ++ t) = s ++ stripEnd isBlank t := by
  have hne : s.reverse ≠ [] := by simpa using hs
  have hsolid : StartsSolid s.reverse := by
    intro c hc
    rw [List.head?_reverse] at hc
    exact h c hc
  have hdrop : s.reverse.dropWhile isBlank = s.reverse := dropWhile_eq_self_of_startsSolid hsolid
  rw [stripEnd, stripEnd, List.reverse_append, List.dropWhile_append]
  split
  · rename_i hempty
    rw [List.isEmpty_iff.mp hempty, hdrop]
    simp
  · rw [List.reverse_append, List.reverse_reverse]

/-! ## Stripping characters around a text -/

variable {p : Char → Bool} {l r : List Char}

theorem dropWhile_append_of_head? (hl : ∀ c ∈ l, p c = true) (hs : ∀ c ∈ s.head?, p c = false) :
    (l ++ s).dropWhile p = s := by
  rw [List.dropWhile_append_of_pos hl]
  cases s with
  | nil => rfl
  | cons c s => exact List.dropWhile_cons_of_neg (by simp [hs c rfl])

theorem stripEnd_append_of_getLast? (hr : ∀ c ∈ r, p c = true)
    (hs : ∀ c ∈ s.getLast?, p c = false) : stripEnd p (s ++ r) = s := by
  rw [stripEnd, List.reverse_append, dropWhile_append_of_head?, List.reverse_reverse]
  · exact fun c hc => hr c (List.mem_reverse.mp hc)
  · intro c hc
    rw [List.head?_reverse] at hc
    exact hs c hc

/-- What stands between characters of a class is left, if it has none of them at its ends. -/
theorem strip_append_append (hl : ∀ c ∈ l, p c = true) (hr : ∀ c ∈ r, p c = true) (hne : s ≠ [])
    (hstart : ∀ c ∈ s.head?, p c = false) (hend : ∀ c ∈ s.getLast?, p c = false) :
    strip p (l ++ s ++ r) = s := by
  have hhead : ∀ c ∈ (s ++ r).head?, p c = false := by
    rwa [List.head?_append_of_ne_nil s hne]
  rw [strip, List.append_assoc, dropWhile_append_of_head? hl hhead,
    stripEnd_append_of_getLast? hr hend]

/-- No character of the class is left at the start. -/
theorem head?_strip (p : Char → Bool) (s : List Char) : ∀ c ∈ (strip p s).head?, p c = false := by
  intro c hc
  -- Stripping the end leaves the start alone, unless nothing is left.
  have hprefix : strip p s <+: s.dropWhile p := stripEnd_isPrefix p _
  obtain ⟨rest, hrest⟩ := hprefix
  have hne : strip p s ≠ [] := by
    rintro h
    rw [h] at hc
    cases hc
  have h := List.head?_dropWhile_not p s
  rw [← hrest, List.head?_append_of_ne_nil _ hne, Option.mem_def.mp hc] at h
  exact h

/-- A character outside the class is left. -/
theorem mem_strip {c : Char} (hc : c ∈ s) (hp : p c = false) : c ∈ strip p s := by
  rw [← List.takeWhile_append_dropWhile (p := p) (l := s)] at hc
  obtain ⟨r, hr, hs⟩ := exists_stripEnd_append p (s.dropWhile p)
  rw [← hs, List.mem_append, List.mem_append] at hc
  rcases hc with hc | hc | hc
  · rw [List.mem_takeWhile_imp hc] at hp
    cases hp
  · exact hc
  · rw [hr c hc] at hp
    cases hp

/-- What is left stands somewhere in the text. -/
theorem strip_isInfix (p : Char → Bool) (s : List Char) : strip p s <:+: s :=
  (stripEnd_isPrefix p _).isInfix.trans (List.dropWhile_suffix p).isInfix

/-! ## Trimming -/

theorem trim_eq (s : List Char) : trim s = stripEnd isBlank (s.dropWhile isBlank) := rfl

theorem endsSolid_trim (s : List Char) : EndsSolid (trim s) := endsSolid_stripEnd _

theorem startsSolid_trim (s : List Char) : StartsSolid (trim s) := head?_strip isBlank s

/-- Trimming changes nothing exactly when neither end is a blank. -/
theorem trim_eq_self_iff : trim s = s ↔ StartsSolid s ∧ EndsSolid s := by
  constructor
  · intro h
    rw [← h]
    exact ⟨startsSolid_trim s, endsSolid_trim s⟩
  · rintro ⟨hs, he⟩
    rw [trim_eq, dropWhile_eq_self_of_startsSolid hs, stripEnd_eq_self_of_endsSolid he]

@[simp] theorem trim_trim (s : List Char) : trim (trim s) = trim s :=
  trim_eq_self_iff.mpr ⟨startsSolid_trim s, endsSolid_trim s⟩

theorem trim_eq_dropWhile (h : EndsSolid s) : trim s = s.dropWhile isBlank := by
  rw [trim_eq]
  exact stripEnd_eq_self_of_endsSolid (h.of_suffix (List.dropWhile_suffix _))

theorem trim_append (hs : s ≠ []) (hstart : StartsSolid s) (hend : EndsSolid s) (t : List Char) :
    trim (s ++ t) = s ++ stripEnd isBlank t := by
  rw [trim_eq, dropWhile_eq_self_of_startsSolid ((startsSolid_append hs).mpr hstart),
    stripEnd_append hs hend]

theorem trim_append_append (hl : ∀ c ∈ l, isBlank c = true) (hr : ∀ c ∈ r, isBlank c = true)
    (hne : s ≠ []) (hstart : StartsSolid s) (hend : EndsSolid s) : trim (l ++ s ++ r) = s :=
  strip_append_append hl hr hne hstart hend

theorem trim_sublist (s : List Char) : (trim s).Sublist s := (strip_isInfix isBlank s).sublist

theorem firstWord_isInfix (s : List Char) : firstWord s <:+: s :=
  (List.takeWhile_prefix _).isInfix.trans (List.dropWhile_suffix _).isInfix

/-- Blanks behind a text are trimmed away with its own. -/
theorem trim_append_of_isBlank (hr : ∀ c ∈ r, isBlank c = true) : trim (s ++ r) = trim s := by
  rw [trim_eq, trim_eq, List.dropWhile_append]
  have hreverse : ∀ c ∈ r.reverse, isBlank c = true := fun c hc => hr c (List.mem_reverse.mp hc)
  split
  · rename_i hempty
    rw [List.isEmpty_iff.mp hempty, List.dropWhile_eq_nil_iff.mpr hr]
  · rw [stripEnd, stripEnd, List.reverse_append, List.dropWhile_append_of_pos hreverse]

/-- Blanks before a text are trimmed away with its own. -/
theorem trim_blank_append (hl : ∀ c ∈ l, isBlank c = true) (s : List Char) :
    trim (l ++ s) = trim s := by
  rw [trim_eq, trim_eq, List.dropWhile_append_of_pos hl]

theorem trim_eq_nil (hs : ∀ c ∈ s, isBlank c = true) : trim s = [] := by
  rw [trim_eq, List.dropWhile_eq_nil_iff.mpr hs]
  rfl

theorem length_trim_le (s : List Char) : (trim s).length ≤ s.length := (trim_sublist s).length_le

theorem trim_eq_self_of_length_le (h : s.length ≤ (trim s).length) : trim s = s :=
  (trim_sublist s).eq_of_length_le h

end TimeSeries.Text
