/-
# TimeSeries.Proofs.Text.Reader — what a reader takes.

Each way of putting readers together has a lemma that tells what the whole takes from what its
parts take, so what a reader takes is found by following how it is built.
-/
import Mathlib
import TimeSeries.Text.Reader

namespace TimeSeries.Text.Reader

variable {α β : Type} {p q : Reader α} {s r r' : List Char} {a : α} {b : β}

/-- The reader takes a value from the start of a text and leaves the rest. -/
def Takes (p : Reader α) (s : List Char) (a : α) (r : List Char) : Prop :=
  ∃ h, p s = some (a, ⟨r, h⟩)

theorem takes_pure (a : α) (s : List Char) : Takes (pure a) s a s := ⟨Nat.le_refl _, rfl⟩

theorem Takes.bind {f : α → Reader β} (h : Takes p s a r) (hf : Takes (f a) r b r') :
    Takes (p >>= f) s b r' := by
  obtain ⟨hle, hp⟩ := h
  obtain ⟨hle', hf⟩ := hf
  refine ⟨Nat.le_trans hle' hle, ?_⟩
  simp only [Bind.bind, hp, hf]

theorem Takes.or (h : Takes p s a r) : Takes (p.or q) s a r := by
  obtain ⟨hle, hp⟩ := h
  exact ⟨hle, by rw [Reader.or, hp]; rfl⟩

theorem takes_or_of_refuses (h : p s = none) (hq : Takes q s a r) : Takes (p.or q) s a r := by
  obtain ⟨hle, hq⟩ := hq
  exact ⟨hle, by rw [Reader.or, h, hq]; rfl⟩

theorem takes_oneOf {f : Char → Bool} {c : Char} (h : f c = true) :
    Takes (oneOf f) (c :: s) c s := by
  refine ⟨by simp, ?_⟩
  rw [oneOf, if_pos h]

theorem takes_skip (c : Char) (s : List Char) : Takes (skip c) (c :: s) () s := by
  have h : Takes (oneOf (· == c)) (c :: s) c s := takes_oneOf (beq_self_eq_true c)
  exact h.bind (takes_pure () s)

/-- A reader that takes each of some texts takes them one after the other, up to where it refuses. -/
theorem takes_many {text : α → List Char} {as : List α}
    (has : ∀ a ∈ as, text a ≠ [] ∧ ∀ s, Takes p (text a ++ s) a s) (hr : p r = none) :
    Takes (many p) (as.flatMap text ++ r) as r := by
  suffices h : ∀ s, s = as.flatMap text ++ r → ∃ h, manyFrom p s = (as, ⟨r, h⟩) by
    obtain ⟨hle, h⟩ := h _ rfl
    exact ⟨hle, by rw [many, h]⟩
  induction as with
  | nil =>
    intro s hs
    obtain rfl : s = r := hs
    refine ⟨Nat.le_refl _, ?_⟩
    rw [manyFrom]
    simp only [hr]
  | cons a as ih =>
    intro s hs
    obtain ⟨hne, htakes⟩ := has a List.mem_cons_self
    obtain ⟨hle, hp⟩ := htakes (as.flatMap text ++ r)
    obtain ⟨hle', hrest⟩ := ih (fun b hb => has b (List.mem_cons_of_mem a hb)) _ rfl
    obtain rfl : s = text a ++ (as.flatMap text ++ r) := by
      rw [hs, List.flatMap_cons, List.append_assoc]
    have hlt : (as.flatMap text ++ r).length < (text a ++ (as.flatMap text ++ r)).length := by
      have hpos := List.length_pos_iff.mpr hne
      simp only [List.length_append] at hpos ⊢
      omega
    refine ⟨Nat.le_trans hle' hle, ?_⟩
    rw [manyFrom]
    simp only [hp, hlt, dif_pos, hrest]

/-- A reader takes texts with a separator between them. -/
theorem takes_separated {separator : Reader Unit} {mark : List Char} {text : α → List Char}
    {a : α} {as : List α} (has : ∀ b ∈ a :: as, ∀ s, Takes p (text b ++ s) b s)
    (hmark : mark ≠ []) (hseparator : ∀ s, Takes separator (mark ++ s) () s)
    (hr : separator r = none) :
    Takes (separated p separator)
      (text a ++ (as.flatMap fun b => mark ++ text b) ++ r) (a :: as) r := by
  have hmany : Takes (many (do separator; p)) ((as.flatMap fun b => mark ++ text b) ++ r) as r := by
    refine takes_many (fun b hb => ⟨?_, fun s => ?_⟩) ?_
    · exact fun h => hmark (List.append_eq_nil_iff.mp h).1
    · rw [List.append_assoc]
      exact (hseparator _).bind (has b (List.mem_cons_of_mem a hb) s)
    · simp only [Bind.bind, hr]
  rw [List.append_assoc]
  exact (has a List.mem_cons_self _).bind (hmany.bind (takes_pure _ _))

theorem Takes.read? (h : Takes p s a []) : read? p s = some a := by
  obtain ⟨hle, h⟩ := h
  rw [Reader.read?, h]

end TimeSeries.Text.Reader
