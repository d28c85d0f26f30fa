/-
# TimeSeries.Proofs.Outcome — taking apart computations that may fail.

A chain of steps succeeds exactly when every step does, each on what the steps before it gave. With
the equivalences below a proof reads off the results of the steps and never opens the chain. Steps
on all elements of a list give a second list, element by element beside the first.
-/
import Mathlib

namespace TimeSeries.Outcome

variable {ε α β : Type}

theorem bind_eq_ok_iff {x : Except ε α} {f : α → Except ε β} {b : β} :
    x >>= f = .ok b ↔ ∃ a, x = .ok a ∧ f a = .ok b := by
  cases x with
  | error e =>
    constructor
    · intro h
      cases h
    · rintro ⟨a, ha, -⟩
      cases ha
  | ok a =>
    constructor
    · intro h
      exact ⟨a, rfl, h⟩
    · rintro ⟨a', ha, h⟩
      cases ha
      exact h

/-- A chain of two steps fails in the first one, or in the second on what the first gave. -/
theorem bind_eq_error_iff {x : Except ε α} {f : α → Except ε β} {e : ε} :
    x >>= f = .error e ↔ x = .error e ∨ ∃ a, x = .ok a ∧ f a = .error e := by
  cases x with
  | error e' =>
    constructor
    · intro h
      cases h
      exact .inl rfl
    · rintro (h | ⟨a, ha, -⟩)
      · cases h
        rfl
      · cases ha
  | ok a =>
    constructor
    · intro h
      exact .inr ⟨a, rfl, h⟩
    · rintro (h | ⟨a', ha, h⟩)
      · cases h
      · cases ha
        exact h

theorem toOption_eq_some_iff {x : Except ε α} {a : α} : x.toOption = some a ↔ x = .ok a := by
  cases x with
  | error e =>
    constructor
    · intro h
      cases h
    · intro h
      cases h
  | ok b =>
    constructor
    · intro h
      exact congrArg Except.ok (Option.some.inj h)
    · intro h
      exact congrArg some (Except.ok.inj h)

/-- A step on every element of a list succeeds exactly when each of them does. -/
theorem mapM_eq_ok_iff {f : α → Except ε β} {as : List α} {bs : List β} :
    as.mapM f = .ok bs ↔ List.Forall₂ (fun a b => f a = .ok b) as bs := by
  induction as generalizing bs with
  | nil =>
    rw [List.mapM_nil, List.forall₂_nil_left_iff]
    constructor
    · intro h
      cases h
      rfl
    · rintro rfl
      rfl
  | cons a as ih =>
    rw [List.mapM_cons, bind_eq_ok_iff, List.forall₂_cons_left_iff]
    constructor
    · rintro ⟨b, hb, h⟩
      obtain ⟨bs', hbs, h⟩ := bind_eq_ok_iff.mp h
      cases h
      exact ⟨b, bs', hb, ih.mp hbs, rfl⟩
    · rintro ⟨b, bs', hb, hbs, rfl⟩
      exact ⟨b, hb, bind_eq_ok_iff.mpr ⟨bs', ih.mpr hbs, rfl⟩⟩

/-- A step on every element of a list fails as it does on the first element that it fails on. -/
theorem mapM_eq_error_iff {f : α → Except ε β} {as : List α} {e : ε} :
    as.mapM f = .error e ↔
      ∃ front a back bs, as = front ++ a :: back ∧
        List.Forall₂ (fun a b => f a = .ok b) front bs ∧ f a = .error e := by
  induction as with
  | nil =>
    rw [List.mapM_nil]
    constructor
    · intro h
      cases h
    · rintro ⟨front, a, back, bs, h, -⟩
      exact absurd h (by simp)
  | cons a as ih =>
    rw [List.mapM_cons, bind_eq_error_iff]
    constructor
    · rintro (ha | ⟨b, hb, h⟩)
      · exact ⟨[], a, as, [], rfl, .nil, ha⟩
      · rcases bind_eq_error_iff.mp h with h | ⟨bs, -, h⟩
        · obtain ⟨front, a', back, bs, rfl, hfront, ha'⟩ := ih.mp h
          exact ⟨a :: front, a', back, b :: bs, rfl, .cons hb hfront, ha'⟩
        · cases h
    · rintro ⟨front, a', back, bs, he, hfront, ha'⟩
      cases hfront with
      | nil =>
        obtain ⟨rfl, rfl⟩ := List.cons.inj he
        exact .inl ha'
      | @cons a₀ b front bs hb hfront =>
        obtain ⟨rfl, rfl⟩ := List.cons.inj he
        exact .inr ⟨b, hb, bind_eq_error_iff.mpr (.inl (ih.mpr ⟨_, _, _, _, rfl, hfront, ha'⟩))⟩

theorem exists_of_mem_left {R : α → β → Prop} {as : List α} {bs : List β} {a : α}
    (h : List.Forall₂ R as bs) (ha : a ∈ as) : ∃ b ∈ bs, R a b := by
  induction h with
  | nil => exact absurd ha List.not_mem_nil
  | @cons a' b as bs hab _ ih =>
    rcases List.mem_cons.mp ha with rfl | ha
    · exact ⟨b, List.mem_cons_self, hab⟩
    · obtain ⟨b', hb', hR⟩ := ih ha
      exact ⟨b', List.mem_cons_of_mem _ hb', hR⟩

theorem exists_of_mem_right {R : α → β → Prop} {as : List α} {bs : List β} {b : β}
    (h : List.Forall₂ R as bs) (hb : b ∈ bs) : ∃ a ∈ as, R a b := by
  apply exists_of_mem_left h.flip hb

/-! ## Computations that may give up -/

/-- The first computation may give up, without even an error, and the second may not. The first
follows the second: it does not give up, it fails with the same error, and where both succeed their
results are related. -/
def Follows (R : α → β → Prop) (x : ExceptT ε Option α) : Except ε β → Prop
  | .error e => x = throw e
  | .ok b => ∃ a, x = pure a ∧ R a b

section

variable {γ δ : Type} {R : α → β → Prop} {S : γ → δ → Prop} {x : ExceptT ε Option α}
  {r : Except ε β}

theorem Follows.pure {a : α} {b : β} (h : R a b) :
    Follows R (Pure.pure a : ExceptT ε Option α) (.ok b) :=
  ⟨a, rfl, h⟩

theorem Follows.throw (e : ε) : Follows R (throw e : ExceptT ε Option α) (.error e) := rfl

/-- Step by step one chain follows the other. -/
theorem Follows.bind {f : α → ExceptT ε Option γ} {g : β → Except ε δ} (h : Follows R x r)
    (hf : ∀ a b, r = .ok b → R a b → Follows S (f a) (g b)) :
    Follows S (x >>= f) (r >>= g) := by
  cases r with
  | error e =>
    obtain rfl : x = MonadExcept.throw e := h
    exact .throw e
  | ok b =>
    obtain ⟨a, rfl, hR⟩ := h
    rw [pure_bind]
    exact hf a b rfl hR

theorem bind_eq_pure_iff {f : α → ExceptT ε Option γ} {c : γ} :
    x >>= f = Pure.pure c ↔ ∃ a, x = Pure.pure a ∧ f a = Pure.pure c := by
  constructor
  · intro h
    match x, h with
    | some (.ok a), h => exact ⟨a, rfl, h⟩
  · rintro ⟨a, rfl, h⟩
    rw [pure_bind]
    exact h

theorem follows_eq_iff {x : ExceptT ε Option α} {r : Except ε α} :
    Follows Eq x r ↔ x.run = some r := by
  cases r with
  | error e => exact Iff.rfl
  | ok a =>
    constructor
    · rintro ⟨a', rfl, rfl⟩
      rfl
    · intro h
      exact ⟨a, h, rfl⟩

theorem Follows.mapM {f : α → ExceptT ε Option β} {g : α → Except ε β} {as : List α}
    (h : ∀ a ∈ as, Follows Eq (f a) (g a)) : Follows Eq (as.mapM f) (as.mapM g) := by
  induction as with
  | nil => exact .pure rfl
  | cons a as ih =>
    rw [List.forall_mem_cons] at h
    rw [List.mapM_cons, List.mapM_cons]
    refine h.1.bind ?_
    rintro b _ - rfl
    refine (ih h.2).bind ?_
    rintro bs _ - rfl
    exact .pure rfl

end

end TimeSeries.Outcome
