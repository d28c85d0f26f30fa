/-
# TimeSeries.Proofs.Text.Lower — reading a text and reading it in lower case.

A class of characters that does not tell letters apart (`IsCaseless`) cuts a text at the same places
in lower case. So does a search for a word, which takes its letters in any case. Hence every reader
built of these reads from the lowered text what it reads from the text, in lower case.
-/
import TimeSeries.Proofs.Text.Case
import TimeSeries.Proofs.Text.Letter

namespace TimeSeries.Text

variable {p q : Char → Bool} {c d : Char} {s : List Char}

/-! ## Letters in lower case -/

theorem lower_cons (c : Char) (s : List Char) : lower (c :: s) = c.toLower :: lower s := rfl

theorem isAlpha_of_isUpper (h : c.isUpper = true) : c.isAlpha = true := by
  rw [Char.isAlpha, h, Bool.true_or]

/-- A character that is no letter has one form only. -/
theorem toLower_eq_iff (hd : d.isAlpha = false) : c.toLower = d ↔ c = d := by
  by_cases hupper : c.isUpper = true
  · have halpha := isAlpha_of_isUpper hupper
    constructor <;> rintro rfl
    · rw [Char.isAlpha_toLower_eq_isAlpha, halpha] at hd
      cases hd
    · rw [halpha] at hd
      cases hd
  · rw [Char.toLower_eq_of_not_isUpper hupper]

theorem mem_lower_iff (hd : d.isAlpha = false) : d ∈ lower s ↔ d ∈ s := by
  simp [lower, toLower_eq_iff hd]

@[simp] theorem lower_lower (s : List Char) : lower (lower s) = lower s := by
  rw [lower, lower, List.map_map]
  exact List.map_congr_left fun c _ => Char.toLower_toLower_eq_toLower c

/-! ## Classes that do not tell the case -/

/-- The class has all letters of ASCII, or none. -/
class IsCaseless (p : Char → Bool) : Prop where
  exists_const : ∃ b, ∀ c, c.isAlpha = true → p c = b

theorem IsCaseless.toLower (p : Char → Bool) [h : IsCaseless p] (c : Char) : p c.toLower = p c := by
  obtain ⟨b, hb⟩ := h.exists_const
  by_cases hupper : c.isUpper = true
  · have halpha := isAlpha_of_isUpper hupper
    have hlower : c.toLower.isAlpha = true := by rwa [Char.isAlpha_toLower_eq_isAlpha]
    rw [hb c halpha, hb _ hlower]
  · rw [Char.toLower_eq_of_not_isUpper hupper]

theorem comp_toLower (p : Char → Bool) [IsCaseless p] : p ∘ Char.toLower = p :=
  funext (IsCaseless.toLower p)

instance [h : IsCaseless p] : IsCaseless fun c => !p c where
  exists_const := h.exists_const.imp' (!·) fun _ h c hc => congrArg (!·) (h c hc)

instance [h : IsCaseless p] [h' : IsCaseless q] : IsCaseless fun c => p c || q c where
  exists_const := by
    obtain ⟨a, ha⟩ := h.exists_const
    obtain ⟨b, hb⟩ := h'.exists_const
    exact ⟨a || b, fun c hc => by rw [ha c hc, hb c hc]⟩

theorem isCaseless_of_isAlphanum
    (h : ∀ n < 128, (Char.ofNat n).isAlphanum = true → p (Char.ofNat n) = false) : IsCaseless p :=
  ⟨false, fun _ hc => of_isAlphanum (P := fun c => p c = false) h (isAlphanum_of_isAlpha hc)⟩

instance : IsCaseless isBlank := isCaseless_of_isAlphanum (by decide +kernel)
instance : IsCaseless (· == '"') := isCaseless_of_isAlphanum (by decide +kernel)
instance : IsCaseless (· == '\\') := isCaseless_of_isAlphanum (by decide +kernel)
instance : IsCaseless (· == ')') := isCaseless_of_isAlphanum (by decide +kernel)
instance : IsCaseless (fun c => c == '"' || c == '\\') := inferInstance

instance : IsCaseless isNameChar :=
  ⟨true, fun _ hc => isNameChar_of_isAlphanum (isAlphanum_of_isAlpha hc)⟩

instance : IsCaseless Char.isDigit where
  exists_const := by
    refine ⟨false, fun c hc => ?_⟩
    rw [Bool.eq_false_iff]
    intro hdigit
    rw [isAlpha_of_isDigit hdigit] at hc
    cases hc

/-! ## Readers -/

theorem takeWhile_lower (p : Char → Bool) [IsCaseless p] (s : List Char) :
    (lower s).takeWhile p = lower (s.takeWhile p) := by
  rw [lower, List.takeWhile_map, comp_toLower]
  rfl

theorem dropWhile_lower (p : Char → Bool) [IsCaseless p] (s : List Char) :
    (lower s).dropWhile p = lower (s.dropWhile p) := by
  rw [lower, List.dropWhile_map, comp_toLower]
  rfl

theorem stripEnd_lower (p : Char → Bool) [IsCaseless p] (s : List Char) :
    stripEnd p (lower s) = lower (stripEnd p s) := by
  have hreverse : ∀ s, (lower s).reverse = lower s.reverse := fun s => List.map_reverse.symm
  rw [stripEnd, hreverse, dropWhile_lower, hreverse]
  rfl

theorem strip_lower (p : Char → Bool) [IsCaseless p] (s : List Char) :
    strip p (lower s) = lower (strip p s) := by
  rw [strip, dropWhile_lower, stripEnd_lower]
  rfl

theorem trim_lower (s : List Char) : trim (lower s) = lower (trim s) := strip_lower isBlank s

theorem trimStart_lower (s : List Char) : trimStart (lower s) = lower (trimStart s) :=
  dropWhile_lower isBlank s

theorem firstWord_lower (s : List Char) : firstWord (lower s) = lower (firstWord s) := by
  rw [firstWord, trimStart_lower, takeWhile_lower]
  rfl

theorem dropWord?_lower (word s : List Char) :
    dropWord? word (lower s) = (dropWord? word s).map lower := by
  fun_induction dropWord? word s with
  | case1 s =>
    rw [dropWord?]
    rfl
  | case2 => rfl
  | case3 word c s ih =>
    rw [← ih, lower_cons, dropWord?, if_pos (Char.toLower_toLower_eq_toLower c)]
  | case4 w word c s hc =>
    rw [lower_cons, dropWord?, if_neg (by rwa [Char.toLower_toLower_eq_toLower])]
    rfl

theorem cut?_lower (word s : List Char) :
    cut? word (lower s) = (cut? word s).map (Prod.map lower lower) := by
  fun_induction cut? word s with
  | case1 => cases word <;> rfl
  | case2 c s rest hrest =>
    have hdrop := dropWord?_lower word (c :: s)
    rw [lower_cons, hrest] at hdrop
    rw [lower_cons, cut?, hdrop]
    rfl
  | case3 c s hnone ih =>
    have hdrop := dropWord?_lower word (c :: s)
    rw [lower_cons, hnone] at hdrop
    rw [lower_cons, cut?, hdrop, ih]
    simp only [Option.map_none, Option.map_map]
    rfl

end TimeSeries.Text
