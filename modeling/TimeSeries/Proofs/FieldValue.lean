/-
# TimeSeries.Proofs.FieldValue — the literals that are accepted.

A literal is a text between quotes, or it is plain: a numeral or one of two words. Either way no
blank stands at its ends, and the literal that is kept is accepted again, as the same value.
-/
import TimeSeries.FieldValue
import TimeSeries.Proofs.Decimal

namespace TimeSeries.FieldValue

open Decimal (IsPlain forall_isPlain_of_readFloat? forall_isPlain_of_lower)
open Text (trim lower)

variable {l : String} {v : FieldValue} {e : Line.Error}

theorem forall_isPlain_of_readInteger? {s : List Char} (h : (readInteger? s).isSome) :
    ∀ c ∈ s, IsPlain c := by
  unfold readInteger? at h
  split at h
  · rename_i hlast
    obtain ⟨n, hn⟩ := Option.isSome_iff_exists.mp h
    rw [← List.dropLast_append_getLast? _ hlast, List.forall_mem_append]
    exact ⟨Nanos.forall_isPlain_of_read? hn,
      List.forall_mem_singleton.mpr (Decimal.isPlain_of_isAlphanum (by decide))⟩
  · cases h

/-- A literal is a string between quotes, a word that comes out in lower case, or a numeral. -/
theorem classify_cases (h : classify l = .ok v) :
    (v = ⟨.string, l⟩ ∧ l.toList.head? = some '"' ∧ l.toList.getLast? = some '"' ∧
        2 ≤ l.toList.length) ∨
      (v = ⟨.boolean, String.ofList (lower l.toList)⟩ ∧
        (v.literal = "true" ∨ v.literal = "false")) ∨
      (v.type ≠ .string ∧ v.literal = l ∧ ∀ c ∈ l.toList, IsPlain c) := by
  unfold classify at h
  dsimp only at h
  split at h
  · split at h
    · rename_i hquotes
      cases h
      exact .inl ⟨rfl, hquotes⟩
    · cases h
  · split at h
    · split at h
      · rename_i hread
        cases h
        exact .inr (.inr ⟨FieldType.noConfusion, rfl, forall_isPlain_of_readInteger? hread⟩)
      · cases h
    · split at h
      · rename_i hword
        cases h
        exact .inr (.inl ⟨rfl, hword⟩)
      · split at h
        · rename_i hread
          cases h
          obtain ⟨x, hx⟩ := Option.isSome_iff_exists.mp hread
          exact .inr (.inr ⟨FieldType.noConfusion, rfl, forall_isPlain_of_readFloat? hx⟩)
        · cases h

/-- The literal that is kept is accepted, as the value that keeps it. -/
theorem classify_literal (h : classify l = .ok v) : classify v.literal = .ok v := by
  rcases classify_cases h with ⟨rfl, -⟩ | ⟨rfl, hword | hword⟩ | ⟨-, hliteral, -⟩
  · exact h
  · show classify (String.ofList (lower l.toList)) = .ok ⟨_, String.ofList (lower l.toList)⟩
    rw [show String.ofList (lower l.toList) = "true" from hword]
    decide
  · show classify (String.ofList (lower l.toList)) = .ok ⟨_, String.ofList (lower l.toList)⟩
    rw [show String.ofList (lower l.toList) = "false" from hword]
    decide
  · rwa [hliteral]

theorem length_literal (h : classify l = .ok v) : v.literal.toList.length = l.toList.length := by
  rcases classify_cases h with ⟨rfl, -⟩ | ⟨rfl, -⟩ | ⟨-, hliteral, -⟩
  · rfl
  · rw [String.toList_ofList, lower, List.length_map]
  · rw [hliteral]

/-- What is not a string is plain. -/
theorem forall_isPlain_of_type_ne (h : classify l = .ok v) (htype : v.type ≠ .string) :
    ∀ c ∈ l.toList, IsPlain c := by
  rcases classify_cases h with ⟨rfl, -⟩ | ⟨rfl, hword⟩ | ⟨-, -, hplain⟩
  · exact absurd rfl htype
  · -- The word itself may have letters of either case.
    have hlower : lower l.toList = "true".toList ∨ lower l.toList = "false".toList :=
      hword.imp Text.ofList_lower_eq_iff.mp Text.ofList_lower_eq_iff.mp
    rcases hlower with hlower | hlower
    · exact forall_isPlain_of_lower hlower (by decide)
    · exact forall_isPlain_of_lower hlower (by decide)
  · exact hplain

/-- A string is kept with the quotes at its ends. -/
theorem quotes_of_type_eq (h : classify l = .ok v) (htype : v.type = .string) :
    v = ⟨.string, l⟩ ∧ l.toList.head? = some '"' ∧ l.toList.getLast? = some '"' ∧
      2 ≤ l.toList.length := by
  rcases classify_cases h with hstring | ⟨rfl, -⟩ | ⟨hne, -⟩
  · exact hstring
  · cases htype
  · exact absurd htype hne

/-- No blank stands at an end of a literal. -/
theorem trim_toList (h : classify l = .ok v) : trim l.toList = l.toList := by
  by_cases htype : v.type = .string
  · obtain ⟨-, hhead, hlast, -⟩ := quotes_of_type_eq h htype
    refine Text.trim_eq_self_iff.mpr ⟨fun c hc => ?_, fun c hc => ?_⟩
    · obtain rfl : '"' = c := Option.some.inj (hhead.symm.trans hc)
      decide
    · obtain rfl : '"' = c := Option.some.inj (hlast.symm.trans hc)
      decide
  · have hplain := forall_isPlain_of_type_ne h htype
    refine Text.trim_eq_self_iff.mpr ⟨fun c hc => ?_, fun c hc => ?_⟩
    · exact (hplain c (List.mem_of_mem_head? hc)).1
    · exact (hplain c (List.mem_of_getLast? hc)).1

/-- A literal that is accepted denotes a number. -/
theorem isSome_toFloat? (h : classify l = .ok v) : v.toFloat?.isSome = true := by
  unfold classify at h
  dsimp only at h
  split at h
  · split at h
    · cases h
      rfl
    · cases h
  · split at h
    · split at h
      · rename_i hread
        cases h
        simpa [toFloat?] using hread
      · cases h
    · split at h
      · rename_i hword
        cases h
        rcases hword with hword | hword <;> rw [toFloat?] <;> simp [hword]
      · split at h
        · rename_i hread
          cases h
          exact hread
        · cases h

/-! ## Literals that are refused -/

/-- What is found wrong with a literal that is refused. -/
def faultOf (s : List Char) : Line.Fault :=
  if s.head? = some '"' ∨ s.getLast? = some '"' then .invalidStringField
  else if s.getLast? = some 'i' then .invalidIntegerField
  else .invalidNumericField

/-- A refusal shows the literal whole. -/
theorem error_of_classify (h : classify l = .error e) : e = ⟨faultOf l.toList, l⟩ := by
  unfold classify at h
  dsimp only at h
  rw [faultOf]
  split at h
  · rename_i hends
    rw [if_pos hends]
    split at h
    · cases h
    · cases h
      rfl
  · rename_i hends
    rw [if_neg hends]
    split at h
    · rename_i hlast
      rw [if_pos hlast]
      split at h
      · cases h
      · cases h
        rfl
    · rename_i hlast
      rw [if_neg hlast]
      split at h
      · cases h
      · split at h
        · cases h
        · cases h
          rfl

end TimeSeries.FieldValue
