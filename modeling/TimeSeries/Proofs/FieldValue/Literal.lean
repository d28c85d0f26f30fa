/-
# TimeSeries.Proofs.FieldValue.Literal — a literal is in one language at most.

The last character of a literal tells which language it can belong to (`typeOfLast`), so no two of
the languages have a literal in common. The order in which they are tried is then of no matter to a
literal that is accepted, and it decides no more than the fault that is found with any other
(`classify_languages`).
-/
import TimeSeries.Proofs.FieldValue.Spelling

namespace TimeSeries.FieldValue

open Query (IsDigits)
open Text (lower)

variable {s tail w : List Char} {l : String} {v : FieldValue} {t u : FieldType} {c d : Char}
  {e : Line.Error}

/-! ## Last characters -/

/-- The type of the literals that end with this character, where any do. -/
def typeOfLast (c : Char) : FieldType :=
  if c = '"' then .string
  else if c = 'i' then .integer
  else if c.toLower = 'e' then .boolean
  else .float

theorem typeOfLast_of_isDigit (h : c.isDigit = true) : typeOfLast c = .float :=
  Text.of_isAlphanum (P := fun c => c.isDigit = true → typeOfLast c = .float) (by decide +kernel)
    (Text.isAlphanum_of_isDigit h) h

theorem typeOfLast_of_toLower (h : c.toLower = d) (hquote : d ≠ '"') (hi : d ≠ 'i') :
    typeOfLast c = if d = 'e' then .boolean else .float := by
  have hc : c ≠ '"' ∧ c ≠ 'i' := by
    constructor <;> rintro rfl
    · exact hquote h.symm
    · exact hi h.symm
  rw [typeOfLast, if_neg hc.1, if_neg hc.2, h]

theorem exists_getLast?_of_lower {word : List Char} (h : lower w = word)
    (hd : word.getLast? = some d) : ∃ c, w.getLast? = some c ∧ c.toLower = d := by
  rw [← h, lower, List.getLast?_map] at hd
  exact Option.map_eq_some_iff.mp hd

theorem exists_getLast?_of_isDigits {ds : List Char} (h : IsDigits ds) :
    ∃ c, ds.getLast? = some c ∧ c.isDigit = true :=
  ⟨_, List.getLast?_eq_some_getLast h.ne_nil, h.isDigit _ (List.getLast_mem h.ne_nil)⟩

theorem IsExponent.getLast (h : IsExponent tail) : ∀ c ∈ tail.getLast?, c.isDigit = true := by
  cases h with
  | none => simp
  | @some e n mark ds _ _ hdigits =>
    obtain ⟨c, hc, hdigit⟩ := exists_getLast?_of_isDigits hdigits
    rw [← List.cons_append, List.getLast?_append, hc]
    simpa using hdigit

/-- A numeral ends with a digit or a point. -/
theorem IsNumeral.exists_getLast? (h : IsNumeral s) :
    ∃ c, s.getLast? = some c ∧ (c.isDigit = true ∨ c = '.') := by
  cases h with
  | @whole whole tail hdigits hexponent =>
    obtain ⟨c, hc, hdigit⟩ := exists_getLast?_of_isDigits hdigits
    rw [List.getLast?_append, hc]
    cases htail : tail.getLast? with
    | none => exact ⟨c, rfl, .inl hdigit⟩
    | some d => exact ⟨d, rfl, .inl (hexponent.getLast d htail)⟩
  | @point whole fraction tail hdigits hexponent =>
    rw [List.getLast?_append_of_ne_nil _ (List.cons_ne_nil _ _), List.getLast?_cons,
      List.getLast?_append]
    cases htail : tail.getLast? with
    | some d => exact ⟨d, rfl, .inl (hexponent.getLast d htail)⟩
    | none =>
      cases hfraction : fraction.getLast? with
      | none => exact ⟨'.', rfl, .inr rfl⟩
      | some d =>
        have hmem := List.mem_append_right whole (List.mem_of_getLast? hfraction)
        exact ⟨d, rfl, .inl (hdigits.isDigit d hmem)⟩

theorem IsMagnitude.exists_getLast? (h : IsMagnitude s) :
    ∃ c, s.getLast? = some c ∧ typeOfLast c = .float := by
  cases h with
  | word hword =>
    have hlast : ∃ d, (lower s).getLast? = some d ∧ (d = 'f' ∨ d = 'y' ∨ d = 'n') := by
      rcases hword with hword | hword | hword <;> rw [hword]
      · exact ⟨'f', rfl, .inl rfl⟩
      · exact ⟨'y', rfl, .inr (.inl rfl)⟩
      · exact ⟨'n', rfl, .inr (.inr rfl)⟩
    obtain ⟨d, hd, hletter⟩ := hlast
    obtain ⟨c, hc, hlower⟩ := exists_getLast?_of_lower rfl hd
    refine ⟨c, hc, ?_⟩
    rcases hletter with rfl | rfl | rfl <;>
      exact typeOfLast_of_toLower hlower (by decide) (by decide)
  | numeral hnumeral =>
    obtain ⟨c, hc, hdigit | rfl⟩ := hnumeral.exists_getLast?
    · exact ⟨c, hc, typeOfLast_of_isDigit hdigit⟩
    · exact ⟨'.', hc, by decide⟩

theorem Spells.exists_getLast? (h : Spells t s) : ∃ c, s.getLast? = some c ∧ typeOfLast c = t := by
  cases h with
  | @string content =>
    rw [← List.cons_append]
    exact ⟨'"', List.getLast?_concat, rfl⟩
  | integer => exact ⟨'i', List.getLast?_concat, rfl⟩
  | boolean hword =>
    have hlast : (lower s).getLast? = some 'e' := by
      rcases hword with hword | hword <;> rw [hword] <;> rfl
    obtain ⟨c, hc, hlower⟩ := exists_getLast?_of_lower rfl hlast
    exact ⟨c, hc, typeOfLast_of_toLower hlower (by decide) (by decide)⟩
  | @float n mark w _ hmagnitude =>
    obtain ⟨c, hc, htype⟩ := hmagnitude.exists_getLast?
    refine ⟨c, ?_, htype⟩
    rw [List.getLast?_append, hc]
    rfl

/-- The languages have no literal in common. -/
theorem Spells.unique (h : Spells t s) (h' : Spells u s) : t = u := by
  obtain ⟨c, hc, rfl⟩ := h.exists_getLast?
  obtain ⟨d, hd, rfl⟩ := h'.exists_getLast?
  rw [Option.some.inj (hc.symm.trans hd)]

/-! ## Classification -/

instance : Decidable (Spells t s) :=
  match t with
  | .string => decidable_of_iff _ spells_string_iff.symm
  | .integer => decidable_of_iff _ isSome_readInteger?_iff
  | .boolean => decidable_of_iff (lower s = "true".toList ∨ lower s = "false".toList)
      ⟨.boolean, fun h => by cases h; assumption⟩
  | .float => decidable_of_iff _ isSome_readFloat?_iff

/-- The literal that is kept of a value: the one written, but a boolean in lower case. -/
def kept (t : FieldType) (l : String) : String :=
  if t = .boolean then String.ofList (lower l.toList) else l

theorem Spells.not_mem_quote (h : Spells t s) (ht : t ≠ .string) : '"' ∉ s := by
  have hplain : ∀ c ∈ s, Decimal.IsPlain c := by
    cases t with
    | string => exact absurd rfl ht
    | integer => exact forall_isPlain_of_readInteger? (isSome_readInteger?_iff.mpr h)
    | boolean =>
      cases h with
      | boolean hword =>
        rcases hword with hword | hword
        · exact Decimal.forall_isPlain_of_lower hword (by decide)
        · exact Decimal.forall_isPlain_of_lower hword (by decide)
    | float =>
      obtain ⟨x, hx⟩ := Option.isSome_iff_exists.mp (isSome_readFloat?_iff.mpr h)
      exact Decimal.forall_isPlain_of_readFloat? hx
  exact fun hquote => (hplain '"' hquote).2.2 rfl

/-- A literal of one language passes the tests for the others that come before. -/
theorem Spells.classify_eq (h : Spells t l.toList) : classify l = .ok ⟨t, kept t l⟩ := by
  obtain ⟨c, hlast, htype⟩ := h.exists_getLast?
  have hi : l.toList.getLast? = some 'i' → t = .integer := by
    intro hi
    rw [← htype, Option.some.inj (hlast.symm.trans hi)]
    rfl
  simp only [classify, Text.ofList_lower_eq_iff]
  by_cases hstring : t = .string
  · subst hstring
    have hquotes := spells_string_iff.mp h
    rw [if_pos (.inl hquotes.1), if_pos hquotes]
    rfl
  have hends : ¬ (l.toList.head? = some '"' ∨ l.toList.getLast? = some '"') := by
    rintro (hquote | hquote)
    · exact h.not_mem_quote hstring (List.mem_of_head? hquote)
    · exact h.not_mem_quote hstring (List.mem_of_getLast? hquote)
  rw [if_neg hends]
  cases t with
  | string => exact absurd rfl hstring
  | integer =>
    have hread := isSome_readInteger?_iff.mpr h
    have hlast : l.toList.getLast? = some 'i' := by
      unfold readInteger? at hread
      by_contra hne
      rw [if_neg hne] at hread
      cases hread
    rw [if_pos hlast, if_pos hread]
    rfl
  | boolean =>
    rw [if_neg fun hlast => FieldType.noConfusion (hi hlast)]
    cases h with
    | boolean hword =>
      rw [if_pos hword]
      rfl
  | float =>
    rw [if_neg fun hlast => FieldType.noConfusion (hi hlast),
      if_neg fun hword => FieldType.noConfusion (h.unique (.boolean hword)),
      if_pos (isSome_readFloat?_iff.mpr h)]
    rfl

theorem spells_of_classify (h : classify l = .ok v) :
    Spells v.type l.toList ∧ v.literal = kept v.type l := by
  simp only [classify, Text.ofList_lower_eq_iff] at h
  split at h
  · split at h
    · rename_i hquotes
      cases h
      exact ⟨spells_string_iff.mpr hquotes, rfl⟩
    · cases h
  · split at h
    · split at h
      · rename_i hread
        cases h
        exact ⟨isSome_readInteger?_iff.mp hread, rfl⟩
      · cases h
    · split at h
      · rename_i hword
        cases h
        exact ⟨.boolean hword, rfl⟩
      · split at h
        · rename_i hread
          cases h
          exact ⟨isSome_readFloat?_iff.mp hread, rfl⟩
        · cases h

theorem classify_eq_error_iff :
    classify l = .error e ↔ (∀ t, ¬ Spells t l.toList) ∧ e = ⟨faultOf l.toList, l⟩ := by
  constructor
  · intro h
    refine ⟨fun t ht => ?_, error_of_classify h⟩
    rw [ht.classify_eq] at h
    cases h
  · rintro ⟨hnone, rfl⟩
    cases h : classify l with
    | ok v => exact absurd (spells_of_classify h).1 (hnone v.type)
    | error e => rw [error_of_classify h]

/-- Whichever language is tried first, the one that has the literal is the type of its value. -/
theorem find?_spells {order : List FieldType} (horder : ∀ t, t ∈ order) (l : String) :
    order.find? (fun t => Spells t l.toList) = (classify l).toOption.map FieldValue.type := by
  cases h : classify l with
  | error e =>
    refine List.find?_eq_none.mpr fun t _ => ?_
    simpa using (classify_eq_error_iff.mp h).1 t
  | ok v =>
    obtain ⟨hspells, -⟩ := spells_of_classify h
    cases hfind : order.find? (fun t => Spells t l.toList) with
    | none => exact absurd hspells (by simpa using List.find?_eq_none.mp hfind v.type (horder _))
    | some t =>
      have ht : Spells t l.toList := by simpa using List.find?_some hfind
      exact congrArg some (ht.unique hspells)

/-- A literal is accepted when it is in one of the four languages, and the language is the type of
its value. No literal is in two of them, so they may be tried in any order; for a literal in none of
them, the order of the tests tells the fault. The value keeps its literal, a boolean in lower case;
what is kept is accepted as the same value, and it denotes a number. -/
theorem classify_languages (l : String) :
    (∀ v, classify l = .ok v ↔ Spells v.type l.toList ∧ v.literal = kept v.type l) ∧
      (∀ t u, Spells t l.toList → Spells u l.toList → t = u) ∧
      (∀ order : List FieldType, (∀ t, t ∈ order) →
        order.find? (fun t => Spells t l.toList) = (classify l).toOption.map FieldValue.type) ∧
      (∀ e, classify l = .error e ↔
        (∀ t, ¬ Spells t l.toList) ∧ e = ⟨faultOf l.toList, l⟩) ∧
      ∀ v, classify l = .ok v → classify v.literal = .ok v ∧ v.toFloat?.isSome = true := by
  refine ⟨fun v => ⟨spells_of_classify, ?_⟩, fun t u => Spells.unique,
    fun order horder => find?_spells horder l, fun e => classify_eq_error_iff,
    fun v h => ⟨classify_literal h, isSome_toFloat? h⟩⟩
  rintro ⟨hspells, hkept⟩
  rw [hspells.classify_eq, ← hkept]

/-- A point has a digit on one side at least, and an exponent has one behind its sign. -/
example :
    Spells .float "-.5E+3".toList ∧ Spells .float "7.".toList ∧ Spells .float "+INFinity".toList ∧
      Spells .integer "+07i".toList ∧ (∀ t, t ∈ [.integer, .float] → ¬ Spells t "1e-".toList) := by
  decide +kernel

end TimeSeries.FieldValue
