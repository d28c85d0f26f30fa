/-
# TimeSeries.Proofs.Text.Case — words found whatever the case of their letters.

A word that starts a text is found there, and a search finds the first place of a word in a text
(`cut?_eq_some_iff`) or that there is none (`cut?_eq_none_iff`). Behind characters that are not its
first letter, a word is found at its place.
-/
import Mathlib
import TimeSeries.Text.Case

namespace TimeSeries.Text

variable {w s rest word before after : List Char} {first : Char}

@[simp] theorem lower_append (s t : List Char) : lower (s ++ t) = lower s ++ lower t :=
  List.map_append

@[simp] theorem lower_eq_nil_iff : lower s = [] ↔ s = [] := List.map_eq_nil_iff

theorem length_eq_of_lower_eq (h : lower w = word) : w.length = word.length := by
  rw [← h, lower, List.length_map]

theorem sameLetters_iff {s t : List Char} : sameLetters s t = true ↔ lower s = lower t :=
  beq_iff_eq

theorem ofList_lower_eq_iff {keyword : String} :
    String.ofList (lower s) = keyword ↔ lower s = keyword.toList := by
  rw [← String.toList_inj, String.toList_ofList]

/-! ## At the start -/

theorem dropWord?_eq_some_iff :
    dropWord? word s = some rest ↔ ∃ w, lower w = word ∧ w ++ rest = s := by
  fun_induction dropWord? word s with
  | case1 s =>
    constructor
    · intro h
      exact ⟨[], rfl, (Option.some.inj h).symm⟩
    · rintro ⟨w, hw, rfl⟩
      rw [lower_eq_nil_iff.mp hw, List.nil_append]
  | case2 l word =>
    refine iff_of_false (by simp) ?_
    rintro ⟨w, hw, h⟩
    rw [(List.append_eq_nil_iff.mp h).1] at hw
    cases hw
  | case3 word c s ih =>
    rw [ih]
    constructor
    · rintro ⟨w, rfl, rfl⟩
      exact ⟨c :: w, rfl, rfl⟩
    · rintro ⟨w, hw, h⟩
      cases w with
      | nil => cases hw
      | cons d w =>
        obtain ⟨rfl, rfl⟩ := List.cons.inj h
        exact ⟨w, (List.cons.inj hw).2, rfl⟩
  | case4 l word c s hc =>
    refine iff_of_false (by simp) ?_
    rintro ⟨w, hw, h⟩
    cases w with
    | nil => cases hw
    | cons d w =>
      obtain ⟨rfl, rfl⟩ := List.cons.inj h
      exact hc (List.cons.inj hw).1

theorem dropWord?_append (hw : lower w = word) (s : List Char) :
    dropWord? word (w ++ s) = some s :=
  dropWord?_eq_some_iff.mpr ⟨w, hw, rfl⟩

theorem dropWord?_eq_none_iff :
    dropWord? word s = none ↔ ∀ w back, lower w = word → s ≠ w ++ back := by
  rw [Option.eq_none_iff_forall_ne_some]
  constructor
  · intro h w back hw hs
    exact h back (dropWord?_eq_some_iff.mpr ⟨w, hw, hs.symm⟩)
  · intro h back hback
    obtain ⟨w, hw, hs⟩ := dropWord?_eq_some_iff.mp hback
    exact h w back hw hs.symm

theorem dropWord?_eq_none (h : ¬ word <+: lower s) : dropWord? word s = none := by
  rw [Option.eq_none_iff_forall_ne_some]
  intro rest hrest
  obtain ⟨w, rfl, rfl⟩ := dropWord?_eq_some_iff.mp hrest
  exact h (by rw [lower_append]; exact List.prefix_append _ _)

/-! ## The first place -/

/-- The text is cut around the first occurrence of the word, in letters of any case. -/
structure IsFirstCut (word s before after : List Char) : Prop where
  cut : ∃ w, lower w = word ∧ s = before ++ (w ++ after)
  first : ∀ front w back, lower w = word → s = front ++ (w ++ back) → before.length ≤ front.length

/-- The word stands nowhere in the text. -/
def IsAbsent (word s : List Char) : Prop :=
  ∀ front w back, lower w = word → s ≠ front ++ (w ++ back)

theorem IsAbsent.tail {c : Char} (h : IsAbsent word (c :: s)) : IsAbsent word s :=
  fun front w back hw hs => h (c :: front) w back hw (by rw [hs]; rfl)

theorem isAbsent_cons {c : Char} :
    IsAbsent word (c :: s) ↔ dropWord? word (c :: s) = none ∧ IsAbsent word s := by
  rw [dropWord?_eq_none_iff]
  constructor
  · exact fun h => ⟨fun w back hw => h [] w back hw, h.tail⟩
  · rintro ⟨hstart, hrest⟩ front w back hw hs
    cases front with
    | nil => exact hstart w back hw hs
    | cons d front => exact hrest front w back hw (List.cons.inj hs).2

theorem isAbsent_nil : IsAbsent word [] ↔ dropWord? word [] = none := by
  rw [dropWord?_eq_none_iff]
  constructor
  · exact fun h w back hw => h [] w back hw
  · rintro h front w back hw hs
    obtain ⟨rfl, -⟩ := List.append_eq_nil_iff.mp hs.symm
    exact h w back hw hs

theorem cut?_eq_none_iff : cut? word s = none ↔ IsAbsent word s := by
  fun_induction cut? word s with
  | case1 => rw [Option.map_eq_none_iff, isAbsent_nil]
  | case2 c s rest hrest => simp [isAbsent_cons, hrest]
  | case3 c s hnone ih => rw [Option.map_eq_none_iff, ih, isAbsent_cons, and_iff_right hnone]

theorem isFirstCut_of_cut? (h : cut? word s = some (before, after)) :
    IsFirstCut word s before after := by
  fun_induction cut? word s generalizing before with
  | case1 =>
    obtain ⟨rest, hrest, heq⟩ := Option.map_eq_some_iff.mp h
    obtain ⟨rfl, rfl⟩ := Prod.mk.inj heq
    obtain ⟨w, hw, hs⟩ := dropWord?_eq_some_iff.mp hrest
    exact ⟨⟨w, hw, hs.symm⟩, fun _ _ _ _ _ => Nat.zero_le _⟩
  | case2 c s rest hrest =>
    obtain ⟨rfl, rfl⟩ := Prod.mk.inj (Option.some.inj h)
    obtain ⟨w, hw, hs⟩ := dropWord?_eq_some_iff.mp hrest
    exact ⟨⟨w, hw, hs.symm⟩, fun _ _ _ _ _ => Nat.zero_le _⟩
  | case3 c s hnone ih =>
    obtain ⟨⟨before, after⟩, hcut, heq⟩ := Option.map_eq_some_iff.mp h
    obtain ⟨rfl, rfl⟩ := Prod.mk.inj heq
    obtain ⟨⟨w, hw, rfl⟩, hfirst⟩ := ih hcut
    refine ⟨⟨w, hw, rfl⟩, fun front w' back hw' hs => ?_⟩
    cases front with
    | nil => exact absurd hs (dropWord?_eq_none_iff.mp hnone w' back hw')
    | cons d front => exact Nat.succ_le_succ (hfirst front w' back hw' (List.cons.inj hs).2)

theorem IsFirstCut.unique {before' after' : List Char} (h : IsFirstCut word s before after)
    (h' : IsFirstCut word s before' after') : before = before' ∧ after = after' := by
  obtain ⟨⟨w, hw, hs⟩, hfirst⟩ := h
  obtain ⟨⟨w', hw', hs'⟩, hfirst'⟩ := h'
  have hlength : before.length = before'.length :=
    Nat.le_antisymm (hfirst _ _ _ hw' hs') (hfirst' _ _ _ hw hs)
  obtain ⟨rfl, htail⟩ := List.append_inj (hs.symm.trans hs') hlength
  have hword : w.length = w'.length := by
    rw [length_eq_of_lower_eq hw, length_eq_of_lower_eq hw']
  exact ⟨rfl, (List.append_inj htail hword).2⟩

/-- A text is cut where a word first stands. -/
theorem cut?_eq_some_iff : cut? word s = some (before, after) ↔ IsFirstCut word s before after := by
  refine ⟨isFirstCut_of_cut?, fun h => ?_⟩
  cases hcut : cut? word s with
  | none =>
    obtain ⟨w, hw, hs⟩ := h.cut
    exact absurd hs (cut?_eq_none_iff.mp hcut before w after hw)
  | some parts =>
    obtain ⟨rfl, rfl⟩ := h.unique (isFirstCut_of_cut? hcut)
    rfl

/-! ## In a longer text -/

/-- What stands behind the first place of a word is not looked at to find it. -/
theorem IsFirstCut.append (h : IsFirstCut word s before after) (t : List Char) :
    IsFirstCut word (s ++ t) before (after ++ t) := by
  obtain ⟨⟨w, hw, rfl⟩, hfirst⟩ := h
  refine ⟨⟨w, hw, by simp⟩, fun front w' back hw' hs => ?_⟩
  by_contra hlt
  have hfront : front ++ w' <+: before ++ (w ++ after) ++ t := ⟨back, by rw [hs, List.append_assoc]⟩
  have hlength : (front ++ w').length ≤ (before ++ (w ++ after)).length := by
    have hword : w.length = w'.length := by
      rw [length_eq_of_lower_eq hw, length_eq_of_lower_eq hw']
    simp only [List.length_append]
    omega
  obtain ⟨back', hback'⟩ := List.prefix_of_prefix_length_le hfront (List.prefix_append _ t) hlength
  exact hlt (hfirst front w' back' hw' (by rw [← hback', List.append_assoc]))

/-- What stands behind some place of a word stands behind its first place. -/
theorem IsFirstCut.suffix {front back : List Char}
    (h : IsFirstCut word s before after) (hw : lower w = word) (hs : s = front ++ (w ++ back)) :
    back <:+ after := by
  have hle := h.first front w back hw hs
  obtain ⟨w', hw', hs'⟩ := h.cut
  have hback : back <:+ s := ⟨front ++ w, by rw [hs, List.append_assoc]⟩
  have hafter : after <:+ s := ⟨before ++ w', by rw [hs', List.append_assoc]⟩
  refine List.suffix_of_suffix_length_le hback hafter ?_
  have hword : w.length = w'.length := by
    rw [length_eq_of_lower_eq hw, length_eq_of_lower_eq hw']
  have hlength := congrArg List.length (hs.symm.trans hs')
  simp only [List.length_append] at hlength
  omega

/-- What is left behind the first place ends as the text does. -/
theorem IsFirstCut.mem_of_getLast? {front : List Char} (h : IsFirstCut word (front ++ w) before after)
    (hw : w ≠ []) {d : Char} (hd : d ∈ after.getLast?) : d ∈ w := by
  obtain ⟨w', -, hs⟩ := h.cut
  have hne : after ≠ [] := by
    rintro rfl
    cases hd
  have hend : (front ++ w).getLast? = after.getLast? := by
    rw [hs, ← List.append_assoc, List.getLast?_append_of_ne_nil _ hne]
  rw [List.getLast?_append_of_ne_nil _ hw, Option.mem_def.mp hd] at hend
  exact List.mem_of_getLast? hend

/-- A word does not start in a text where it does not stand, and whose last character is none of its
letters. -/
theorem dropWord?_append_eq_none {c : Char} (habsent : IsAbsent word (c :: s))
    (hlast : ∀ d ∈ (c :: s).getLast?, d.toLower ∉ word) (t : List Char) :
    dropWord? word (c :: s ++ t) = none := by
  rw [dropWord?_eq_none_iff]
  intro w back hw hs
  have hprefix : w <+: c :: s ++ t := ⟨back, hs.symm⟩
  rcases Nat.le_total w.length (c :: s).length with hle | hle
  · obtain ⟨rest, hrest⟩ := List.prefix_of_prefix_length_le hprefix (List.prefix_append _ t) hle
    exact habsent [] w rest hw hrest.symm
  · obtain ⟨rest, rfl⟩ := List.prefix_of_prefix_length_le (List.prefix_append _ t) hprefix hle
    have hmem := List.mem_append_left rest (List.getLast_mem (List.cons_ne_nil c s))
    refine hlast _ (List.getLast?_eq_some_getLast (List.cons_ne_nil c s)) ?_
    rw [← hw]
    exact List.mem_map_of_mem hmem

/-- A word is not found before a place that it does not reach across. -/
theorem cut?_append_of_isAbsent (habsent : IsAbsent word s)
    (hlast : ∀ d ∈ s.getLast?, d.toLower ∉ word) (t : List Char) :
    cut? word (s ++ t) = (cut? word t).map fun (before, after) => (s ++ before, after) := by
  induction s with
  | nil => simp
  | cons c s ih =>
    have hlast' : ∀ d ∈ s.getLast?, d.toLower ∉ word := by
      intro d hd
      refine hlast d ?_
      rw [List.getLast?_cons, Option.mem_def.mp hd]
      rfl
    have hdrop : dropWord? word (c :: (s ++ t)) = none := dropWord?_append_eq_none habsent hlast t
    rw [List.cons_append, cut?, hdrop, ih habsent.tail hlast', Option.map_map]
    rfl

/-! ## Behind other characters -/

theorem cut?_append (hw : lower w = word) (hne : w ≠ []) (s : List Char) :
    cut? word (w ++ s) = some ([], s) := by
  obtain ⟨c, w, rfl⟩ := List.exists_cons_of_ne_nil hne
  rw [List.cons_append, cut?, ← List.cons_append, dropWord?_append hw]

/-- Characters that are not the first letter of a word are passed over. -/
theorem cut?_append_of_forall_ne (hw : ∀ c ∈ w, c.toLower ≠ first) (s : List Char) :
    cut? (first :: word) (w ++ s) =
      (cut? (first :: word) s).map fun (before, after) => (w ++ before, after) := by
  induction w with
  | nil => simp
  | cons c w ih =>
    have hdrop : dropWord? (first :: word) (c :: (w ++ s)) = none := by
      rw [dropWord?, if_neg (hw c List.mem_cons_self)]
    rw [List.cons_append, cut?, hdrop, ih fun d hd => hw d (List.mem_cons_of_mem c hd),
      Option.map_map]
    rfl

theorem cut?_eq_none_of_forall_ne (hs : ∀ c ∈ s, c.toLower ≠ first) :
    cut? (first :: word) s = none := by
  rw [← List.append_nil s, cut?_append_of_forall_ne hs]
  rfl

end TimeSeries.Text
