/-
# TimeSeries.Proofs.Record — the fields that a list of pairs leaves behind.

Pairs are put under their keys from left to right. What is left has the keys in the order in which
they first stand in the list, each with the value that stands under it last
(`Fields.writtenBy_iff`).
-/
import Mathlib
import TimeSeries.Record

namespace TimeSeries.Fields

variable {f g : Fields} {key k : String} {value : FieldValue}
  {es pairs : List (String × FieldValue)}

/-! ## One pair -/

theorem insertEntry_of_notMem (h : key ∉ es.map Prod.fst) :
    insertEntry key value es = es ++ [(key, value)] := by
  induction es with
  | nil => rfl
  | cons e es ih =>
    rw [List.map_cons, List.mem_cons, not_or] at h
    rw [insertEntry, if_neg (Ne.symm h.1), ih h.2]
    rfl

theorem map_fst_insertEntry_of_mem (h : key ∈ es.map Prod.fst) :
    (insertEntry key value es).map Prod.fst = es.map Prod.fst := by
  induction es with
  | nil => exact absurd h List.not_mem_nil
  | cons e es ih =>
    by_cases he : e.1 = key
    · rw [insertEntry, if_pos he]
      rfl
    · rw [insertEntry, if_neg he, List.map_cons, List.map_cons, ih]
      exact (List.mem_cons.mp h).resolve_left (Ne.symm he)

theorem mem_insertEntry {e : String × FieldValue} (h : e ∈ insertEntry key value es) :
    e = (key, value) ∨ e ∈ es := by
  induction es with
  | nil => exact .inl (List.mem_singleton.mp h)
  | cons e' es ih =>
    by_cases he : e'.1 = key
    · rw [insertEntry, if_pos he, List.mem_cons] at h
      rw [← he]
      exact h.imp_right (List.mem_cons_of_mem _)
    · rw [insertEntry, if_neg he, List.mem_cons] at h
      rcases h with rfl | h
      · exact .inr List.mem_cons_self
      · exact (ih h).imp_right (List.mem_cons_of_mem _)

theorem find?_insertEntry :
    ((insertEntry key value es).find? (·.1 == k)).map Prod.snd =
      if k = key then some value else (es.find? (·.1 == k)).map Prod.snd := by
  induction es with
  | nil =>
    by_cases hk : k = key
    · rw [insertEntry, if_pos hk, List.find?_cons_of_pos (by simp [hk])]
      rfl
    · rw [insertEntry, if_neg hk, List.find?_cons_of_neg (by simp [Ne.symm hk])]
  | cons e es ih =>
    by_cases he : e.1 = key
    · rw [insertEntry, if_pos he]
      by_cases hk : k = key
      · rw [if_pos hk, List.find?_cons_of_pos (by simp [hk, he])]
        rfl
      · rw [if_neg hk, List.find?_cons_of_neg (by simp [he, Ne.symm hk]),
          List.find?_cons_of_neg (by simp [he, Ne.symm hk])]
    · rw [insertEntry, if_neg he]
      by_cases hk : e.1 = k
      · rw [if_neg (by rw [← hk]; exact he), List.find?_cons_of_pos (by simp [hk]),
          List.find?_cons_of_pos (by simp [hk])]
      · rw [List.find?_cons_of_neg (by simp [hk]), List.find?_cons_of_neg (by simp [hk]), ih]

theorem keys_insert :
    (f.insert key value).keys = if key ∈ f.keys then f.keys else f.keys ++ [key] := by
  split
  · rename_i h
    exact map_fst_insertEntry_of_mem h
  · rename_i h
    show (insertEntry key value f.entries).map Prod.fst = _
    rw [insertEntry_of_notMem h, List.map_append]
    rfl

theorem get?_insert :
    (f.insert key value).get? k = if k = key then some value else f.get? k :=
  find?_insertEntry

/-! ## Many pairs -/

theorem ofList_concat (pairs : List (String × FieldValue)) (p : String × FieldValue) :
    ofList (pairs ++ [p]) = (ofList pairs).insert p.1 p.2 := by
  rw [ofList, List.foldl_append]
  rfl

theorem mem_ofList {e : String × FieldValue} (h : e ∈ (ofList pairs).entries) : e ∈ pairs := by
  induction pairs using List.reverseRecOn with
  | nil => exact h
  | append_singleton pairs p ih =>
    rw [ofList_concat] at h
    rcases mem_insertEntry h with rfl | h
    · exact List.mem_concat_self
    · exact List.mem_append_left _ (ih h)

theorem insertEntry_ne_nil (key : String) (value : FieldValue) (es : List (String × FieldValue)) :
    insertEntry key value es ≠ [] := by
  cases es with
  | nil => exact List.cons_ne_nil _ _
  | cons e es =>
    rw [insertEntry]
    split <;> exact List.cons_ne_nil _ _

theorem entries_ofList_ne_nil (h : pairs ≠ []) : (ofList pairs).entries ≠ [] := by
  obtain ⟨pairs, p, rfl⟩ := (List.eq_nil_or_concat pairs).resolve_left h
  rw [List.concat_eq_append, ofList_concat]
  exact insertEntry_ne_nil _ _ _

/-- Pairs with distinct keys are left as they are. -/
theorem entries_ofList (h : (pairs.map Prod.fst).Nodup) : (ofList pairs).entries = pairs := by
  induction pairs using List.reverseRecOn with
  | nil => rfl
  | append_singleton pairs p ih =>
    rw [List.map_append, List.nodup_append'] at h
    obtain ⟨hnodup, -, hdisjoint⟩ := h
    rw [ofList_concat]
    show insertEntry p.1 p.2 (ofList pairs).entries = _
    rw [ih hnodup, insertEntry_of_notMem]
    exact fun hmem => hdisjoint hmem List.mem_cons_self

theorem ext_entries (h : f.entries = g.entries) : f = g := by
  obtain ⟨es, _⟩ := f
  obtain ⟨es', _⟩ := g
  obtain rfl : es = es' := h
  rfl

theorem ofList_entries (f : Fields) : ofList f.entries = f :=
  ext_entries (entries_ofList f.nodup_keys)

/-- The fields that pairs leave behind: the keys come in the order in which they are first written,
and the last value written under a key counts. -/
structure WrittenBy (f : Fields) (pairs : List (String × FieldValue)) : Prop where
  keys_eq : f.keys = (pairs.map Prod.fst).eraseDups
  get?_eq : ∀ k, f.get? k = (pairs.reverse.find? (·.1 == k)).map Prod.snd

theorem writtenBy_ofList (pairs : List (String × FieldValue)) : (ofList pairs).WrittenBy pairs := by
  induction pairs using List.reverseRecOn with
  | nil => exact ⟨rfl, fun _ => rfl⟩
  | append_singleton pairs p ih =>
    obtain ⟨hkeys, hget⟩ := ih
    rw [ofList_concat]
    refine ⟨?_, fun k => ?_⟩
    · rw [keys_insert, hkeys, List.map_append, List.eraseDups_append]
      by_cases hmem : p.1 ∈ pairs.map Prod.fst
      · rw [if_pos (List.mem_eraseDups.mpr hmem)]
        simp [List.removeAll, hmem]
      · rw [if_neg (mt List.mem_eraseDups.mp hmem)]
        simp [List.removeAll, hmem, List.eraseDups_cons]
    · rw [get?_insert, hget, List.reverse_concat]
      by_cases hk : k = p.1
      · rw [if_pos hk, List.find?_cons_of_pos (by simp [hk])]
        rfl
      · rw [if_neg hk, List.find?_cons_of_neg (by simp [Ne.symm hk])]

theorem find?_of_mem {α : Type} {es : List (String × α)} {e : String × α}
    (hes : (es.map Prod.fst).Nodup) (h : e ∈ es) : es.find? (·.1 == e.1) = some e := by
  induction es with
  | nil => exact absurd h List.not_mem_nil
  | cons e' es ih =>
    rw [List.map_cons, List.nodup_cons] at hes
    rcases List.mem_cons.mp h with rfl | h
    · exact List.find?_cons_of_pos (by simp)
    · have hne : e'.1 ≠ e.1 := by
        intro he
        exact hes.1 (he ▸ List.mem_map_of_mem h)
      rw [List.find?_cons_of_neg (by simp [hne]), ih hes.2 h]

theorem get?_of_mem {e : String × FieldValue} (h : e ∈ f.entries) : f.get? e.1 = some e.2 := by
  rw [get?, find?_of_mem f.nodup_keys h]
  rfl

/-- Fields are known by their keys in order and the value under each. -/
theorem ext_get? (hkeys : f.keys = g.keys) (hget : ∀ k, f.get? k = g.get? k) : f = g := by
  -- Keys stand once, so the value at a place is the value under the key there.
  have hentries : f.entries = g.entries := by
    have hlength : f.entries.length = g.entries.length := by
      simpa [keys] using congrArg List.length hkeys
    refine List.ext_getElem hlength fun i hi hi' => ?_
    have hkey : f.entries[i].1 = g.entries[i].1 := by
      simpa [keys] using (List.getElem_of_eq hkeys (by simpa [keys] using hi))
    have hvalue := hget f.entries[i].1
    rw [get?_of_mem (List.getElem_mem hi), hkey, get?_of_mem (List.getElem_mem hi')] at hvalue
    exact Prod.ext hkey (Option.some.inj hvalue)
  exact ext_entries hentries

theorem writtenBy_iff : f.WrittenBy pairs ↔ f = ofList pairs := by
  constructor
  · rintro ⟨hkeys, hget⟩
    obtain ⟨hkeys', hget'⟩ := writtenBy_ofList pairs
    exact ext_get? (hkeys.trans hkeys'.symm) fun k => (hget k).trans (hget' k).symm
  · rintro rfl
    exact writtenBy_ofList pairs

/-! ## How much is left -/

/-- No more is left than was written. -/
theorem entries_ofList_subperm (pairs : List (String × FieldValue)) :
    (ofList pairs).entries.Subperm pairs :=
  List.subperm_of_subset (List.Nodup.of_map _ (ofList pairs).nodup_keys) fun _ => mem_ofList

theorem sum_map_le_of_subperm {α : Type} {l₁ l₂ : List α} (weight : α → Nat)
    (h : l₁.Subperm l₂) : (l₁.map weight).sum ≤ (l₂.map weight).sum := by
  obtain ⟨l, hperm, hsub⟩ := h
  rw [← (hperm.map weight).sum_eq]
  exact (hsub.map weight).sum_le_sum fun _ _ => Nat.zero_le _

theorem perm_of_sum_map_le {α : Type} {l₁ l₂ : List α} {weight : α → Nat}
    (hweight : ∀ a, 0 < weight a) (h : l₁.Subperm l₂)
    (hle : (l₂.map weight).sum ≤ (l₁.map weight).sum) : l₁.Perm l₂ := by
  -- An element more would weigh something more.
  refine h.perm_of_length_le (Nat.le_of_not_lt fun hlt => ?_)
  obtain ⟨a, ha⟩ := h.exists_of_length_lt hlt
  have hsum := sum_map_le_of_subperm weight ha
  have ha := hweight a
  rw [List.map_cons, List.sum_cons] at hsum
  omega

/-- When what is left weighs as much as what was written, then no key was written twice. -/
theorem nodup_keys_of_sum_map_le {weight : String × FieldValue → Nat}
    (hweight : ∀ e, 0 < weight e)
    (hle : (pairs.map weight).sum ≤ ((ofList pairs).entries.map weight).sum) :
    (pairs.map Prod.fst).Nodup := by
  have hperm := perm_of_sum_map_le hweight (entries_ofList_subperm pairs) hle
  exact ((hperm.map Prod.fst).nodup_iff).mp (ofList pairs).nodup_keys

end TimeSeries.Fields
