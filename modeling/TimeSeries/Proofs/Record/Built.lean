/-
# TimeSeries.Proofs.Record.Built — what a record holds once it is built.

A record is built from an empty one by pushing tags and writing fields, in any order and with keys
that repeat. It then has all tags as they were pushed, and the last one under a key is found. Its
fields have each key once, where the key was first written, with the value that was written last
(`built_remembers`).
-/
import TimeSeries.Proofs.Record

namespace TimeSeries

variable {α : Type} {key k : String} {value : FieldValue} {a : α} {l : List String}

/-! ## Last pairs under a key -/

/-- The pair is the last one under its key. -/
def IsLast (pairs : List (String × α)) (key : String) (a : α) : Prop :=
  ∃ front back, pairs = front ++ (key, a) :: back ∧ key ∉ back.map Prod.fst

theorem find?_reverse_eq_some_iff {pairs : List (String × α)} :
    (pairs.reverse.find? (·.1 == key)).map Prod.snd = some a ↔ IsLast pairs key a := by
  rw [Option.map_eq_some_iff]
  constructor
  · rintro ⟨⟨k, a⟩, hfind, rfl⟩
    obtain ⟨hkey, back, front, hpairs, hback⟩ := List.find?_eq_some_iff_append.mp hfind
    obtain rfl : k = key := by simpa using hkey
    refine ⟨front.reverse, back.reverse, ?_, ?_⟩
    · rw [← List.reverse_reverse pairs, hpairs]
      simp
    · rintro hmem
      obtain ⟨e, he, rfl⟩ := List.mem_map.mp hmem
      simpa using hback e (List.mem_reverse.mp he)
  · rintro ⟨front, back, rfl, hback⟩
    refine ⟨(key, a), ?_, rfl⟩
    rw [List.find?_eq_some_iff_append]
    refine ⟨by simp, back.reverse, front.reverse, by simp, ?_⟩
    intro e he
    have hne : e.1 ≠ key := by
      rintro rfl
      apply hback
      exact List.mem_map_of_mem (List.mem_reverse.mp he)
    simp [hne]

theorem find?_reverse_eq_none_iff {pairs : List (String × α)} :
    (pairs.reverse.find? (·.1 == key)).map Prod.snd = none ↔ key ∉ pairs.map Prod.fst := by
  rw [Option.map_eq_none_iff, List.find?_eq_none]
  constructor
  · intro h hmem
    obtain ⟨e, he, rfl⟩ := List.mem_map.mp hmem
    exact h e (List.mem_reverse.mpr he) (by simp)
  · intro h e he hkey
    obtain rfl : e.1 = key := by simpa using hkey
    exact h (List.mem_map_of_mem (List.mem_reverse.mp he))

/-! ## Keys in the order of their first writing -/

theorem eraseDups_append_singleton (l : List String) (k : String) :
    (l ++ [k]).eraseDups = if k ∈ l then l.eraseDups else l.eraseDups ++ [k] := by
  rw [List.eraseDups_append]
  split
  · rename_i hk
    simp [List.removeAll, hk]
  · rename_i hk
    simp [List.removeAll, hk, List.eraseDups_cons]

/-- Without repetitions, elements stand in the order of their first places. -/
theorem pairwise_idxOf_eraseDups (l : List String) :
    l.eraseDups.Pairwise fun a b => l.idxOf a < l.idxOf b := by
  -- An element at the end is new and comes after all others, or it changes nothing.
  induction l using List.reverseRecOn with
  | nil => exact .nil
  | append_singleton l k ih =>
    have hold : l.eraseDups.Pairwise fun a b => (l ++ [k]).idxOf a < (l ++ [k]).idxOf b := by
      refine ih.imp_of_mem fun {a b} ha hb hlt => ?_
      rwa [List.idxOf_append_of_mem (List.mem_eraseDups.mp ha),
        List.idxOf_append_of_mem (List.mem_eraseDups.mp hb)]
    rw [eraseDups_append_singleton]
    split
    · exact hold
    · rename_i hk
      rw [List.pairwise_append]
      refine ⟨hold, List.pairwise_singleton _ _, fun a ha b hb => ?_⟩
      have ha := List.mem_eraseDups.mp ha
      rw [List.mem_singleton.mp hb, List.idxOf_append_of_mem ha, List.idxOf_append_of_notMem hk]
      have hlt := List.idxOf_lt_length_of_mem ha
      omega

/-! ## One field -/

namespace Fields

/-- The entries under other keys, in order. -/
def others (f : Fields) (key : String) : List (String × FieldValue) :=
  f.entries.filter (·.1 ≠ key)

theorem filter_insertEntry (key : String) (value : FieldValue) (es : List (String × FieldValue)) :
    (insertEntry key value es).filter (·.1 ≠ key) = es.filter (·.1 ≠ key) := by
  induction es with
  | nil => simp [insertEntry]
  | cons e es ih =>
    by_cases he : e.1 = key
    · simp [insertEntry, he]
    · rw [insertEntry, if_neg he, List.filter_cons, ih, List.filter_cons]

theorem others_insert (f : Fields) (key : String) (value : FieldValue) :
    (f.insert key value).others key = f.others key :=
  filter_insertEntry key value f.entries

end Fields

namespace Record

/-- The second record has what the first one has, except for the field under a key. -/
structure KeepsBut (key : String) (r r' : Record) : Prop where
  measurement : r'.measurement = r.measurement
  tags : r'.tags = r.tags
  timestamp : r'.timestamp = r.timestamp
  others : r'.fields.others key = r.fields.others key
  field?_of_ne : ∀ k ≠ key, r'.field? k = r.field? k

theorem keepsBut_insertField (r : Record) (key : String) (value : FieldValue) :
    KeepsBut key r (r.insertField key value) where
  measurement := rfl
  tags := rfl
  timestamp := rfl
  others := Fields.others_insert r.fields key value
  field?_of_ne k hk := by
    show (r.fields.insert key value).get? k = r.fields.get? k
    rw [Fields.get?_insert, if_neg hk]

/-! ## Records built step by step -/

/-- One step in building a record. -/
inductive Edit
  | tag (key value : String)
  | field (key : String) (value : FieldValue)

/-- The record after a step. -/
def Edit.apply (r : Record) : Edit → Record
  | .tag key value => r.pushTag key value
  | .field key value => r.insertField key value

/-- The tag that a step pushes. -/
def Edit.tag? : Edit → Option (String × String)
  | .tag key value => some (key, value)
  | .field _ _ => none

/-- The field that a step writes. -/
def Edit.field? : Edit → Option (String × FieldValue)
  | .tag _ _ => none
  | .field key value => some (key, value)

/-- The tags that are pushed, in order. -/
def pushed (edits : List Edit) : List (String × String) := edits.filterMap Edit.tag?

/-- The fields that are written, in order. -/
def written (edits : List Edit) : List (String × FieldValue) := edits.filterMap Edit.field?

@[simp] theorem pushed_append (edits edits' : List Edit) :
    pushed (edits ++ edits') = pushed edits ++ pushed edits' :=
  List.filterMap_append

@[simp] theorem written_append (edits edits' : List Edit) :
    written (edits ++ edits') = written edits ++ written edits' :=
  List.filterMap_append

/-- The record of a measurement after some steps, from one that is empty. -/
def built (measurement : String) (edits : List Edit) : Record :=
  edits.foldl Edit.apply (empty measurement)

/-- A step adds its tag or its field to what the steps before it left. -/
theorem built_concat (measurement : String) (edits : List Edit) (edit : Edit) :
    built measurement (edits ++ [edit]) = edit.apply (built measurement edits) := by
  simp [built]

/-- The tags and the fields of the steps do not meet. -/
theorem built_eq (measurement : String) (edits : List Edit) :
    built measurement edits =
      ⟨measurement, pushed edits, Fields.ofList (written edits), .zero⟩ := by
  induction edits using List.reverseRecOn with
  | nil => rfl
  | append_singleton edits edit ih =>
    rw [built_concat, ih, pushed_append, written_append]
    cases edit with
    | tag key value =>
      show _ = Record.mk _ _ (Fields.ofList (written edits ++ [])) _
      rw [List.append_nil]
      rfl
    | field key value =>
      show _ = Record.mk _ (pushed edits ++ []) (Fields.ofList (written edits ++ [(key, value)])) _
      rw [List.append_nil, Fields.ofList_concat]
      rfl

/-! ## What a built record holds -/

/-- The record holds the tags that were pushed and, under every key, the value written last. -/
structure Remembers (r : Record) (measurement : String) (edits : List Edit) : Prop where
  measurement_eq : r.measurement = measurement
  timestamp_eq : r.timestamp = .zero
  tags_eq : r.tags = pushed edits
  tag?_eq_some_iff : ∀ k v, r.tag? k = some v ↔ IsLast (pushed edits) k v
  tag?_eq_none_iff : ∀ k, r.tag? k = none ↔ k ∉ (pushed edits).map Prod.fst
  nodup_keys : r.fields.keys.Nodup
  mem_keys_iff : ∀ k, k ∈ r.fields.keys ↔ k ∈ (written edits).map Prod.fst
  /-- Keys stand in the order in which they were first written. -/
  keys_ordered : r.fields.keys.Pairwise fun a b =>
    ((written edits).map Prod.fst).idxOf a < ((written edits).map Prod.fst).idxOf b
  isLast_of_mem : ∀ k v, (k, v) ∈ r.fields.entries → IsLast (written edits) k v
  field?_eq_some_iff : ∀ k v, r.field? k = some v ↔ IsLast (written edits) k v
  field?_eq_none_iff : ∀ k, r.field? k = none ↔ k ∉ (written edits).map Prod.fst
  keepsBut : ∀ key value, KeepsBut key r (r.insertField key value)

/-- Whatever steps a record is built in, it holds what they pushed and what they wrote last. -/
theorem built_remembers (measurement : String) (edits : List Edit) :
    (built measurement edits).Remembers measurement edits := by
  obtain ⟨hkeys, hget⟩ := Fields.writtenBy_ofList (written edits)
  have hlast : ∀ k v, (Fields.ofList (written edits)).get? k = some v ↔
      IsLast (written edits) k v := by
    intro k v
    rw [hget, find?_reverse_eq_some_iff]
  rw [built_eq]
  exact {
    measurement_eq := rfl
    timestamp_eq := rfl
    tags_eq := rfl
    tag?_eq_some_iff := fun k v => find?_reverse_eq_some_iff
    tag?_eq_none_iff := fun k => find?_reverse_eq_none_iff
    nodup_keys := (Fields.ofList (written edits)).nodup_keys
    mem_keys_iff := fun k => by
      show k ∈ (Fields.ofList (written edits)).keys ↔ _
      rw [hkeys, List.mem_eraseDups]
    keys_ordered := by
      show (Fields.ofList (written edits)).keys.Pairwise _
      rw [hkeys]
      exact pairwise_idxOf_eraseDups _
    isLast_of_mem := fun k v hmem => (hlast k v).mp (Fields.get?_of_mem hmem)
    field?_eq_some_iff := hlast
    field?_eq_none_iff := fun k => by
      show (Fields.ofList (written edits)).get? k = none ↔ _
      rw [hget, find?_reverse_eq_none_iff]
    keepsBut := fun key value => keepsBut_insertField _ key value }

end Record
end TimeSeries
