/-
# TimeSeries.Proofs.Record.Unordered — records made of maps.

The entries of a map come in no order of their own. The record that is made of two maps has them in
ascending order of their keys, and entries have one such order only, so the record is the same
whatever order they came in, and so is its line. It can be built step by step as well, in the order
of the keys (`ofUnordered_canonical`).
-/
import TimeSeries.Line.Encode
import TimeSeries.Proofs.Record.Built
import TimeSeries.Proofs.Text.ByteOrder

namespace TimeSeries

variable {α : Type} {map : String → Option α} {es es' : List (String × α)}

/-! ## The entries of a map -/

/-- The entries are those of the map, each of them once. -/
structure Enumerates (map : String → Option α) (es : List (String × α)) : Prop where
  nodup_keys : (es.map Prod.fst).Nodup
  mem_iff : ∀ k a, (k, a) ∈ es ↔ map k = some a

namespace Enumerates

theorem perm (h : Enumerates map es) (h' : Enumerates map es') : es.Perm es' := by
  rw [List.perm_ext_iff_of_nodup (.of_map _ h.nodup_keys) (.of_map _ h'.nodup_keys)]
  rintro ⟨k, a⟩
  rw [h.mem_iff, h'.mem_iff]

theorem of_perm (h : Enumerates map es) (hperm : es.Perm es') : Enumerates map es' := by
  refine ⟨(hperm.map Prod.fst).nodup_iff.mp h.nodup_keys, fun k a => ?_⟩
  rw [← hperm.mem_iff, h.mem_iff]

end Enumerates

/-- The value that entries have under a key. -/
def lookup (es : List (String × α)) (key : String) : Option α :=
  (es.find? (·.1 == key)).map Prod.snd

/-- Entries with distinct keys are those of a map. -/
theorem enumerates_lookup (h : (es.map Prod.fst).Nodup) : Enumerates (lookup es) es := by
  refine ⟨h, fun k a => ?_⟩
  constructor
  · intro hmem
    rw [lookup, Fields.find?_of_mem h hmem]
    rfl
  · intro hfind
    obtain ⟨e, he, rfl⟩ := Option.map_eq_some_iff.mp hfind
    obtain rfl : e.1 = k := by simpa using List.find?_some he
    exact List.mem_of_find?_eq_some he

/-! ## Ascending keys -/

/-- The keys ascend by their bytes, so no key stands twice. -/
def AscendingKeys (es : List (String × α)) : Prop :=
  es.Pairwise fun a b => Text.utf8 a.1 < Text.utf8 b.1

instance (es : List (String × α)) : Decidable (AscendingKeys es) :=
  inferInstanceAs (Decidable (es.Pairwise _))

/-- Entries have one order of ascending keys. -/
theorem AscendingKeys.eq_of_perm (h : AscendingKeys es) (h' : AscendingKeys es')
    (hperm : es.Perm es') : es = es' := by
  refine hperm.eq_of_pairwise (fun a b _ _ hab hba => ?_) h h'
  exact absurd (List.lt_trans hab hba) (List.lt_irrefl _)

/-- Sorted keys ascend if they are distinct. -/
theorem ascendingKeys_mergeSort (h : (es.map Prod.fst).Nodup) :
    AscendingKeys (es.mergeSort fun a b => decide (a.1 ≤ b.1)) := by
  have htrans : ∀ a b c : String × α, decide (a.1 ≤ b.1) = true → decide (b.1 ≤ c.1) = true →
      decide (a.1 ≤ c.1) = true := by
    intro a b c hab hbc
    rw [decide_eq_true_eq] at *
    exact String.le_trans hab hbc
  have htotal : ∀ a b : String × α, (decide (a.1 ≤ b.1) || decide (b.1 ≤ a.1)) = true := by
    intro a b
    simpa using String.le_total a.1 b.1
  have hsorted := List.pairwise_mergeSort htrans htotal es
  have hdistinct : (es.mergeSort fun a b => decide (a.1 ≤ b.1)).Pairwise fun a b => a.1 ≠ b.1 := by
    rw [← List.pairwise_map]
    exact ((List.mergeSort_perm es _).map Prod.fst).nodup_iff.mpr h
  refine hsorted.imp₂ (fun a b hle hne => ?_) hdistinct
  exact Text.utf8_lt (lt_of_le_of_ne (of_decide_eq_true hle) hne)

namespace Record

variable {measurement : String} {timestamp : Nanos} {tagMap : String → Option String}
  {fieldMap : String → Option FieldValue} {r r' : Record} {edits : List Edit}
  {tags tags' : List (String × String)} {fields fields' : Fields}

/-! ## Records of two maps -/

/-- The record holds the entries of the two maps as its tags and its fields, both in ascending order
of their keys. -/
structure IsCanonical (measurement : String) (tagMap : String → Option String)
    (fieldMap : String → Option FieldValue) (timestamp : Nanos) (r : Record) : Prop where
  measurement_eq : r.measurement = measurement
  timestamp_eq : r.timestamp = timestamp
  tags : Enumerates tagMap r.tags
  tags_ascending : AscendingKeys r.tags
  fields : Enumerates fieldMap r.fields.entries
  fields_ascending : AscendingKeys r.fields.entries

/-- There is one such record. -/
theorem IsCanonical.eq (h : IsCanonical measurement tagMap fieldMap timestamp r)
    (h' : IsCanonical measurement tagMap fieldMap timestamp r') : r = r' := by
  have htags : r.tags = r'.tags :=
    h.tags_ascending.eq_of_perm h'.tags_ascending (h.tags.perm h'.tags)
  have hfields : r.fields = r'.fields :=
    Fields.ext_entries (h.fields_ascending.eq_of_perm h'.fields_ascending (h.fields.perm h'.fields))
  obtain ⟨m, ts, fs, t⟩ := r
  obtain ⟨m', ts', fs', t'⟩ := r'
  obtain rfl : m = m' := h.measurement_eq.trans h'.measurement_eq.symm
  obtain rfl : t = t' := h.timestamp_eq.trans h'.timestamp_eq.symm
  obtain rfl : ts = ts' := htags
  obtain rfl : fs = fs' := hfields
  rfl

theorem isCanonical_ofUnordered (measurement : String) (htags : Enumerates tagMap tags)
    (hfields : Enumerates fieldMap fields.entries) (timestamp : Nanos) :
    IsCanonical measurement tagMap fieldMap timestamp
      (ofUnordered measurement tags fields timestamp) where
  measurement_eq := rfl
  timestamp_eq := rfl
  tags := htags.of_perm (List.mergeSort_perm _ _).symm
  tags_ascending := ascendingKeys_mergeSort htags.nodup_keys
  fields := hfields.of_perm (List.mergeSort_perm _ _).symm
  fields_ascending := ascendingKeys_mergeSort fields.nodup_keys

/-! ## Building in the order of the keys -/

/-- The steps push the entries of one map and write those of the other, each in ascending order of
the keys. -/
structure InKeyOrder (tagMap : String → Option String) (fieldMap : String → Option FieldValue)
    (edits : List Edit) : Prop where
  tags : Enumerates tagMap (pushed edits)
  tags_ascending : AscendingKeys (pushed edits)
  fields : Enumerates fieldMap (written edits)
  fields_ascending : AscendingKeys (written edits)

/-- Writing fields in the order of their distinct keys adds each one at the end. -/
theorem InKeyOrder.isCanonical_built (h : InKeyOrder tagMap fieldMap edits) (measurement : String)
    (timestamp : Nanos) : IsCanonical measurement tagMap fieldMap timestamp
      ((built measurement edits).withTimestamp timestamp) := by
  have hentries := Fields.entries_ofList h.fields.nodup_keys
  rw [built_eq]
  refine ⟨rfl, rfl, h.tags, h.tags_ascending, ?_, ?_⟩
  · show Enumerates fieldMap (Fields.ofList (written edits)).entries
    rw [hentries]
    exact h.fields
  · show AscendingKeys (Fields.ofList (written edits)).entries
    rw [hentries]
    exact h.fields_ascending

/-- The steps that push the tags of a record and then write its fields, as they stand. -/
def toEdits (r : Record) : List Edit :=
  r.tags.map (fun tag => .tag tag.1 tag.2) ++
    r.fields.entries.map fun field => .field field.1 field.2

theorem pushed_toEdits (r : Record) : pushed r.toEdits = r.tags := by
  simp [toEdits, pushed, List.filterMap_map, Function.comp_def, Edit.tag?]

theorem written_toEdits (r : Record) : written r.toEdits = r.fields.entries := by
  simp [toEdits, written, List.filterMap_map, Function.comp_def, Edit.field?]

theorem IsCanonical.inKeyOrder (h : IsCanonical measurement tagMap fieldMap timestamp r) :
    InKeyOrder tagMap fieldMap r.toEdits where
  tags := by rw [pushed_toEdits]; exact h.tags
  tags_ascending := by rw [pushed_toEdits]; exact h.tags_ascending
  fields := by rw [written_toEdits]; exact h.fields
  fields_ascending := by rw [written_toEdits]; exact h.fields_ascending

/-! ## Maps in any order -/

/-- Whatever order the entries of two maps come in, they make one record, and one line. It holds
them in ascending order of their keys, each once, and it is the record that is built from them in
that order. -/
theorem ofUnordered_canonical (htags : Enumerates tagMap tags) (htags' : Enumerates tagMap tags')
    (hfields : Enumerates fieldMap fields.entries) (hfields' : Enumerates fieldMap fields'.entries)
    (measurement : String) (timestamp : Nanos) :
    ofUnordered measurement tags fields timestamp =
        ofUnordered measurement tags' fields' timestamp ∧
      Line.encode (ofUnordered measurement tags fields timestamp) =
        Line.encode (ofUnordered measurement tags' fields' timestamp) ∧
      IsCanonical measurement tagMap fieldMap timestamp
        (ofUnordered measurement tags fields timestamp) ∧
      (∃ edits, InKeyOrder tagMap fieldMap edits) ∧
      ∀ edits, InKeyOrder tagMap fieldMap edits →
        ofUnordered measurement tags fields timestamp =
          (built measurement edits).withTimestamp timestamp := by
  have hcanonical := isCanonical_ofUnordered measurement htags hfields timestamp
  have hcanonical' := isCanonical_ofUnordered measurement htags' hfields' timestamp
  have heq := hcanonical.eq hcanonical'
  refine ⟨heq, congrArg Line.encode heq, hcanonical, ⟨_, hcanonical.inKeyOrder⟩, fun edits h => ?_⟩
  exact hcanonical.eq (h.isCanonical_built measurement timestamp)

/-- Tags under three keys, one of them not in ASCII. -/
def rackTags : List (String × String) := [("é", "x"), ("zone", "a b"), ("host", "web")]

/-- Fields under two keys. -/
def rackFields : List (String × FieldValue) :=
  [("temp", ⟨.float, "1.5"⟩), ("load", ⟨.integer, "2i"⟩)]

/-- Steps that push the tags and write the fields, each in the order of their keys. -/
def rackEdits : List Edit :=
  [.field "load" ⟨.integer, "2i"⟩, .tag "host" "web", .tag "zone" "a b", .tag "é" "x",
    .field "temp" ⟨.float, "1.5"⟩]

theorem enumerates_rackTags : Enumerates (lookup rackTags) rackTags :=
  enumerates_lookup (by decide)

theorem enumerates_rackFields : Enumerates (lookup rackFields) rackFields :=
  enumerates_lookup (by decide)

theorem inKeyOrder_rack : InKeyOrder (lookup rackTags) (lookup rackFields) rackEdits where
  tags := enumerates_rackTags.of_perm (by decide)
  tags_ascending := by decide +kernel
  fields := enumerates_rackFields.of_perm (by decide)
  fields_ascending := by decide +kernel

theorem ofUnordered_canonical_rack :
    Enumerates (lookup rackTags) rackTags ∧ Enumerates (lookup rackTags) rackTags.reverse ∧
      Enumerates (lookup rackFields) (Fields.ofList rackFields).entries ∧
      Enumerates (lookup rackFields) (Fields.ofList rackFields.reverse).entries ∧
      InKeyOrder (lookup rackTags) (lookup rackFields) rackEdits ∧
      ofUnordered "rack" rackTags (.ofList rackFields) .minute =
        ofUnordered "rack" rackTags.reverse (.ofList rackFields.reverse) .minute ∧
      ofUnordered "rack" rackTags (.ofList rackFields) .minute =
        (built "rack" rackEdits).withTimestamp .minute := by
  have htags := enumerates_rackTags.of_perm (List.reverse_perm rackTags).symm
  have hfields : Enumerates (lookup rackFields) (Fields.ofList rackFields).entries :=
    enumerates_rackFields.of_perm (by decide)
  have hfields' : Enumerates (lookup rackFields) (Fields.ofList rackFields.reverse).entries :=
    enumerates_rackFields.of_perm (by decide)
  obtain ⟨heq, -, -, -, hbuilt⟩ :=
    ofUnordered_canonical enumerates_rackTags htags hfields hfields' "rack" .minute
  exact ⟨enumerates_rackTags, htags, hfields, hfields', inKeyOrder_rack, heq,
    hbuilt _ inKeyOrder_rack⟩

end Record
end TimeSeries
