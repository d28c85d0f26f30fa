/-
# TimeSeries.Record — what one line says: a measurement, its tags, its fields and a time.

Tags stay as they were written, repeated keys included, and a look-up finds the last of them.
Field keys are distinct: writing a key again replaces its value and keeps its place.
-/
import TimeSeries.FieldValue

namespace TimeSeries

/-! ## Fields in the order of their first writing -/

/-- Field values under distinct keys, in the order in which the keys were first written. -/
structure Fields where
  entries : List (String × FieldValue)
  nodup_keys : (entries.map Prod.fst).Nodup
deriving DecidableEq

namespace Fields

/-- No fields. -/
def empty : Fields := ⟨[], .nil⟩

/-- The keys in order. -/
def keys (f : Fields) : List String := f.entries.map Prod.fst

/-- The value under a key. -/
def get? (f : Fields) (key : String) : Option FieldValue :=
  (f.entries.find? (·.1 == key)).map Prod.snd

/-- Puts a value under a key: in place of the key's value, or at the end. -/
def insertEntry (key : String) (value : FieldValue) :
    List (String × FieldValue) → List (String × FieldValue)
  | [] => [(key, value)]
  | (k, v) :: rest => if k = key then (k, value) :: rest else (k, v) :: insertEntry key value rest

theorem mem_keys_insertEntry {key k : String} {value : FieldValue}
    {es : List (String × FieldValue)} :
    k ∈ (insertEntry key value es).map Prod.fst ↔ k = key ∨ k ∈ es.map Prod.fst := by
  induction es with
  | nil => simp [insertEntry]
  | cons e es ih =>
    by_cases h : e.1 = key <;> simp only [insertEntry, h, if_true, if_false, List.map_cons,
      List.mem_cons, ih] <;> grind

theorem nodup_keys_insertEntry {key : String} {value : FieldValue}
    {es : List (String × FieldValue)} (h : (es.map Prod.fst).Nodup) :
    ((insertEntry key value es).map Prod.fst).Nodup := by
  induction es with
  | nil => simp [insertEntry]
  | cons e es ih =>
    simp only [List.map_cons, List.nodup_cons] at h
    by_cases hk : e.1 = key
    · simp only [insertEntry, hk, if_true, List.map_cons, List.nodup_cons]
      exact ⟨hk ▸ h.1, h.2⟩
    · simp only [insertEntry, hk, if_false, List.map_cons, List.nodup_cons,
        mem_keys_insertEntry, not_or]
      exact ⟨⟨not_false, h.1⟩, ih h.2⟩

/-- Puts a value under a key; a key that is there keeps its place. -/
def insert (f : Fields) (key : String) (value : FieldValue) : Fields :=
  ⟨insertEntry key value f.entries, nodup_keys_insertEntry f.nodup_keys⟩

/-- The fields written by a list of pairs, from left to right. -/
def ofList (pairs : List (String × FieldValue)) : Fields :=
  pairs.foldl (fun f (key, value) => f.insert key value) empty

/-- The same fields in ascending order of their keys. -/
def sorted (f : Fields) : Fields where
  entries := f.entries.mergeSort (fun a b => decide (a.1 ≤ b.1))
  nodup_keys := ((List.mergeSort_perm _ _).map Prod.fst).nodup_iff.2 f.nodup_keys

end Fields

/-! ## Records -/

/-- One line: a measurement, tags, fields and a timestamp, which is zero when none was given. -/
structure Record where
  measurement : String
  tags : List (String × String)
  fields : Fields
  timestamp : Nanos
deriving DecidableEq

namespace Record

/-- The record of a measurement with no tags, no fields and no time. -/
def empty (measurement : String) : Record := ⟨measurement, [], .empty, .zero⟩

/-- Adds a tag after the others. -/
def pushTag (r : Record) (key value : String) : Record :=
  { r with tags := r.tags ++ [(key, value)] }

/-- Writes a field. -/
def insertField (r : Record) (key : String) (value : FieldValue) : Record :=
  { r with fields := r.fields.insert key value }

/-- Sets the time. -/
def withTimestamp (r : Record) (timestamp : Nanos) : Record := { r with timestamp }

/-- The value of a tag; the last one written counts. -/
def tag? (r : Record) (key : String) : Option String :=
  (r.tags.reverse.find? (·.1 == key)).map Prod.snd

/-- The value of a field. -/
def field? (r : Record) (key : String) : Option FieldValue := r.fields.get? key

/-- A timestamp was given. -/
def hasTimestamp (r : Record) : Bool := r.timestamp ≠ .zero

/-- The record of tags and fields that come in no order of their own: both are put in ascending
order of their keys. -/
def ofUnordered (measurement : String) (tags : List (String × String)) (fields : Fields)
    (timestamp : Nanos) : Record :=
  ⟨measurement, tags.mergeSort (fun a b => decide (a.1 ≤ b.1)), fields.sorted, timestamp⟩

end Record
end TimeSeries
