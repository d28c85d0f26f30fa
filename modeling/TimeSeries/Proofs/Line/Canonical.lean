/-
# TimeSeries.Proofs.Line.Canonical — lines that are written again byte for byte.

A line has many spellings: blanks around it, quotes that are not needed, a plus sign before its
timestamp. One of them is the canonical one, and it is described here by its tokens alone
(`WrittenLine.IsCanonical`): quotes stand where a separator asks for them, keys and bare values have
no blanks at their ends, a timestamp is positive and written in its fewest digits. Such a line is
read, and the record that it gives is written as the line itself (`exists_decode_encode_eq`). So
escaping what was unescaped changes nothing, and neither does choosing quotes anew.
-/
import TimeSeries.Proofs.Line.RoundTrip

namespace TimeSeries.Line

open Text (trim StartsSolid)

variable {s m v t : List Char} {w : WrittenLine}

/-! ## Canonical tokens -/

/-- A measurement stands bare, or between quotes that a separator asks for. -/
inductive CanonicalMeasurement : List Char → Prop
  | bare {m : List Char} (ne : m ≠ []) (bare : IsBare m) (head : m.head? ≠ some '"')
      (starts : StartsSolid m) : CanonicalMeasurement m
  | quoted {c : List Char} (content : IsContent c) (separated : ¬ IsBare c) :
      CanonicalMeasurement (Line.quoted c)

/-- A tag value stands bare, or between quotes that a separator asks for. It has no quotes of its
own, for the reader would leave their backslashes in. -/
inductive CanonicalTagValue : List Char → Prop
  | bare {v : List Char} (ne : v ≠ []) (bare : IsBare v) (trimmed : trim v = v)
      (head : v.head? ≠ some '"') : CanonicalTagValue v
  | quoted {c : List Char} (separated : ¬ IsBare c) (quotes : '"' ∉ c)
      (ending : c.getLast? ≠ some '\\') : CanonicalTagValue (Line.quoted c)

/-- A literal is accepted as it stands, and a string is one quoted token. -/
def CanonicalLiteral (v : List Char) : Prop :=
  ∃ value, FieldValue.classify (String.ofList v) = .ok value ∧ value.literal.toList = v ∧
    (value.type = .string → ∃ c, IsContent c ∧ v = quoted c)

/-- A timestamp is the digits of a count that fits, the first of which is no zero. -/
structure CanonicalTimestamp (t : List Char) : Prop where
  ne : t ≠ []
  digits : ∀ c ∈ t, c.isDigit = true
  head : t.head? ≠ some '0'
  fits : Nat.ofDigitChars 10 t 0 < 2 ^ 63

/-- Every token is canonical, and no field key is written twice. -/
structure WrittenLine.IsCanonical (w : WrittenLine) : Prop where
  measurement : CanonicalMeasurement w.measurement
  tags : ∀ p ∈ w.tags, KeepsKey p.1 ∧ CanonicalTagValue p.2
  fields_ne : w.fields ≠ []
  fields : ∀ p ∈ w.fields, KeepsKey p.1 ∧ CanonicalLiteral p.2
  nodup_keys : (w.fields.map Prod.fst).Nodup
  timestamp : ∀ t ∈ w.timestamp, CanonicalTimestamp t

/-- The line is the text of canonical tokens. -/
def IsCanonicalLine (line : String) : Prop := ∃ w : WrittenLine, w.IsCanonical ∧ w.text = line.toList

/-! ## What they are written from -/

/-- The quotes around a measurement are put back where they were taken off, and so are the
backslashes inside. -/
theorem CanonicalMeasurement.exists_encodeText (h : CanonicalMeasurement m) :
    ∃ s, KeepsMeasurement s ∧ encodeText s = m := by
  cases h with
  | bare ne bare head starts =>
    exact ⟨m, ⟨ne, absurd bare, fun _ => ⟨head, starts⟩⟩, encodeText_of_isBare bare⟩
  | @quoted c content separated =>
    have hescape := escape_unescape content
    have hbare : ¬ IsBare (unescape c) := by
      rwa [← isBare_escape_iff, hescape]
    have hlast : (unescape c).getLast? ≠ some '\\' := by
      rw [← isContent_escape_iff, hescape]
      exact content
    have hne : unescape c ≠ [] := by
      intro hnil
      rw [hnil] at hbare
      exact hbare IsBare.nil
    refine ⟨unescape c, ⟨hne, fun _ => hlast, fun h => absurd h hbare⟩, ?_⟩
    rw [encodeText_of_not_isBare hbare, hescape]

theorem CanonicalTagValue.exists_encodeText (h : CanonicalTagValue v) :
    ∃ s, KeepsTagValue s ∧ encodeText s = v := by
  cases h with
  | bare ne bare trimmed head =>
    exact ⟨v, ⟨ne, absurd bare, fun _ => ⟨trimmed, fun hhead => absurd hhead head⟩⟩,
      encodeText_of_isBare bare⟩
  | @quoted c separated quotes ending =>
    have hne : c ≠ [] := by
      rintro rfl
      exact separated IsBare.nil
    refine ⟨c, ⟨hne, fun _ => ⟨quotes, ending⟩, fun h => absurd h separated⟩, ?_⟩
    rw [encodeText_of_not_isBare separated, escape_eq_self_iff.mpr quotes]

theorem CanonicalLiteral.exists_value (h : CanonicalLiteral v) :
    ∃ value : FieldValue, KeepsFieldValue value ∧ value.literal.toList = v := by
  obtain ⟨value, hclass, hliteral, hstring⟩ := h
  refine ⟨value, ⟨FieldValue.classify_literal hclass, fun htype => ?_⟩, hliteral⟩
  obtain ⟨c, hc, rfl⟩ := hstring htype
  rw [hliteral, ← List.append_nil (quoted c)]
  exact .quoted hc IsBare.nil

/-- A count is written in the digits that it was read from. -/
theorem CanonicalTimestamp.exists_text (h : CanonicalTimestamp t) :
    ∃ n : Nanos, 0 < n.toInt ∧ n.text.toList = t := by
  have hdigits := Decimal.toDigits_ofDigitChars h.ne h.digits h.head
  have hfits : (Nat.ofDigitChars 10 t 0 : Int) ≤ 9223372036854775807 := by
    have := h.fits
    omega
  refine ⟨⟨Nat.ofDigitChars 10 t 0, by omega, hfits⟩, ?_, ?_⟩
  · exact Int.natCast_pos.mpr (Decimal.ofDigitChars_pos h.ne h.digits h.head)
  · rw [Nanos.toList_text rfl, hdigits]

/-! ## Lines -/

/-- Tokens that each come from something come from a list of such things. -/
theorem exists_map_eq {α β : Type} {P : α → Prop} {f : α → β} {bs : List β}
    (h : ∀ b ∈ bs, ∃ a, P a ∧ f a = b) : ∃ as : List α, (∀ a ∈ as, P a) ∧ as.map f = bs := by
  induction bs with
  | nil => exact ⟨[], fun a ha => absurd ha List.not_mem_nil, rfl⟩
  | cons b bs ih =>
    rw [List.forall_mem_cons] at h
    obtain ⟨a, ha, rfl⟩ := h.1
    obtain ⟨as, has, rfl⟩ := ih h.2
    exact ⟨a :: as, List.forall_mem_cons.mpr ⟨ha, has⟩, rfl⟩

theorem exists_writtenTag {p : List Char × List Char} (h : KeepsKey p.1 ∧ CanonicalTagValue p.2) :
    ∃ tag : String × String,
      (KeepsKey tag.1.toList ∧ KeepsTagValue tag.2.toList) ∧ writtenTag tag = p := by
  obtain ⟨s, hs, hencode⟩ := h.2.exists_encodeText
  refine ⟨(String.ofList p.1, String.ofList s), ?_, ?_⟩
  · rw [String.toList_ofList, String.toList_ofList]
    exact ⟨h.1, hs⟩
  · rw [writtenTag, String.toList_ofList, String.toList_ofList, hencode]

theorem exists_writtenField {p : List Char × List Char} (h : KeepsKey p.1 ∧ CanonicalLiteral p.2) :
    ∃ field : String × FieldValue,
      (KeepsKey field.1.toList ∧ KeepsFieldValue field.2) ∧ writtenField field = p := by
  obtain ⟨value, hvalue, hliteral⟩ := h.2.exists_value
  refine ⟨(String.ofList p.1, value), ?_, ?_⟩
  · rw [String.toList_ofList]
    exact ⟨h.1, hvalue⟩
  · rw [writtenField, String.toList_ofList, hliteral]

theorem exists_writtenTimestamp {stamp : Option (List Char)}
    (h : ∀ t ∈ stamp, CanonicalTimestamp t) :
    ∃ n : Nanos, 0 ≤ n.toInt ∧ writtenTimestamp n = stamp := by
  cases stamp with
  | none => exact ⟨.zero, Int.le_refl 0, rfl⟩
  | some t =>
    obtain ⟨n, hpos, rfl⟩ := (h t rfl).exists_text
    exact ⟨n, Int.le_of_lt hpos, if_pos hpos⟩

/-- Canonical tokens are the tokens that a record is written as, and the record comes back. -/
theorem WrittenLine.IsCanonical.exists_written (h : w.IsCanonical) :
    ∃ r, ReadsBack r ∧ written r = w := by
  obtain ⟨name, hname, hm⟩ := h.measurement.exists_encodeText
  obtain ⟨tags, htags, htags_eq⟩ := exists_map_eq fun p hp => exists_writtenTag (h.tags p hp)
  obtain ⟨fields, hfields, hfields_eq⟩ :=
    exists_map_eq fun p hp => exists_writtenField (h.fields p hp)
  obtain ⟨n, hn, ht⟩ := exists_writtenTimestamp h.timestamp
  -- Keys that differ as they are written differ as texts, so every field keeps its place.
  have hnodup : (fields.map Prod.fst).Nodup := by
    have hkeys := h.nodup_keys
    rw [← hfields_eq, List.map_map, show Prod.fst ∘ writtenField = String.toList ∘ Prod.fst from rfl,
      ← List.map_map] at hkeys
    exact hkeys.of_map _
  refine ⟨⟨String.ofList name, tags, ⟨fields, hnodup⟩, n⟩, ⟨?_, htags, ?_, hfields, hn⟩, ?_⟩
  · rwa [String.toList_ofList]
  · rintro rfl
    exact h.fields_ne hfields_eq.symm
  · rw [written, String.toList_ofList, hm, htags_eq, hfields_eq, ht]

/-- A canonical line is read, and the record that it gives is written as that very line. -/
theorem exists_decode_encode_eq {line : String} (h : IsCanonicalLine line) :
    ∃ r, decode line = .ok r ∧ encode r = line := by
  obtain ⟨w, hw, htext⟩ := h
  obtain ⟨r, hr, hwritten⟩ := hw.exists_written
  have hline : encode r = line := by
    rw [← String.toList_inj, toList_encode hr.fields_ne, hwritten, htext]
  refine ⟨r, ?_, hline⟩
  rw [← hline]
  exact hr.decode_encode

/-- The tokens of a line with quotes of every kind: escaped ones in the measurement, quotes around a
tag value, and a string that ends with an escaped quote. -/
def rack : WrittenLine where
  measurement := quoted (escape "rack \"7\", row 2".toList)
  tags := [("room".toList, quoted "east wing".toList), ("unit".toList, "°C".toList)]
  fields := [("note".toList, quoted (escape "said \"ok\"".toList)), ("up".toList, "true".toList)]
  timestamp := some "1700".toList

theorem isCanonical_rack : rack.IsCanonical where
  measurement := .quoted (isContent_escape_iff.mpr (by decide)) (by decide)
  tags := by
    have hroom : KeepsKey "room".toList := ⟨by decide, by decide, by decide, by decide⟩
    have hunit : KeepsKey "unit".toList := ⟨by decide, by decide, by decide, by decide⟩
    rw [rack, List.forall_mem_cons, List.forall_mem_singleton]
    exact ⟨⟨hroom, .quoted (by decide) (by decide) (by decide)⟩,
      hunit, .bare (by decide) (by decide) (by decide) (by decide)⟩
  fields_ne := List.cons_ne_nil _ _
  fields := by
    have hnote : KeepsKey "note".toList := ⟨by decide, by decide, by decide, by decide⟩
    have hup : KeepsKey "up".toList := ⟨by decide, by decide, by decide, by decide⟩
    have hclass : FieldValue.classify "\"said \\\"ok\\\"\"" =
        .ok ⟨.string, "\"said \\\"ok\\\"\""⟩ := by decide
    rw [rack, List.forall_mem_cons, List.forall_mem_singleton]
    refine ⟨⟨hnote, _, hclass, by decide, fun _ => ?_⟩, hup, ⟨.boolean, "true"⟩, by decide,
      by decide, fun htype => nomatch htype⟩
    exact ⟨_, isContent_escape_iff.mpr (by decide), rfl⟩
  nodup_keys := by decide
  timestamp := by
    rintro t ⟨⟩
    exact ⟨by decide, List.all_eq_true.mp (by decide), by decide, by decide⟩

/-- The line with these tokens. -/
def rackLine : String :=
  "\"rack \\\"7\\\", row 2\",room=\"east wing\",unit=°C note=\"said \\\"ok\\\"\",up=true " ++
    "1700"

theorem exists_decode_encode_eq_rack :
    IsCanonicalLine rackLine ∧ ∃ r, decode rackLine = .ok r ∧ encode r = rackLine := by
  have h : IsCanonicalLine rackLine := ⟨rack, isCanonical_rack, by decide +kernel⟩
  exact ⟨h, exists_decode_encode_eq h⟩

end TimeSeries.Line
