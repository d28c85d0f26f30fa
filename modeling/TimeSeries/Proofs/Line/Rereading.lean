/-
# TimeSeries.Proofs.Line.Rereading — records that were read, written and read again.

Writing chooses quotes anew, by separators alone. A measurement or tag value that stood between
quotes without need is written bare, where a quote or blanks at its ends count; a string after
blanks is written without them, where its first quote opens a token. So a record that was read need
not come back, and `decode_encode_of_decode_iff` says exactly when it does.
-/
import TimeSeries.Proofs.Line.RoundTrip

namespace TimeSeries.Line

open Text (trim StartsSolid EndsSolid)

variable {s : List Char} {r : Record} {p : List Char × List Char}

/-! ## Parts that were read -/

theorem WritesMeasurement.keepsMeasurement_iff {m : List Char} (h : WritesMeasurement m s) :
    KeepsMeasurement s ↔ (IsBare s → s.head? ≠ some '"' ∧ StartsSolid s) := by
  refine ⟨fun hs => hs.bare, fun hs => ⟨h.ne_nil, fun hbare => ?_, hs⟩⟩
  obtain ⟨-, ⟨-, -, hbare'⟩ | ⟨-, hlast⟩⟩ := writesMeasurement_iff.mp h
  · exact absurd hbare' hbare
  · exact hlast

/-- The quote that closes a token is lost only when it ends the value. -/
theorem quote_mem_unquote {c t : List Char} (ht : t ≠ []) : '"' ∈ unquote (quoted c ++ t) := by
  obtain ⟨t, x, rfl⟩ := (List.eq_nil_or_concat t).resolve_left ht
  unfold unquote
  split
  · rw [quoted_append, List.tail_cons, List.concat_eq_append, ← List.cons_append,
      ← List.append_assoc, List.dropLast_concat]
    exact List.mem_append_right _ List.mem_cons_self
  · exact List.mem_append_left _ List.mem_cons_self

/-- A tag value with separators and no quotes is what stands between the quotes of a token. -/
theorem isContent_of_unquote_trim {v : List Char} (hv : IsValue v) (hs : unquote (trim v) = s)
    (hbare : ¬ IsBare s) (hquote : '"' ∉ s) : IsContent s := by
  cases hv with
  | bare _ hv =>
    refine absurd (hv.of_subset ?_) hbare
    rw [← hs]
    exact ((unquote_sublist _).trans (Text.trim_sublist v)).subset
  | @quoted c t hc _ =>
    rw [Text.trim_append quoted_ne_nil startsSolid_quoted endsSolid_quoted] at hs
    by_cases htail : Text.stripEnd Text.isBlank t = []
    · rw [htail, List.append_nil, unquote_quoted] at hs
      rwa [← hs]
    · rw [← hs] at hquote
      exact absurd (quote_mem_unquote htail) hquote

theorem WritesTag.keepsTagValue_iff {tag : String × String} (h : WritesTag p tag)
    (hquote : '"' ∉ tag.2.toList) :
    KeepsTagValue tag.2.toList ↔ (IsBare tag.2.toList → trim tag.2.toList = tag.2.toList) := by
  constructor
  · intro hkeeps hbare
    exact (hkeeps.bare hbare).1
  · intro htrim
    refine ⟨h.value_ne, fun hbare => ⟨hquote, ?_⟩, fun hbare => ⟨htrim hbare, fun hhead => ?_⟩⟩
    · exact (isContent_of_unquote_trim h.value h.value_eq hbare hquote).ending
    · exact absurd (List.mem_of_mem_head? hhead) hquote

theorem WritesField.keepsFieldValue_iff {field : String × FieldValue} (h : WritesField p field) :
    KeepsFieldValue field.2 ↔ (field.2.type = .string → IsValue field.2.literal.toList) :=
  ⟨KeepsFieldValue.value, fun hvalue => ⟨FieldValue.classify_literal h.value_eq, hvalue⟩⟩

/-! ## Records that were read -/

/-- Nothing in a record needs quotes that it is not written with: bare measurements start with
neither a quote nor a blank, bare tag values are trimmed, and a string is a token. -/
structure NeedsNoQuotes (r : Record) : Prop where
  measurement : IsBare r.measurement.toList →
    r.measurement.toList.head? ≠ some '"' ∧ StartsSolid r.measurement.toList
  tags : ∀ tag ∈ r.tags, IsBare tag.2.toList → trim tag.2.toList = tag.2.toList
  fields : ∀ field ∈ r.fields.entries,
    field.2.type = .string → IsValue field.2.literal.toList

theorem WrittenLine.Writes.readsBack_iff {w : WrittenLine} (h : w.Writes r)
    (htime : 0 ≤ r.timestamp.toInt) (hquotes : ∀ tag ∈ r.tags, '"' ∉ tag.2.toList) :
    ReadsBack r ↔ NeedsNoQuotes r := by
  constructor
  · intro hback
    exact {
      measurement := hback.measurement.bare
      tags := fun tag htag hbare => ((hback.tags tag htag).2.bare hbare).1
      fields := fun field hfield => (hback.fields field hfield).2.value }
  · intro hneeds
    refine ⟨h.measurement.keepsMeasurement_iff.mpr hneeds.measurement, fun tag htag => ?_,
      h.entries_ne_nil, fun field hfield => ?_, htime⟩
    · obtain ⟨p, hp⟩ := h.exists_writesTag htag
      exact ⟨hp.keepsKey, (hp.keepsTagValue_iff (hquotes tag htag)).mpr (hneeds.tags tag htag)⟩
    · obtain ⟨p, hp⟩ := h.exists_writesField hfield
      exact ⟨hp.keepsKey, hp.keepsFieldValue_iff.mpr (hneeds.fields field hfield)⟩

/-- A record that was read, with no quote in a tag value and a timestamp that is not negative, comes
back from its own line exactly when nothing in it needs quotes that it is not written with. -/
theorem decode_encode_of_decode_iff {line : String} {r : Record} (h : decode line = .ok r)
    (htime : 0 ≤ r.timestamp.toInt) (hquotes : ∀ tag ∈ r.tags, '"' ∉ tag.2.toList) :
    decode (encode r) = .ok r ↔ NeedsNoQuotes r := by
  obtain ⟨w, -, hw⟩ := decodeTrimmed_eq_ok_iff.mp h
  rw [← hw.readsBack_iff htime hquotes]
  exact ⟨ReadsBack.of_decode_encode, ReadsBack.decode_encode⟩

/-- A record whose measurement and tag value hold spaces. -/
def spaced : Record where
  measurement := "a b"
  tags := [("k", "c d")]
  fields := ⟨[("f", ⟨.string, "\"x,y\""⟩)], by decide⟩
  timestamp := ⟨5, by decide, by decide⟩

theorem decode_encode_spaced :
    decode "\"a b\",k=\"c d\" f=\"x,y\" 5" = .ok spaced ∧ 0 ≤ spaced.timestamp.toInt ∧
      (∀ tag ∈ spaced.tags, '"' ∉ tag.2.toList) ∧ decode (encode spaced) = .ok spaced := by
  have h : decode "\"a b\",k=\"c d\" f=\"x,y\" 5" = .ok spaced :=
    Outcome.toOption_eq_some_iff.mp (by decide +kernel)
  have hquotes : ∀ tag ∈ spaced.tags, '"' ∉ tag.2.toList := by decide
  refine ⟨h, by decide, hquotes, (decode_encode_of_decode_iff h (by decide) hquotes).mpr ?_⟩
  have hbare : ¬ IsBare spaced.measurement.toList := by decide
  refine ⟨fun hm => absurd hm hbare, by decide, fun field hfield _ => ?_⟩
  obtain rfl := List.mem_singleton.mp hfield
  have hcontent : IsContent "x,y".toList := by
    rw [← escape_eq_self_iff.mpr (show '"' ∉ "x,y".toList by decide)]
    exact isContent_escape_iff.mpr (by decide)
  exact .quoted hcontent IsBare.nil

/-- A measurement that was read from between quotes, where the blank at its start counts. -/
def tabbed : Record where
  measurement := "\tcpu"
  tags := []
  fields := ⟨[("v", ⟨.float, "1"⟩)], by decide⟩
  timestamp := .zero

/-- Not every record that was read comes back: a blank that stood between quotes is stripped. -/
theorem not_decode_encode_of_decode :
    ¬ ∀ (line : String) (r : Record), decode line = .ok r → 0 ≤ r.timestamp.toInt →
      (∀ tag ∈ r.tags, '"' ∉ tag.2.toList) → decode (encode r) = .ok r := by
  intro hall
  -- The record is written as a line that starts with the tab, and so read without it.
  have hread : decode "\"\tcpu\" v=1" = .ok tabbed :=
    Outcome.toOption_eq_some_iff.mp (by decide +kernel)
  have hback := hall _ tabbed hread (by decide) (by decide)
  exact absurd (Outcome.toOption_eq_some_iff.mpr hback) (by decide +kernel)

end TimeSeries.Line
