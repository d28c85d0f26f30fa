/-
# TimeSeries.Proofs.Line.Encoded — what a record is written as, and which of its parts come back.

A record is written as tokens of its own (`written`). For each part there is a condition, and the
part's token writes the part exactly when the condition holds: a trailing backslash would swallow
the closing quote, the tag reader keeps the backslashes that it finds, and every part but a quoted
one loses the blanks at its ends.
-/
import TimeSeries.Line.Encode
import TimeSeries.Proofs.FieldValue
import TimeSeries.Proofs.Line.Grammar

namespace TimeSeries.Line

open Text (trim StartsSolid EndsSolid)

variable {s t k v c rest : List Char}

/-! ## The tokens of a record -/

/-- The tokens of a tag. -/
def writtenTag (tag : String × String) : List Char × List Char :=
  (tag.1.toList, encodeText tag.2.toList)

/-- The tokens of a field. -/
def writtenField (field : String × FieldValue) : List Char × List Char :=
  (field.1.toList, field.2.literal.toList)

/-- The token of a timestamp, if there is one. -/
def writtenTimestamp (n : Nanos) : Option (List Char) :=
  if 0 < n.toInt then some n.text.toList else none

/-- The tokens of a record. -/
def written (r : Record) : WrittenLine where
  measurement := encodeText r.measurement.toList
  tags := r.tags.map writtenTag
  fields := r.fields.entries.map writtenField
  timestamp := writtenTimestamp r.timestamp

/-- A record with fields is written as the text of its tokens. -/
theorem toList_encode {r : Record} (hne : r.fields.entries ≠ []) :
    (encode r).toList = (written r).text := by
  obtain ⟨field, fields, hfields⟩ := List.exists_cons_of_ne_nil hne
  have htags : r.tags.flatMap encodeTag = pairsText (r.tags.map writtenTag) := by
    rw [pairsText, List.flatMap_map]
    rfl
  have hrest : fields.flatMap (',' :: encodeField ·) = pairsText (fields.map writtenField) := by
    rw [pairsText, List.flatMap_map]
    rfl
  have hbody : encodeFields r.fields.entries =
      ' ' :: fieldsText (r.fields.entries.map writtenField) := by
    rw [hfields, encodeFields, hrest]
    rfl
  have hstamp : encodeTimestamp r.timestamp = stampText (writtenTimestamp r.timestamp) := by
    rw [encodeTimestamp, writtenTimestamp]
    split <;> rfl
  rw [encode, String.toList_ofList, htags, hbody, hstamp]
  show _ = encodeText r.measurement.toList ++ (pairsText (r.tags.map writtenTag) ++ ' ' ::
    (fieldsText (r.fields.entries.map writtenField) ++ stampText (writtenTimestamp r.timestamp)))
  rw [List.append_assoc, List.append_assoc, List.cons_append]

theorem encodeText_of_isBare (h : IsBare s) : encodeText s = s := by
  have hany : ¬ s.any endsValue = true := by
    rw [List.any_eq_true]
    rintro ⟨x, hx, hends⟩
    rw [isBare_iff.mp h x hx] at hends
    cases hends
  rw [encodeText, if_neg hany]

theorem encodeText_of_not_isBare (h : ¬ IsBare s) : encodeText s = quoted (escape s) := by
  have hany : s.any endsValue = true := by
    by_contra hany
    refine h (isBare_iff.mpr fun x hx => ?_)
    rw [List.any_eq_true] at hany
    exact Bool.eq_false_iff.mpr fun hends => hany ⟨x, hx, hends⟩
  rw [encodeText, if_pos hany]
  rfl

/-! ## Dropping quotes -/

theorem unquote_quoted : unquote (quoted c) = c := by
  rw [unquote, if_pos ⟨by rw [length_quoted]; omega, rfl, by rw [quoted, List.getLast?_concat]⟩]
  rw [quoted, List.cons_append, List.tail_cons, List.dropLast_concat]

theorem unquote_sublist (s : List Char) : (unquote s).Sublist s := by
  unfold unquote
  split
  · exact (List.dropLast_sublist _).trans (List.tail_sublist _)
  · exact List.Sublist.refl _

theorem unquote_eq_self_iff :
    unquote s = s ↔ ¬ (2 ≤ s.length ∧ s.head? = some '"' ∧ s.getLast? = some '"') := by
  unfold unquote
  split
  · rename_i h
    refine ⟨fun he => ?_, fun hn => absurd h hn⟩
    -- Two characters are gone.
    have hlen := congrArg List.length he
    rw [List.length_dropLast, List.length_tail] at hlen
    omega
  · rename_i h
    exact ⟨fun _ => h, fun _ => rfl⟩

/-- Neither trimming nor dropping quotes makes up for the other. -/
theorem unquote_trim_eq_self_iff : unquote (trim s) = s ↔ trim s = s ∧ unquote s = s := by
  constructor
  · intro h
    -- Both only ever drop characters, so nothing is dropped by either.
    have hlen := (unquote_sublist (trim s)).length_le
    rw [h] at hlen
    have htrim := Text.trim_eq_self_of_length_le hlen
    rw [htrim] at h
    exact ⟨htrim, h⟩
  · rintro ⟨htrim, hunquote⟩
    rw [htrim, hunquote]

/-- Nothing that stands between the quotes at the start of a value is lost. -/
theorem sublist_unquote_quoted_append (c t : List Char) :
    c.Sublist (unquote (trim (quoted c ++ t))) := by
  rw [Text.trim_append quoted_ne_nil startsSolid_quoted endsSolid_quoted]
  generalize Text.stripEnd Text.isBlank t = t
  -- The quote that is dropped from the end is the closing one, or one that stands behind it.
  unfold unquote
  split
  · rw [quoted_append, List.tail_cons]
    rcases List.eq_nil_or_concat t with rfl | ⟨t, x, rfl⟩
    · rw [List.dropLast_concat]
    · rw [List.concat_eq_append, ← List.cons_append, ← List.append_assoc, List.dropLast_concat]
      exact List.sublist_append_left _ _
  · rw [quoted_append]
    exact (List.sublist_append_left _ _).trans (List.sublist_cons_self _ _)

/-! ## Parts that come back -/

/-- A measurement comes back unless its closing quote is swallowed, or unless it starts, without
quotes of its own, with a quote or a blank. -/
structure KeepsMeasurement (s : List Char) : Prop where
  ne : s ≠ []
  quoted : ¬ IsBare s → s.getLast? ≠ some '\\'
  bare : IsBare s → s.head? ≠ some '"' ∧ StartsSolid s

/-- A key comes back if it is a trimmed text that no separator cuts. -/
structure KeepsKey (k : List Char) : Prop where
  ne : k ≠ []
  trimmed : trim k = k
  text : IsKeyText k

/-- A tag value comes back if it is quoted and holds nothing to escape, or if it is trimmed. In the
second case a quote at its start opens a token inside it, and no other quote ends it. -/
structure KeepsTagValue (s : List Char) : Prop where
  ne : s ≠ []
  quoted : ¬ IsBare s → '"' ∉ s ∧ s.getLast? ≠ some '\\'
  bare : IsBare s → trim s = s ∧ (s.head? = some '"' →
    (∃ c t, s = Line.quoted c ++ t ∧ IsContent c) ∧ s.getLast? ≠ some '"')

/-- A field value comes back if it is what its literal is classified as, and a string is a token. -/
structure KeepsFieldValue (v : FieldValue) : Prop where
  classified : FieldValue.classify v.literal = .ok v
  value : v.type = .string → IsValue v.literal.toList

/-- A record comes back from its line if each of its parts does. -/
structure ReadsBack (r : Record) : Prop where
  measurement : KeepsMeasurement r.measurement.toList
  tags : ∀ tag ∈ r.tags, KeepsKey tag.1.toList ∧ KeepsTagValue tag.2.toList
  fields_ne : r.fields.entries ≠ []
  fields : ∀ field ∈ r.fields.entries, KeepsKey field.1.toList ∧ KeepsFieldValue field.2
  timestamp : 0 ≤ r.timestamp.toInt

/-- A measurement is written as it is, or between quotes with its own quotes escaped. -/
theorem writesMeasurement_iff {m : List Char} :
    WritesMeasurement m s ↔
      s ≠ [] ∧ ((m = s ∧ s.head? ≠ some '"' ∧ IsBare s) ∨
        (m = quoted (escape s) ∧ s.getLast? ≠ some '\\')) := by
  constructor
  · intro h
    refine ⟨h.ne_nil, ?_⟩
    cases h with
    | bare _ hhead hbare => exact .inl ⟨rfl, hhead, hbare⟩
    | @quoted c _ hc =>
      rw [← isContent_escape_iff, escape_unescape hc]
      exact .inr ⟨rfl, hc⟩
  · rintro ⟨hne, ⟨rfl, hhead, hbare⟩ | ⟨rfl, hlast⟩⟩
    · exact .bare hne hhead hbare
    · have hcontent := isContent_escape_iff.mpr hlast
      have h := WritesMeasurement.quoted (mt escape_eq_nil_iff.mp hne) hcontent
      rwa [unescape_escape] at h

theorem quoted_escape_ne_self : quoted (escape s) ≠ s := by
  intro h
  have hlen := congrArg List.length h
  rw [length_quoted, length_escape] at hlen
  omega

theorem writesMeasurement_encodeText_iff :
    WritesMeasurement (encodeText s) s ∧ StartsSolid (encodeText s) ↔ KeepsMeasurement s := by
  rw [writesMeasurement_iff]
  by_cases hbare : IsBare s
  · rw [encodeText_of_isBare hbare]
    constructor
    · rintro ⟨⟨hne, ⟨-, hhead, -⟩ | ⟨hs, -⟩⟩, hsolid⟩
      · exact ⟨hne, absurd hbare, fun _ => ⟨hhead, hsolid⟩⟩
      · exact absurd hs.symm quoted_escape_ne_self
    · intro h
      obtain ⟨hhead, hsolid⟩ := h.bare hbare
      exact ⟨⟨h.ne, .inl ⟨rfl, hhead, hbare⟩⟩, hsolid⟩
  · rw [encodeText_of_not_isBare hbare]
    constructor
    · rintro ⟨⟨hne, ⟨hs, -⟩ | ⟨-, hlast⟩⟩, -⟩
      · exact absurd hs quoted_escape_ne_self
      · exact ⟨hne, fun _ => hlast, fun h => absurd h hbare⟩
    · intro h
      exact ⟨⟨h.ne, .inr ⟨rfl, h.quoted hbare⟩⟩, startsSolid_quoted⟩

theorem isValue_quoted_escape_iff :
    IsValue (quoted (escape s)) ↔ s.getLast? ≠ some '\\' := by
  rw [← isContent_escape_iff]
  constructor
  · intro h
    -- The token inside starts with the whole escaped text, and there is room for no more.
    obtain ⟨c, t, hc, -, he⟩ := h.exists_quoted (by rfl)
    have hinside : c ++ '"' :: t = escape s ++ ['"'] := by
      rw [quoted_append, quoted] at he
      exact (List.cons.inj he).2.symm
    have hpre := escape_prefix_of_append_eq hc hinside
    have hlen := congrArg List.length hinside
    rw [List.length_append, List.length_append, List.length_cons, List.length_singleton] at hlen
    rw [hpre.eq_of_length_le (by omega)]
    exact hc
  · intro h
    have hvalue := IsValue.quoted h IsBare.nil
    rwa [List.append_nil] at hvalue

theorem writesTagValue_encodeText_iff :
    IsValue (encodeText s) ∧ unquote (trim (encodeText s)) = s ∧ s ≠ [] ↔ KeepsTagValue s := by
  by_cases hbare : IsBare s
  · rw [encodeText_of_isBare hbare, unquote_trim_eq_self_iff]
    constructor
    · rintro ⟨hvalue, ⟨htrim, hunquote⟩, hne⟩
      refine ⟨hne, absurd hbare, fun _ => ⟨htrim, fun hhead => ?_⟩⟩
      obtain ⟨c, t, hc, -, hs⟩ := hvalue.exists_quoted hhead
      refine ⟨⟨c, t, hs, hc⟩, fun hlast => unquote_eq_self_iff.mp hunquote ⟨?_, hhead, hlast⟩⟩
      rw [hs, List.length_append, length_quoted]
      omega
    · intro h
      obtain ⟨htrim, hquote⟩ := h.bare hbare
      refine ⟨?_, ⟨htrim, ?_⟩, h.ne⟩
      · by_cases hhead : s.head? = some '"'
        · obtain ⟨⟨c, t, rfl, hc⟩, -⟩ := hquote hhead
          exact .quoted hc (isBare_append.mp hbare).2
        · exact .bare hhead hbare
      · rw [unquote_eq_self_iff]
        rintro ⟨-, hhead, hlast⟩
        exact (hquote hhead).2 hlast
  · rw [encodeText_of_not_isBare hbare, isValue_quoted_escape_iff,
      Text.trim_eq_self_iff.mpr ⟨startsSolid_quoted, endsSolid_quoted⟩, unquote_quoted,
      escape_eq_self_iff]
    constructor
    · rintro ⟨hlast, hquote, hne⟩
      exact ⟨hne, fun _ => ⟨hquote, hlast⟩, fun h => absurd h hbare⟩
    · intro h
      obtain ⟨hquote, hlast⟩ := h.quoted hbare
      exact ⟨hlast, hquote, h.ne⟩

theorem writesTag_iff {tag : String × String} :
    WritesTag (writtenTag tag) tag ↔ KeepsKey tag.1.toList ∧ KeepsTagValue tag.2.toList := by
  rw [← writesTagValue_encodeText_iff]
  constructor
  · intro h
    exact ⟨⟨h.key_ne, h.key_eq, h.key⟩, h.value, h.value_eq, h.value_ne⟩
  · rintro ⟨hkey, hvalue, hvalue_eq, hvalue_ne⟩
    exact ⟨hkey.text, hvalue, hkey.trimmed, hvalue_eq, hkey.ne, hvalue_ne⟩

theorem KeepsFieldValue.isValue {v : FieldValue} (h : KeepsFieldValue v) :
    IsValue v.literal.toList := by
  by_cases htype : v.type = .string
  · exact h.value htype
  · -- A space is a blank, so a plain literal is bare.
    have hplain := FieldValue.forall_isPlain_of_type_ne h.classified htype
    refine .bare (fun hhead => ?_) ⟨fun hx => ?_, fun hx => ?_⟩
    · exact (hplain _ (List.mem_of_mem_head? hhead)).2.2 rfl
    · exact (hplain _ hx).2.1 rfl
    · exact absurd (hplain _ hx).1 (by decide)

theorem writesField_iff {field : String × FieldValue} :
    WritesField (writtenField field) field ↔
      KeepsKey field.1.toList ∧ KeepsFieldValue field.2 := by
  constructor
  · rintro ⟨hkey, hvalue, hkey_eq, hvalue_eq, hkey_ne⟩
    refine ⟨⟨hkey_ne, hkey_eq, hkey⟩, ?_, fun _ => hvalue⟩
    exact FieldValue.classify_literal hvalue_eq
  · rintro ⟨hkey, hvalue⟩
    refine ⟨hkey.text, hvalue.isValue, hkey.trimmed, ?_, hkey.ne⟩
    show FieldValue.classify (String.ofList (trim field.2.literal.toList)) = .ok field.2
    rw [FieldValue.trim_toList hvalue.classified, String.ofList_toList]
    exact hvalue.classified

theorem writesTimestamp_iff {n : Nanos} :
    WritesTimestamp (writtenTimestamp n) n ↔ 0 ≤ n.toInt := by
  unfold writtenTimestamp
  split
  · rename_i hpos
    exact ⟨fun _ => Int.le_of_lt hpos, fun _ => .given (Nanos.read?_text hpos)⟩
  · rename_i hpos
    constructor
    · intro h
      cases h
      exact Int.le_refl 0
    · intro h
      have hzero : n = .zero := Nanos.ext (Int.le_antisymm (Int.not_lt.mp hpos) h)
      rw [hzero]
      exact .absent

end TimeSeries.Line
