/-
# TimeSeries.Proofs.Line.RoundTrip — the records that come back from their lines.

A record comes back from its line exactly when each of its parts does. One direction builds the
line's tokens. In the other direction the line was read, so some tokens write the record and have
the text of the line; they are compared from left to right with the tokens that the record is
written as, and no token can differ.
-/
import TimeSeries.Proofs.Line.Encoded

namespace TimeSeries.Line

open Text (trim isBlank StartsSolid EndsSolid)

variable {s t k v c rest rest' : List Char} {r : Record} {w : WrittenLine}
  {ps : List (List Char × List Char)} {tags : List (String × String)}
  {pairs : List (String × FieldValue)}

/-! ## The ends of a line -/

theorem encodeText_ne_nil (h : s ≠ []) : encodeText s ≠ [] := by
  by_cases hbare : IsBare s
  · rwa [encodeText_of_isBare hbare]
  · rw [encodeText_of_not_isBare hbare]
    exact quoted_ne_nil

theorem endsSolid_pairText (hv : EndsSolid v) : EndsSolid (pairText (k, v)) := by
  rw [pairText, Text.endsSolid_append (List.cons_ne_nil _ _)]
  by_cases hne : v = []
  · intro x hx
    rw [hne] at hx
    obtain rfl : '=' = x := Option.some.inj hx
    decide
  · exact (Text.endsSolid_cons hne).mpr hv

theorem fieldsText_ne_nil (hne : ps ≠ []) : fieldsText ps ≠ [] := by
  obtain ⟨p, ps, rfl⟩ := List.exists_cons_of_ne_nil hne
  simp [fieldsText, pairText]

theorem endsSolid_fieldsText (hne : ps ≠ []) (h : ∀ p ∈ ps, EndsSolid p.2) :
    EndsSolid (fieldsText ps) := by
  induction ps with
  | nil => exact absurd rfl hne
  | cons p ps ih =>
    rw [List.forall_mem_cons] at h
    by_cases hps : ps = []
    · rw [hps, fieldsText_singleton]
      exact endsSolid_pairText h.1
    · rw [fieldsText_cons hps, Text.endsSolid_append (List.cons_ne_nil _ _),
        Text.endsSolid_cons (fieldsText_ne_nil hps)]
      exact ih hps h.2

theorem endsSolid_writtenTimestamp (n : Nanos) : EndsSolid (stampText (writtenTimestamp n)) := by
  unfold writtenTimestamp
  split
  · rename_i hpos
    have hread := Nanos.read?_text hpos
    have hne : n.text.toList ≠ [] := by
      intro hempty
      rw [hempty] at hread
      cases hread
    rw [stampText, Text.endsSolid_cons hne]
    exact fun x hx => (Nanos.forall_isPlain_of_read? hread x (List.mem_of_getLast? hx)).1
  · exact fun x hx => absurd hx (Option.not_mem_none x)

/-- No blank stands at the end of a written record. -/
theorem endsSolid_written (hne : r.fields.entries ≠ [])
    (h : ∀ field ∈ r.fields.entries, EndsSolid field.2.literal.toList) :
    EndsSolid (written r).text := by
  have hne' : r.fields.entries.map writtenField ≠ [] := mt List.map_eq_nil_iff.mp hne
  have hfields : EndsSolid (' ' :: fieldsText (r.fields.entries.map writtenField)) := by
    rw [Text.endsSolid_cons (fieldsText_ne_nil hne')]
    refine endsSolid_fieldsText hne' fun p hp => ?_
    obtain ⟨field, hfield, rfl⟩ := List.mem_map.mp hp
    exact h field hfield
  show EndsSolid (_ ++ (_ ++ (' ' :: fieldsText _ ++ stampText (writtenTimestamp r.timestamp))))
  rw [← List.append_assoc, ← List.append_assoc]
  by_cases hstamp : stampText (writtenTimestamp r.timestamp) = []
  · rw [hstamp, List.append_nil, Text.endsSolid_append (List.cons_ne_nil _ _)]
    exact hfields
  · rw [Text.endsSolid_append hstamp]
    exact endsSolid_writtenTimestamp r.timestamp

/-! ## From the parts to the line -/

/-- A record of parts that come back is written as tokens that write it. -/
theorem ReadsBack.writes (h : ReadsBack r) : (written r).Writes r := by
  refine ⟨(writesMeasurement_encodeText_iff.mpr h.measurement).1, ?_, ?_, ?_, ?_⟩
  · show List.Forall₂ WritesTag (r.tags.map writtenTag) r.tags
    rw [List.forall₂_map_left_iff, List.forall₂_same]
    exact fun tag htag => writesTag_iff.mpr (h.tags tag htag)
  · exact mt List.map_eq_nil_iff.mp h.fields_ne
  · refine ⟨r.fields.entries, ?_, Fields.writtenBy_iff.mpr (Fields.ofList_entries _).symm⟩
    show List.Forall₂ WritesField (r.fields.entries.map writtenField) r.fields.entries
    rw [List.forall₂_map_left_iff, List.forall₂_same]
    exact fun field hfield => writesField_iff.mpr (h.fields field hfield)
  · exact writesTimestamp_iff.mpr h.timestamp

theorem ReadsBack.decode_encode (h : ReadsBack r) : decode (encode r) = .ok r := by
  have hstart : StartsSolid (written r).text := by
    apply (Text.startsSolid_append (encodeText_ne_nil h.measurement.ne)).mpr
    exact (writesMeasurement_encodeText_iff.mpr h.measurement).2
  have hend : EndsSolid (written r).text := by
    refine endsSolid_written h.fields_ne fun field hfield => ?_
    rw [← FieldValue.trim_toList (h.fields field hfield).2.classified]
    exact Text.endsSolid_trim _
  rw [decode, toList_encode h.fields_ne, Text.trim_eq_self_iff.mpr ⟨hstart, hend⟩]
  exact decodeTrimmed_eq_ok_iff.mpr ⟨written r, rfl, h.writes⟩

/-! ## From the line to the parts: measurement -/

/-- A key that was read comes back. -/
theorem KeepsKey.of_trim_eq {key : List Char} (hk : IsKeyText k) (he : trim k = key)
    (hne : key ≠ []) : KeepsKey key := by
  subst he
  exact ⟨hne, Text.trim_trim k, hk.of_subset (Text.trim_sublist k).subset⟩

theorem WritesTag.keepsKey {p : List Char × List Char} {tag : String × String}
    (h : WritesTag p tag) : KeepsKey tag.1.toList :=
  .of_trim_eq h.key h.key_eq h.key_ne

theorem WritesField.keepsKey {p : List Char × List Char} {field : String × FieldValue}
    (h : WritesField p field) : KeepsKey field.1.toList :=
  .of_trim_eq h.key h.key_eq h.key_ne

theorem KeepsKey.startsSolid (h : KeepsKey k) : StartsSolid k := by
  rw [← h.trimmed]
  exact Text.startsSolid_trim k

theorem KeepsKey.dropWhile_space (h : KeepsKey k) (s : List Char) :
    (' ' :: (k ++ s)).dropWhile isBlank = k ++ s := by
  rw [List.dropWhile_cons_of_pos (by decide)]
  apply Text.dropWhile_eq_self_of_startsSolid
  exact (Text.startsSolid_append h.ne).mpr h.startsSolid

theorem isKeyText_quoted_escape (h : IsKeyText s) : IsKeyText (quoted (escape s)) := by
  refine ⟨fun hx => ?_, isBare_quoted_iff.mpr (isBare_escape_iff.mpr h.2)⟩
  simp only [quoted, List.cons_append, List.mem_cons, List.mem_append, List.not_mem_nil,
    or_false] at hx
  rcases hx with hx | hx | hx
  · exact absurd hx (by decide)
  · rcases mem_escape hx with hx | hx
    · exact h.1 hx
    · exact absurd hx (by decide)
  · exact absurd hx (by decide)

/-- A text without separators stops short of the equals sign after a key, or goes past it. -/
theorem append_ne_key_append {m x : List Char} (hm : IsKeyText m) (hk : IsKeyText k)
    (hrest : AtSeparator rest) : m ++ rest ≠ k ++ '=' :: x := by
  intro he
  have h₁ := key_span_iff.mpr ⟨rfl, hm, hrest.endsKey⟩
  obtain ⟨-, hdrop⟩ := key_span_pair (s := x) hk
  rw [he, hdrop] at h₁
  rw [← h₁.2] at hrest
  exact absurd (hrest '=' rfl) (by decide)

/-- A measurement of blanks is stripped from its line, and what follows it starts no line that is
read as this measurement: it is a comma, or a key that no separator cuts. -/
theorem append_ne_dropWhile_tail {m : List Char} (hm : WritesMeasurement m s)
    (hbare : IsBare s) (hblank : ∀ x ∈ s, isBlank x = true) (hrest : AtSeparator rest)
    (hne : r.fields.entries ≠ [])
    (hkeys : ∀ field ∈ r.fields.entries, KeepsKey field.1.toList) :
    m ++ rest ≠ (written r).tail.dropWhile isBlank := by
  intro he
  have hsolid : StartsSolid (m ++ rest) := by
    rw [he]
    exact Text.startsSolid_dropWhile _
  obtain ⟨hs_ne, ⟨rfl, -⟩ | ⟨rfl, -⟩⟩ := writesMeasurement_iff.mp hm
  · -- Bare, the measurement would be blanks at the start of a stripped line.
    rw [Text.startsSolid_append hs_ne] at hsolid
    obtain ⟨x, m, rfl⟩ := List.exists_cons_of_ne_nil hs_ne
    exact absurd (hblank x List.mem_cons_self) (by rw [hsolid x rfl]; decide)
  · obtain ⟨field, fields, hfields⟩ := List.exists_cons_of_ne_nil hne
    have hkey : KeepsKey field.1.toList := hkeys field (by rw [hfields]; exact List.mem_cons_self)
    -- In quotes it has no equals sign, and the line has one before any separator, or a comma first.
    have hs_key : IsKeyText s := ⟨fun hx => absurd (hblank _ hx) (by decide), hbare⟩
    cases htags : r.tags with
    | nil =>
      rw [WrittenLine.tail, written, htags, hfields] at he
      simp only [List.map_nil, pairsText, List.flatMap_nil, List.nil_append, List.map_cons,
        fieldsText, writtenField, pairText, List.append_assoc, List.cons_append,
        hkey.dropWhile_space] at he
      exact append_ne_key_append (isKeyText_quoted_escape hs_key) hkey.text hrest he
    | cons tag tags =>
      rw [WrittenLine.tail, written, htags] at he
      have hhead := congrArg List.head? he
      rw [List.map_cons, pairsText, List.flatMap_cons, List.append_assoc, List.cons_append,
        List.dropWhile_cons_of_neg (by decide), head?_quoted_append] at hhead
      exact absurd (Option.some.inj hhead) (by decide)

/-- The measurement that is read is the one that was written, blanks at its start included. -/
theorem measurement_eq {m : List Char} (hm : WritesMeasurement m s) (hrest' : AtSeparator rest')
    (hrest : AtSeparator rest)
    (hblank : IsBare s → (∀ x ∈ s, isBlank x = true) → m ++ rest' ≠ rest.dropWhile isBlank)
    (he : m ++ rest' = (encodeText s ++ rest).dropWhile isBlank) :
    m = encodeText s ∧ StartsSolid (encodeText s) := by
  obtain ⟨hne, hm⟩ := writesMeasurement_iff.mp hm
  by_cases hbare : IsBare s
  · have hm_bare : IsBare m := by
      rcases hm with ⟨rfl, -⟩ | ⟨rfl, -⟩
      · exact hbare
      · exact isBare_quoted_iff.mpr (isBare_escape_iff.mpr hbare)
    -- What is read is the bare text after the blanks, and it is no shorter than all of the text.
    have hlen : s.length ≤ m.length := by
      rcases hm with ⟨rfl, -⟩ | ⟨rfl, -⟩
      · exact Nat.le_refl _
      · rw [length_quoted, length_escape]
        omega
    rw [encodeText_of_isBare hbare] at he ⊢
    rw [List.dropWhile_append] at he
    split at he
    · rename_i hempty
      rw [List.isEmpty_iff, List.dropWhile_eq_nil_iff] at hempty
      exact absurd he (hblank hbare hempty)
    · obtain ⟨rfl, -⟩ := hm_bare.append_inj hrest'
        (hbare.of_subset (List.dropWhile_sublist _).subset) hrest he
      have hs : s.dropWhile isBlank = s := (List.dropWhile_sublist _).eq_of_length_le hlen
      refine ⟨hs, ?_⟩
      rw [← hs]
      exact Text.startsSolid_dropWhile s
  · rw [encodeText_of_not_isBare hbare]
    rcases hm with ⟨rfl, -, hbare'⟩ | ⟨rfl, -⟩
    · exact absurd hbare' hbare
    · exact ⟨rfl, startsSolid_quoted⟩

/-! ## From the line to the parts: tags -/

/-- The tag value that is read is the one that was written. -/
theorem tagValue_eq (hv : IsValue v) (hs : unquote (trim v) = s) (hrest' : AtSeparator rest')
    (hrest : AtSeparator rest) (he : v ++ rest' = encodeText s ++ rest) : v = encodeText s := by
  by_cases hbare : IsBare s
  · rw [encodeText_of_isBare hbare] at he ⊢
    have hv_bare : IsBare v := by
      cases hv with
      | bare _ hbare => exact hbare
      | @quoted c t _ ht =>
        -- What stands between the quotes is kept, so it has no separator in it either.
        have hc := (sublist_unquote_quoted_append c t).subset
        rw [hs] at hc
        exact isBare_append.mpr ⟨isBare_quoted_iff.mpr (hbare.of_subset hc), ht⟩
    exact (hv_bare.append_inj hrest' hbare hrest he).1
  · rw [encodeText_of_not_isBare hbare] at he ⊢
    have hv_ne : v ≠ [] := by
      rintro rfl
      subst hs
      exact hbare IsBare.nil
    have hhead : v.head? = some '"' := by
      rw [← List.head?_append_of_ne_nil v hv_ne, he, head?_quoted_append]
    obtain ⟨c, t, hc, ht, rfl⟩ := hv.exists_quoted hhead
    rw [List.append_assoc, quoted_append, quoted_append] at he
    have hinside : c ++ '"' :: (t ++ rest') = escape s ++ '"' :: rest := (List.cons.inj he).2
    -- The token is no longer than the tag value, and starts with its escaped form.
    have hle := (sublist_unquote_quoted_append c t).length_le
    rw [hs] at hle
    have hescape : escape s = c := by
      refine (escape_prefix_of_append_eq hc hinside).eq_of_length_le ?_
      rw [length_escape]
      omega
    rw [hescape] at hinside ⊢
    have htail : t ++ rest' = [] ++ rest := (List.cons.inj (List.append_cancel_left hinside)).2
    rw [(ht.append_inj hrest' IsBare.nil hrest htail).1, List.append_nil]

/-- The tags that are read are the ones that were written. -/
theorem tags_eq {s' : List Char} (h : List.Forall₂ WritesTag ps tags)
    (he : pairsText ps ++ ' ' :: s' = pairsText (tags.map writtenTag) ++ ' ' :: s) :
    ps = tags.map writtenTag ∧ s' = s := by
  induction h with
  | nil => exact ⟨rfl, (List.cons.inj he).2⟩
  | @cons p tag ps tags hp _ ih =>
    have he : pairText p ++ (pairsText ps ++ ' ' :: s') =
        pairText (writtenTag tag) ++ (pairsText (tags.map writtenTag) ++ ' ' :: s) := by
      rw [← List.append_assoc, ← List.append_assoc]
      exact (List.cons.inj he).2
    obtain ⟨hkey, htail⟩ := pairText_append_inj hp.key hp.keepsKey.text he
    have hsep := atSeparator_pairsText ps (atFieldsEnd_space s').atSeparator
    have hsep' := atSeparator_pairsText (tags.map writtenTag) (atFieldsEnd_space s).atSeparator
    have hvalue := tagValue_eq hp.value hp.value_eq hsep hsep' htail
    rw [hvalue] at htail
    obtain ⟨rfl, hs⟩ := ih (List.append_cancel_left htail)
    exact ⟨congrArg (· :: _) (Prod.ext hkey hvalue), hs⟩

/-! ## From the line to the parts: fields and timestamp -/

/-- The characters of a key and a value, and two more for what stands between and before them. -/
def weight (p : List Char × List Char) : Nat := p.1.length + p.2.length + 2

theorem length_pairsText (ps : List (List Char × List Char)) :
    (pairsText ps).length = (ps.map weight).sum := by
  induction ps with
  | nil => rfl
  | cons p ps ih =>
    have hcons : pairsText (p :: ps) = ',' :: (pairText p ++ pairsText ps) := rfl
    rw [hcons, List.length_cons, List.length_append, ih, List.map_cons, List.sum_cons, pairText,
      List.length_append, List.length_cons, weight]
    omega

theorem length_fieldsText (hne : ps ≠ []) : (fieldsText ps).length + 1 = (ps.map weight).sum := by
  obtain ⟨p, ps, rfl⟩ := List.exists_cons_of_ne_nil hne
  rw [← length_pairsText]
  rfl

theorem WritesField.length_literal {p : List Char × List Char} {field : String × FieldValue}
    (h : WritesField p field) : field.2.literal.toList.length = (trim p.2).length := by
  rw [FieldValue.length_literal h.value_eq, String.toList_ofList]

theorem WritesField.weight_le {p : List Char × List Char} {field : String × FieldValue}
    (h : WritesField p field) : weight (writtenField field) ≤ weight p := by
  have hkey := Text.length_trim_le p.1
  have hvalue := Text.length_trim_le p.2
  rw [h.key_eq] at hkey
  show field.1.toList.length + field.2.literal.toList.length + 2 ≤ p.1.length + p.2.length + 2
  rw [h.length_literal]
  omega

theorem sum_weight_le (h : List.Forall₂ WritesField ps pairs) :
    (pairs.map (weight ∘ writtenField)).sum ≤ (ps.map weight).sum := by
  induction h with
  | nil => exact Nat.le_refl _
  | cons hp _ ih =>
    rw [List.map_cons, List.map_cons, List.sum_cons, List.sum_cons]
    exact Nat.add_le_add hp.weight_le ih

theorem length_fieldsText_ofList_le (h : List.Forall₂ WritesField ps pairs) :
    (fieldsText ((Fields.ofList pairs).entries.map writtenField)).length ≤
      (fieldsText ps).length := by
  have hle := Fields.sum_map_le_of_subperm (weight ∘ writtenField)
    (Fields.entries_ofList_subperm pairs)
  have hle' := sum_weight_le h
  rw [← List.map_map] at hle
  by_cases hentries : (Fields.ofList pairs).entries.map writtenField = []
  · rw [hentries]
    exact Nat.zero_le _
  · have hlen := length_fieldsText hentries
    by_cases hps : ps = []
    · rw [hps, List.map_nil, List.sum_nil] at hle'
      omega
    · have hlen' := length_fieldsText hps
      omega

/-- A value with no blanks around it keeps its literal, but for the letters of a boolean. -/
theorem WritesField.keepsFieldValue {p : List Char × List Char} {field : String × FieldValue}
    (h : WritesField p field) (htrim : trim p.2 = p.2) : KeepsFieldValue field.2 := by
  refine ⟨FieldValue.classify_literal h.value_eq, fun htype => ?_⟩
  have hstring := (FieldValue.quotes_of_type_eq h.value_eq htype).1
  rw [hstring, String.toList_ofList, htrim]
  exact h.value

/-- A field that was written as long as it is read is written as a key and a value. -/
theorem WritesField.isPair {p : List Char × List Char} {field : String × FieldValue}
    (h : WritesField p field) (hle : weight p ≤ weight (writtenField field)) :
    IsPair (writtenField field) := by
  have hkey := Text.length_trim_le p.1
  have hle : p.1.length + p.2.length + 2 ≤
      field.1.toList.length + field.2.literal.toList.length + 2 := hle
  rw [h.length_literal, ← h.key_eq] at hle
  exact ⟨h.keepsKey.text, (h.keepsFieldValue (Text.trim_eq_self_of_length_le (by omega))).isValue⟩

theorem isPair_of_sum_weight_le (h : List.Forall₂ WritesField ps pairs)
    (hle : (ps.map weight).sum ≤ (pairs.map (weight ∘ writtenField)).sum) :
    ∀ p ∈ pairs.map writtenField, IsPair p := by
  induction h with
  | nil => exact fun p hp => absurd hp List.not_mem_nil
  | @cons p field ps pairs hp hps ih =>
    have hp_le := hp.weight_le
    have hps_le := sum_weight_le hps
    rw [List.map_cons, List.map_cons, List.sum_cons, List.sum_cons, Function.comp] at hle
    rw [List.map_cons, List.forall_mem_cons]
    exact ⟨hp.isPair (by omega), ih (by omega)⟩

/-- The fields that are read are the ones that were written, with no key twice. -/
theorem fields_eq (h : List.Forall₂ WritesField ps pairs) (hne : ps ≠ [])
    (he : fieldsText ps = fieldsText ((Fields.ofList pairs).entries.map writtenField)) :
    (Fields.ofList pairs).entries = pairs ∧ ps = pairs.map writtenField := by
  have hentries_ne : (Fields.ofList pairs).entries.map writtenField ≠ [] := by
    intro hempty
    rw [hempty] at he
    exact fieldsText_ne_nil hne he
  have hsum : (ps.map weight).sum =
      ((Fields.ofList pairs).entries.map (weight ∘ writtenField)).sum := by
    rw [← length_fieldsText hne, he, length_fieldsText hentries_ne, List.map_map]
  have hnodup : (pairs.map Prod.fst).Nodup := by
    have hweight : ∀ field, 0 < (weight ∘ writtenField) field := fun field => Nat.succ_pos _
    refine Fields.nodup_keys_of_sum_map_le hweight ?_
    rw [← hsum]
    exact sum_weight_le h
  have hentries := Fields.entries_ofList hnodup
  rw [hentries] at he hsum hentries_ne
  -- No field got shorter, so each is written as the key and value that it was read from.
  have hpairs := isPair_of_sum_weight_le h (Nat.le_of_eq hsum)
  have he : fieldsText ps ++ [] = fieldsText (pairs.map writtenField) ++ [] := by rw [he]
  exact ⟨hentries, (fieldsText_append_inj hne (isPair_of_writesField h) .nil hentries_ne hpairs
    .nil he).1⟩

theorem isBare_of_forall_isPlain (h : ∀ x ∈ s, Decimal.IsPlain x) : IsBare s :=
  ⟨fun hx => (h _ hx).2.1 rfl, fun hx => absurd (h _ hx).1 (by decide)⟩

/-- Numbers hold no space, so the last space before one is where its text starts. -/
theorem append_space_inj {s' t' : List Char} (ht : ∀ x ∈ t, Decimal.IsPlain x)
    (ht' : ∀ x ∈ t', Decimal.IsPlain x) (he : s ++ ' ' :: t = s' ++ ' ' :: t') :
    s = s' ∧ t = t' := by
  have hrev := congrArg List.reverse he
  rw [List.reverse_append, List.reverse_append, List.reverse_cons, List.reverse_cons,
    List.append_assoc, List.append_assoc] at hrev
  have hbare : IsBare t.reverse :=
    isBare_of_forall_isPlain fun x hx => ht x (List.mem_reverse.mp hx)
  have hbare' : IsBare t'.reverse :=
    isBare_of_forall_isPlain fun x hx => ht' x (List.mem_reverse.mp hx)
  obtain ⟨h₁, h₂⟩ := hbare.append_inj (atFieldsEnd_space _).atSeparator hbare'
    (atFieldsEnd_space _).atSeparator hrev
  exact ⟨List.reverse_injective (List.cons.inj h₂).2, List.reverse_injective h₁⟩

/-- The fields end where they were written to end. -/
theorem body_eq {n : Nanos} {t : Option (List Char)} (h : List.Forall₂ WritesField ps pairs)
    (hne : ps ≠ []) (ht : WritesTimestamp t n)
    (he : fieldsText ps ++ stampText t =
      fieldsText ((Fields.ofList pairs).entries.map writtenField) ++
        stampText (writtenTimestamp n)) :
    (Fields.ofList pairs).entries = pairs ∧ ps = pairs.map writtenField ∧
      t = writtenTimestamp n := by
  obtain ⟨hfields, rfl⟩ : fieldsText ps =
      fieldsText ((Fields.ofList pairs).entries.map writtenField) ∧ t = writtenTimestamp n := by
    by_cases hpos : 0 < n.toInt
    · rw [writtenTimestamp, if_pos hpos] at he ⊢
      cases ht with
      | absent => exact absurd hpos (by decide)
      | given hread =>
        have hplain := Nanos.forall_isPlain_of_read? (Nanos.read?_text hpos)
        obtain ⟨hfields, htext⟩ := append_space_inj (Nanos.forall_isPlain_of_read? hread) hplain he
        exact ⟨hfields, congrArg some htext⟩
    · -- Nothing that is read is longer than what was written, so no timestamp was written.
      rw [writtenTimestamp, if_neg hpos, stampText, List.append_nil] at he
      rw [writtenTimestamp, if_neg hpos]
      have hlen := congrArg List.length he
      have hle := length_fieldsText_ofList_le h
      rw [List.length_append] at hlen
      have hstamp : stampText t = [] := List.eq_nil_of_length_eq_zero (by omega)
      rw [hstamp, List.append_nil] at he
      exact ⟨he, stampText_inj hstamp⟩
  obtain ⟨hentries, hps⟩ := fields_eq h hne hfields
  exact ⟨hentries, hps, rfl⟩

/-! ## Records -/

/-- Nothing is stripped from the end of a record that was read from its own line. -/
theorem WrittenLine.Writes.endsSolid_written (h : w.Writes r) : EndsSolid (written r).text := by
  apply Line.endsSolid_written h.entries_ne_nil
  intro field hfield
  obtain ⟨p, hp⟩ := h.exists_writesField hfield
  rw [← FieldValue.trim_toList (FieldValue.classify_literal hp.value_eq)]
  exact Text.endsSolid_trim _

/-- Tokens that write a record and have the text of its line are the record's own. -/
theorem WrittenLine.Writes.eq_written (h : w.Writes r)
    (he : w.text = (written r).text.dropWhile isBlank) :
    w = written r ∧ StartsSolid (encodeText r.measurement.toList) ∧
      List.Forall₂ WritesField (r.fields.entries.map writtenField) r.fields.entries := by
  obtain ⟨pairs, hfields, hr⟩ := h.fields
  rw [Fields.writtenBy_iff] at hr
  have hblank : IsBare r.measurement.toList → (∀ x ∈ r.measurement.toList, isBlank x = true) →
      w.measurement ++ w.tail ≠ (written r).tail.dropWhile isBlank := by
    intro hbare hall
    apply append_ne_dropWhile_tail h.measurement hbare hall w.atSeparator_tail h.entries_ne_nil
    intro field hfield
    obtain ⟨p, hp⟩ := h.exists_writesField hfield
    exact hp.keepsKey
  obtain ⟨hm, hsolid⟩ := measurement_eq h.measurement w.atSeparator_tail
    (written r).atSeparator_tail hblank he
  -- With the measurement in place nothing is stripped from the start of the line either.
  have hstart : StartsSolid (written r).text :=
    (Text.startsSolid_append (encodeText_ne_nil h.measurement.ne_nil)).mpr hsolid
  rw [Text.dropWhile_eq_self_of_startsSolid hstart, WrittenLine.text, WrittenLine.text, hm] at he
  obtain ⟨htags, hbody⟩ := tags_eq h.tags (List.append_cancel_left he)
  rw [written, hr] at hbody
  obtain ⟨hentries, hps, ht⟩ := body_eq hfields h.fields_ne h.timestamp hbody
  rw [← hentries, ← hr] at hps hfields
  refine ⟨?_, hsolid, ?_⟩
  · show (⟨w.measurement, w.tags, w.fields, w.timestamp⟩ : WrittenLine) = _
    rw [hm, htags, hps, ht]
    rfl
  · rwa [← hps]

theorem ReadsBack.of_decode_encode (h : decode (encode r) = .ok r) : ReadsBack r := by
  obtain ⟨w, htext, hw⟩ := decodeTrimmed_eq_ok_iff.mp h
  rw [toList_encode hw.entries_ne_nil, Text.trim_eq_dropWhile hw.endsSolid_written] at htext
  obtain ⟨rfl, hsolid, hfields⟩ := hw.eq_written htext
  have htags : List.Forall₂ WritesTag (r.tags.map writtenTag) r.tags := hw.tags
  rw [List.forall₂_map_left_iff, List.forall₂_same] at htags hfields
  exact {
    measurement := writesMeasurement_encodeText_iff.mp ⟨hw.measurement, hsolid⟩
    tags := fun tag htag => writesTag_iff.mp (htags tag htag)
    fields_ne := hw.entries_ne_nil
    fields := fun field hfield => writesField_iff.mp (hfields field hfield)
    timestamp := writesTimestamp_iff.mp hw.timestamp }

/-- A record is read back from its own line exactly when each of its parts comes back. -/
theorem decode_encode_eq_ok_iff {r : Record} : decode (encode r) = .ok r ↔ ReadsBack r :=
  ⟨ReadsBack.of_decode_encode, ReadsBack.decode_encode⟩

end TimeSeries.Line
