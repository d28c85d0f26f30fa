/-
# TimeSeries.Proofs.Line.Grammar — the lines that are read, and the record that each one writes.

    measurement[,key=value...] key=value[,key=value...] [timestamp]

A `WrittenLine` holds the tokens of a line as they stand there, and `WrittenLine.Writes` says which
record they write. The readers of `TimeSeries.Line.Decode` are characterised one after the other,
in the order in which a line goes through them. Together they give `decodeTrimmed_eq_ok_iff`: a line
is read as a record exactly when it is the text of tokens that write it. Those tokens are then the
only ones (`WrittenLine.Writes.unique`).
-/
import TimeSeries.Line.Decode
import TimeSeries.Proofs.Line.Token
import TimeSeries.Proofs.Outcome
import TimeSeries.Proofs.Record

namespace TimeSeries.Line

open Text (trim)

variable {s t k v rest : List Char}

/-! ## Written lines -/

/-- The tokens of a line: the measurement, keys and values in pairs, and the timestamp. -/
structure WrittenLine where
  measurement : List Char
  tags : List (List Char × List Char)
  fields : List (List Char × List Char)
  timestamp : Option (List Char)

/-- A key and a value with an equals sign between them. -/
def pairText (p : List Char × List Char) : List Char := p.1 ++ '=' :: p.2

theorem pairText_append : pairText (k, v) ++ rest = k ++ '=' :: (v ++ rest) :=
  List.append_assoc _ _ _

/-- Pairs, each after a comma. -/
def pairsText (ps : List (List Char × List Char)) : List Char := ps.flatMap (',' :: pairText ·)

/-- Pairs with commas between them. -/
def fieldsText : List (List Char × List Char) → List Char
  | [] => []
  | p :: ps => pairText p ++ pairsText ps

/-- A timestamp after its space. -/
def stampText : Option (List Char) → List Char
  | none => []
  | some t => ' ' :: t

/-- The line behind its measurement: each tag follows a comma, a space ends the tags, and another
one the fields. -/
def WrittenLine.tail (w : WrittenLine) : List Char :=
  pairsText w.tags ++ ' ' :: (fieldsText w.fields ++ stampText w.timestamp)

/-- The line. -/
def WrittenLine.text (w : WrittenLine) : List Char := w.measurement ++ w.tail

/-- A measurement as it is written: bare text that does not start with a quote, or a quoted token,
in which a quote after a backslash stands for a quote. It is not empty. -/
inductive WritesMeasurement : List Char → List Char → Prop
  | bare {m : List Char} (ne : m ≠ []) (head : m.head? ≠ some '"') (bare : IsBare m) :
      WritesMeasurement m m
  | quoted {c : List Char} (ne : c ≠ []) (content : IsContent c) :
      WritesMeasurement (quoted c) (unescape c)

/-- A tag as it is written: key and value are trimmed, the value loses one pair of quotes, and
neither is empty then. -/
structure WritesTag (p : List Char × List Char) (tag : String × String) : Prop where
  key : IsKeyText p.1
  value : IsValue p.2
  key_eq : trim p.1 = tag.1.toList
  value_eq : unquote (trim p.2) = tag.2.toList
  key_ne : tag.1.toList ≠ []
  value_ne : tag.2.toList ≠ []

/-- A field as it is written: the key is trimmed and not empty then, and the trimmed value is the
literal of the field's value. -/
structure WritesField (p : List Char × List Char) (field : String × FieldValue) : Prop where
  key : IsKeyText p.1
  value : IsValue p.2
  key_eq : trim p.1 = field.1.toList
  value_eq : FieldValue.classify (String.ofList (trim p.2)) = .ok field.2
  key_ne : field.1.toList ≠ []

/-- A timestamp as it is written: a count of nanoseconds, or nothing, which stands for zero. -/
inductive WritesTimestamp : Option (List Char) → Nanos → Prop
  | absent : WritesTimestamp none .zero
  | given {t : List Char} {n : Nanos} (read : Nanos.read? t = some n) : WritesTimestamp (some t) n

/-- The tokens write a record: tags come in order, and fields, of which there is at least one, are
put under their keys from left to right. -/
structure WrittenLine.Writes (w : WrittenLine) (r : Record) : Prop where
  measurement : WritesMeasurement w.measurement r.measurement.toList
  tags : List.Forall₂ WritesTag w.tags r.tags
  fields_ne : w.fields ≠ []
  fields : ∃ pairs, List.Forall₂ WritesField w.fields pairs ∧ r.fields.WrittenBy pairs
  timestamp : WritesTimestamp w.timestamp r.timestamp

/-! ## Measurements -/

theorem unescape_eq_nil_iff {c : List Char} : unescape c = [] ↔ c = [] := by
  fun_cases unescape c <;> simp

theorem WritesMeasurement.ne_nil {m name : List Char} (h : WritesMeasurement m name) :
    name ≠ [] := by
  cases h with
  | bare hne => exact hne
  | quoted hne => exact mt unescape_eq_nil_iff.mp hne

/-- The token at the start of a line, and the text that it stands for. It may be empty, which shows
only once the tags have been read. -/
inductive MeasurementToken : List Char → List Char → Prop
  | bare {m : List Char} (head : m.head? ≠ some '"') (bare : IsBare m) : MeasurementToken m m
  | quoted {c : List Char} (content : IsContent c) : MeasurementToken (quoted c) (unescape c)

theorem MeasurementToken.writes {m name : List Char} (h : MeasurementToken m name)
    (hne : name ≠ []) : WritesMeasurement m name := by
  cases h with
  | bare hhead hbare => exact .bare hne hhead hbare
  | quoted hc => exact .quoted (mt unescape_eq_nil_iff.mpr hne) hc

theorem WritesMeasurement.token {m name : List Char} (h : WritesMeasurement m name) :
    MeasurementToken m name := by
  cases h with
  | bare _ hhead hbare => exact .bare hhead hbare
  | quoted _ hc => exact .quoted hc

theorem readMeasurement_append {m name : List Char} (hm : MeasurementToken m name)
    (hrest : AtSeparator rest) : readMeasurement (m ++ rest) = .ok (name, rest) := by
  cases hm with
  | bare hhead hbare =>
    obtain ⟨htake, hdrop⟩ := bare_span_iff.mpr ⟨rfl, hbare, hrest⟩
    rw [readMeasurement, htake, hdrop]
    rintro s hs
    cases m with
    | nil =>
      rw [List.nil_append] at hs
      rw [hs, atSeparator_cons] at hrest
      exact absurd hrest (by decide)
    | cons x m =>
      obtain rfl : x = '"' := (List.cons.inj hs).1
      exact hhead rfl
  | @quoted c hc =>
    have hq : readQuoted (c ++ '"' :: rest) = some (c, rest) :=
      readQuoted_eq_some_iff.mpr ⟨rfl, hc⟩
    have hall : rest.head?.all endsValue = true := by
      rw [Option.all_eq_true]
      exact hrest
    rw [quoted_append, readMeasurement, hq]
    simp only [hall, if_true]

/-- The reader of measurements takes the token at the start of a text, up to a separator. -/
theorem readMeasurement_eq_ok_iff {name : List Char} :
    readMeasurement s = .ok (name, rest) ↔
      ∃ m, s = m ++ rest ∧ MeasurementToken m name ∧ AtSeparator rest := by
  constructor
  · intro h
    unfold readMeasurement at h
    split at h
    · split at h
      · cases h
      · rename_i c r hq
        obtain ⟨rfl, hc⟩ := readQuoted_eq_some_iff.mp hq
        split at h
        · rename_i hall
          obtain ⟨rfl, rfl⟩ := Prod.mk.inj (Except.ok.inj h)
          refine ⟨quoted c, quoted_append.symm, .quoted hc, ?_⟩
          rw [Option.all_eq_true] at hall
          exact hall
        · cases h
    · rename_i hs
      obtain ⟨rfl, rfl⟩ := Prod.mk.inj (Except.ok.inj h)
      obtain ⟨he, hbare, hrest⟩ := bare_span_iff.mp ⟨rfl, rfl⟩
      refine ⟨_, he, .bare ?_ hbare, hrest⟩
      intro hhead
      obtain ⟨l, hl⟩ := List.head?_eq_some_iff.mp hhead
      rw [hl] at he
      exact hs _ he
  · rintro ⟨m, rfl, hm, hrest⟩
    exact readMeasurement_append hm hrest

/-! ## Tags -/

/-- The text is empty or starts with a space, as it must where the tags or the fields end. -/
def AtFieldsEnd (s : List Char) : Prop := ∀ x ∈ s.head?, x = ' '

theorem AtFieldsEnd.nil : AtFieldsEnd [] := by
  intro x hx
  cases hx

theorem atFieldsEnd_space (s : List Char) : AtFieldsEnd (' ' :: s) := by
  intro x hx
  exact (Option.some.inj hx).symm

theorem AtFieldsEnd.atSeparator (h : AtFieldsEnd s) : AtSeparator s := by
  intro x hx
  rw [h x hx]
  rfl

/-- Texts, each after a comma. -/
def tagsText (texts : List (List Char)) : List Char := texts.flatMap (',' :: ·)

/-- The text of a tag before it is looked into: a key, or a key, an equals sign and a value. -/
inductive IsTagText : List Char → Prop
  | key {k : List Char} (key : IsKeyText k) : IsTagText k
  | pair {k v : List Char} (key : IsKeyText k) (value : IsValue v) : IsTagText (pairText (k, v))

theorem key_span_pair (hk : IsKeyText k) :
    (k ++ '=' :: s).takeWhile (!endsKey ·) = k ∧
      (k ++ '=' :: s).dropWhile (!endsKey ·) = '=' :: s :=
  key_span_iff.mpr ⟨rfl, hk, endsKey_equals s⟩

theorem readTagText_key (hk : IsKeyText k) (hrest : AtSeparator rest) :
    readTagText (k ++ rest) = .ok (k, rest) := by
  obtain ⟨htake, hdrop⟩ := key_span_iff.mpr ⟨rfl, hk, hrest.endsKey⟩
  unfold readTagText
  simp only [htake, hdrop]
  split
  · exact absurd (hrest '=' rfl) (by decide)
  · rfl

theorem readTagText_pair (hk : IsKeyText k) (s : List Char) :
    readTagText (k ++ '=' :: s) =
      readValue s >>= fun (v, rest) => .ok (pairText (k, v), rest) := by
  obtain ⟨htake, hdrop⟩ := key_span_pair (s := s) hk
  rw [readTagText, htake, hdrop]
  cases hread : readValue s <;> simp only [hread] <;> rfl

theorem readTagText_append (ht : IsTagText t) (hrest : AtSeparator rest) :
    readTagText (t ++ rest) = .ok (t, rest) := by
  cases ht with
  | key hk => exact readTagText_key hk hrest
  | pair hk hv =>
    rw [pairText_append, readTagText_pair hk, readValue_append hv hrest]
    rfl

/-- The reader of tag texts takes the one at the start of a text, up to a separator. -/
theorem readTagText_eq_ok_iff :
    readTagText s = .ok (t, rest) ↔ s = t ++ rest ∧ IsTagText t ∧ AtSeparator rest := by
  constructor
  · intro h
    cases startsWithKey s with
    | separator hk hsep =>
      rw [readTagText_key hk hsep] at h
      obtain ⟨rfl, rfl⟩ := Prod.mk.inj (Except.ok.inj h)
      exact ⟨rfl, .key hk, hsep⟩
    | equals hk s =>
      rw [readTagText_pair hk, Outcome.bind_eq_ok_iff] at h
      obtain ⟨⟨v, after⟩, hread, h⟩ := h
      obtain ⟨rfl, rfl⟩ := Prod.mk.inj (Except.ok.inj h)
      obtain ⟨rfl, hv, hrest⟩ := readValue_eq_ok_iff.mp hread
      exact ⟨pairText_append.symm, .pair hk hv, hrest⟩
  · rintro ⟨rfl, ht, hrest⟩
    exact readTagText_append ht hrest

theorem tagOfText_of_not_mem (h : '=' ∉ t) : tagOfText t = .error (.about .invalidTagFormat t) := by
  have hdrop : t.dropWhile (· != '=') = [] := by
    rw [List.dropWhile_eq_nil_iff]
    intro x hx
    rw [bne_iff_ne]
    rintro rfl
    exact h hx
  rw [tagOfText, hdrop]

/-- What is read from the text of a tag that has an equals sign: the first one ends the key. -/
theorem tagOfText_pairText (hk : '=' ∉ k) :
    tagOfText (pairText (k, v)) =
      if trim k = [] then .error (.about .emptyTagKey (pairText (k, v)))
      else if unquote (trim v) = [] then .error (.about .emptyTagValue (pairText (k, v)))
      else .ok (String.ofList (trim k), String.ofList (unquote (trim v))) := by
  obtain ⟨htake, hdrop⟩ : (pairText (k, v)).takeWhile (· != '=') = k ∧
      (pairText (k, v)).dropWhile (· != '=') = '=' :: v := by
    refine Text.span_eq_iff.mpr ⟨rfl, fun x hx => ?_, fun x hx => ?_⟩
    · rw [bne_iff_ne]
      rintro rfl
      exact hk hx
    · obtain rfl : '=' = x := Option.some.inj hx
      rfl
  unfold tagOfText
  rw [hdrop, htake]
  simp only [List.isEmpty_iff]

/-- A tag text gives a tag exactly when it is a pair that writes the tag. -/
theorem IsTagText.tagOfText_eq_ok_iff (ht : IsTagText t) {tag : String × String} :
    tagOfText t = .ok tag ↔ ∃ p, t = pairText p ∧ WritesTag p tag := by
  constructor
  · intro h
    cases ht with
    | key hk =>
      -- A key alone has no equals sign, which only shows when all tags are there.
      rw [tagOfText_of_not_mem hk.1] at h
      cases h
    | @pair k v hk hv =>
      rw [tagOfText_pairText hk.1] at h
      split at h
      · cases h
      · rename_i hkey
        split at h
        · cases h
        · rename_i hvalue
          obtain rfl := Except.ok.inj h
          exact ⟨(k, v), rfl, hk, hv, by rw [String.toList_ofList], by rw [String.toList_ofList],
            by rwa [String.toList_ofList], by rwa [String.toList_ofList]⟩
  · rintro ⟨⟨k, v⟩, rfl, h⟩
    have hkey : trim k ≠ [] := h.key_eq ▸ h.key_ne
    have hvalue : unquote (trim v) ≠ [] := h.value_eq ▸ h.value_ne
    rw [tagOfText_pairText h.key.1, if_neg hkey, if_neg hvalue]
    rw [show trim k = _ from h.key_eq, show unquote (trim v) = _ from h.value_eq,
      String.ofList_toList, String.ofList_toList]

theorem WritesTag.isTagText {p : List Char × List Char} {tag : String × String}
    (h : WritesTag p tag) : IsTagText (pairText p) := .pair h.key h.value

theorem readTagTexts_of_head?_ne (h : s.head? ≠ some ',') : readTagTexts s = .ok ([], s) := by
  rw [readTagTexts]
  rintro r rfl
  exact h rfl

theorem readTagTexts_comma (s : List Char) :
    readTagTexts (',' :: s) =
      readTagText s >>= fun (text, rest) =>
        readTagTexts rest >>= fun (texts, rest) => .ok (text :: texts, rest) := by
  rw [readTagTexts]
  split
  · rename_i e he
    rw [he]
    rfl
  · rename_i text rest he
    rw [he]
    show _ = readTagTexts rest >>= _
    cases readTagTexts rest <;> rfl

theorem head?_ne_of_atFieldsEnd (h : AtFieldsEnd s) : s.head? ≠ some ',' := by
  intro hs
  exact absurd (h ',' hs) (by decide)

/-- Where no comma follows, the tags have ended, and so must have the text or a space follows. -/
theorem AtSeparator.atFieldsEnd (h : AtSeparator s) (hs : s.head? ≠ some ',') : AtFieldsEnd s := by
  intro x hx
  refine (endsValue_iff.mp (h x hx)).resolve_left ?_
  rintro rfl
  exact hs hx

theorem eq_of_readTagTexts {texts : List (List Char)} (hs : AtSeparator s)
    (h : readTagTexts s = .ok (texts, rest)) :
    s = tagsText texts ++ rest ∧ (∀ t ∈ texts, IsTagText t) ∧ AtFieldsEnd rest := by
  -- On the texts and not on the line: they say how often the reader has called itself.
  induction texts generalizing s with
  | nil =>
    by_cases hcomma : s.head? = some ','
    · obtain ⟨r, rfl⟩ := List.head?_eq_some_iff.mp hcomma
      rw [readTagTexts_comma, Outcome.bind_eq_ok_iff] at h
      obtain ⟨_, _, h⟩ := h
      obtain ⟨_, _, h⟩ := Outcome.bind_eq_ok_iff.mp h
      cases h
    · rw [readTagTexts_of_head?_ne hcomma] at h
      obtain ⟨-, rfl⟩ := Prod.mk.inj (Except.ok.inj h)
      exact ⟨rfl, fun t ht => absurd ht List.not_mem_nil, hs.atFieldsEnd hcomma⟩
  | cons t texts ih =>
    by_cases hcomma : s.head? = some ','
    · obtain ⟨r, rfl⟩ := List.head?_eq_some_iff.mp hcomma
      rw [readTagTexts_comma, Outcome.bind_eq_ok_iff] at h
      obtain ⟨⟨t', after⟩, hread, h⟩ := h
      obtain ⟨⟨texts', rest'⟩, htexts, h⟩ := Outcome.bind_eq_ok_iff.mp h
      cases h
      obtain ⟨rfl, ht, hafter⟩ := readTagText_eq_ok_iff.mp hread
      obtain ⟨rfl, hall, hend⟩ := ih hafter htexts
      refine ⟨by simp [tagsText], ?_, hend⟩
      rw [List.forall_mem_cons]
      exact ⟨ht, hall⟩
    · rw [readTagTexts_of_head?_ne hcomma] at h
      cases h

theorem tagsText_cons (t : List Char) (texts : List (List Char)) :
    tagsText (t :: texts) ++ s = ',' :: (t ++ (tagsText texts ++ s)) := by
  simp [tagsText]

theorem atSeparator_tagsText (texts : List (List Char)) (hs : AtSeparator s) :
    AtSeparator (tagsText texts ++ s) := by
  cases texts with
  | nil => exact hs
  | cons => exact atSeparator_cons.mpr rfl

theorem readTagTexts_append {texts : List (List Char)} (h : ∀ t ∈ texts, IsTagText t)
    (hrest : AtFieldsEnd rest) : readTagTexts (tagsText texts ++ rest) = .ok (texts, rest) := by
  induction texts with
  | nil => exact readTagTexts_of_head?_ne (head?_ne_of_atFieldsEnd hrest)
  | cons t texts ih =>
    rw [List.forall_mem_cons] at h
    have ht := readTagText_append h.1 (atSeparator_tagsText texts hrest.atSeparator)
    rw [tagsText_cons, readTagTexts_comma, ht]
    show (readTagTexts _ >>= _) = _
    rw [ih h.2]
    rfl

/-- The reader of the tags takes all that stands before a space or the end, and cuts it where tag
texts end. -/
theorem readTagTexts_eq_ok_iff {texts : List (List Char)} (hs : AtSeparator s) :
    readTagTexts s = .ok (texts, rest) ↔
      s = tagsText texts ++ rest ∧ (∀ t ∈ texts, IsTagText t) ∧ AtFieldsEnd rest := by
  constructor
  · exact eq_of_readTagTexts hs
  · rintro ⟨rfl, h, hrest⟩
    exact readTagTexts_append h hrest

theorem tagsText_map (ps : List (List Char × List Char)) :
    tagsText (ps.map pairText) = pairsText ps := by
  rw [tagsText, pairsText, List.flatMap_map]

/-- A text that has no pair in it gives no tag, so each text is a pair. -/
theorem forall₂_tagOfText_iff {texts : List (List Char)} {tags : List (String × String)}
    (hall : ∀ t ∈ texts, IsTagText t) :
    List.Forall₂ (fun t tag => tagOfText t = .ok tag) texts tags ↔
      ∃ ps, texts = ps.map pairText ∧ List.Forall₂ WritesTag ps tags := by
  constructor
  · intro htags
    induction htags with
    | nil => exact ⟨[], rfl, .nil⟩
    | @cons t tag texts tags ht _ ih =>
      rw [List.forall_mem_cons] at hall
      obtain ⟨p, rfl, hp⟩ := hall.1.tagOfText_eq_ok_iff.mp ht
      obtain ⟨ps, rfl, hps⟩ := ih hall.2
      exact ⟨p :: ps, rfl, .cons hp hps⟩
  · rintro ⟨ps, rfl, hps⟩
    rw [List.forall₂_map_left_iff]
    exact hps.imp fun p tag h => h.isTagText.tagOfText_eq_ok_iff.mpr ⟨p, rfl, h⟩

theorem isTagText_of_writesTag {ps : List (List Char × List Char)} {tags : List (String × String)}
    (h : List.Forall₂ WritesTag ps tags) : ∀ t ∈ ps.map pairText, IsTagText t := by
  induction h with
  | nil => exact fun t ht => absurd ht List.not_mem_nil
  | cons hp _ ih =>
    rw [List.map_cons, List.forall_mem_cons]
    exact ⟨hp.isTagText, ih⟩

/-- The tags of a line are read exactly when the text is pairs that write them, each after a comma,
up to a space or the end. -/
theorem readTags_eq_ok_iff {tags : List (String × String)} (hs : AtSeparator s) :
    (∃ texts, readTagTexts s = .ok (texts, rest) ∧ texts.mapM tagOfText = .ok tags) ↔
      ∃ ps, s = pairsText ps ++ rest ∧ List.Forall₂ WritesTag ps tags ∧ AtFieldsEnd rest := by
  constructor
  · rintro ⟨texts, htexts, htags⟩
    obtain ⟨rfl, hall, hend⟩ := (readTagTexts_eq_ok_iff hs).mp htexts
    rw [Outcome.mapM_eq_ok_iff] at htags
    obtain ⟨ps, rfl, hps⟩ := (forall₂_tagOfText_iff hall).mp htags
    exact ⟨ps, by rw [tagsText_map], hps, hend⟩
  · rintro ⟨ps, rfl, hps, hend⟩
    have hall := isTagText_of_writesTag hps
    refine ⟨ps.map pairText, (readTagTexts_eq_ok_iff hs).mpr ⟨by rw [tagsText_map], hall, hend⟩, ?_⟩
    rw [Outcome.mapM_eq_ok_iff]
    exact (forall₂_tagOfText_iff hall).mpr ⟨ps, rfl, hps⟩

/-! ## Fields and timestamp -/

theorem readField_key (hk : IsKeyText k) (hrest : AtSeparator rest) :
    readField (k ++ rest) = .error (.about .invalidFieldFormat k) := by
  obtain ⟨htake, hdrop⟩ := key_span_iff.mpr ⟨rfl, hk, hrest.endsKey⟩
  unfold readField
  simp only [htake, hdrop]
  split
  · exact absurd (hrest '=' rfl) (by decide)
  · rfl

/-- How a field that has an equals sign is read: its key is checked once the value has been taken,
and before the literal is. -/
theorem readField_pair (hk : IsKeyText k) (s : List Char) :
    readField (k ++ '=' :: s) = readValue s >>= fun (v, rest) =>
      if trim k = [] then .error (.about .emptyFieldKey (pairText (k, v)))
      else FieldValue.classify (String.ofList (trim v)) >>= fun literal =>
        .ok ((String.ofList (trim k), literal), rest) := by
  obtain ⟨htake, hdrop⟩ := key_span_pair (s := s) hk
  rw [readField, htake, hdrop]
  cases hread : readValue s with
  | error e =>
    simp only [hread]
    rfl
  | ok p =>
    obtain ⟨v, rest⟩ := p
    simp only [hread, List.isEmpty_iff]
    show _ = if trim k = [] then _ else _
    split
    · rfl
    · cases FieldValue.classify (String.ofList (trim v)) <;> rfl

theorem readField_append {p : List Char × List Char} {field : String × FieldValue}
    (h : WritesField p field) (hrest : AtSeparator rest) :
    readField (pairText p ++ rest) = .ok (field, rest) := by
  obtain ⟨k, v⟩ := p
  have hne : trim k ≠ [] := h.key_eq ▸ h.key_ne
  rw [pairText_append, readField_pair h.key, readValue_append h.value hrest]
  show (if trim k = [] then _ else _) = _
  rw [if_neg hne, show FieldValue.classify (String.ofList (trim v)) = _ from h.value_eq,
    show trim k = _ from h.key_eq, String.ofList_toList]
  rfl

/-- The reader of fields takes the one at the start of a text, up to a separator. -/
theorem readField_eq_ok_iff {field : String × FieldValue} :
    readField s = .ok (field, rest) ↔
      ∃ p, s = pairText p ++ rest ∧ WritesField p field ∧ AtSeparator rest := by
  constructor
  · intro h
    cases startsWithKey s with
    | separator hk hsep =>
      rw [readField_key hk hsep] at h
      cases h
    | @equals k hk s =>
      rw [readField_pair hk, Outcome.bind_eq_ok_iff] at h
      obtain ⟨⟨v, after⟩, hread, h⟩ := h
      obtain ⟨rfl, hv, hrest⟩ := readValue_eq_ok_iff.mp hread
      dsimp only at h
      split at h
      · cases h
      · rename_i hne
        obtain ⟨literal, hclass, h⟩ := Outcome.bind_eq_ok_iff.mp h
        cases h
        refine ⟨(k, v), pairText_append.symm, ⟨hk, hv, ?_, hclass, ?_⟩, hrest⟩
        · rw [String.toList_ofList]
        · rwa [String.toList_ofList]
  · rintro ⟨p, rfl, h, hrest⟩
    exact readField_append h hrest

theorem readFields_eq (s : List Char) :
    readFields s = readField s >>= fun (field, rest) =>
      match rest with
      | ',' :: rest => readFields rest >>= fun (fields, rest) => .ok (field :: fields, rest)
      | rest => .ok ([field], rest) := by
  rw [readFields]
  split
  · rename_i e he
    rw [he]
    rfl
  · rename_i field rest he
    rw [he]
    show _ = readFields rest >>= _
    cases readFields rest <;> rfl
  · rename_i field rest hne he
    rw [he]
    show _ = (match rest with
      | ',' :: rest => readFields rest >>= fun (fields, rest) => .ok (field :: fields, rest)
      | rest => .ok ([field], rest))
    split
    · exact absurd rfl (hne _)
    · rfl

theorem fieldsText_singleton (p : List Char × List Char) : fieldsText [p] = pairText p :=
  List.append_nil _

theorem fieldsText_cons {p : List Char × List Char} {ps : List (List Char × List Char)}
    (hps : ps ≠ []) : fieldsText (p :: ps) = pairText p ++ ',' :: fieldsText ps := by
  obtain ⟨q, ps, rfl⟩ := List.exists_cons_of_ne_nil hps
  rfl

theorem exists_of_readFields {fields : List (String × FieldValue)}
    (h : readFields s = .ok (fields, rest)) :
    ∃ ps, ps ≠ [] ∧ s = fieldsText ps ++ rest ∧ List.Forall₂ WritesField ps fields ∧
      AtFieldsEnd rest := by
  -- On the fields and not on the text: each step of the reader gives one.
  induction fields generalizing s with
  | nil =>
    rw [readFields_eq, Outcome.bind_eq_ok_iff] at h
    obtain ⟨⟨field, after⟩, -, h⟩ := h
    dsimp only at h
    split at h
    · obtain ⟨_, _, h⟩ := Outcome.bind_eq_ok_iff.mp h
      cases h
    · cases h
  | cons field fields ih =>
    rw [readFields_eq, Outcome.bind_eq_ok_iff] at h
    obtain ⟨⟨field', after⟩, hfield, h⟩ := h
    obtain ⟨p, rfl, hp, hsep⟩ := readField_eq_ok_iff.mp hfield
    dsimp only at h
    split at h
    · rename_i after
      obtain ⟨⟨fields', rest'⟩, hfields, h⟩ := Outcome.bind_eq_ok_iff.mp h
      cases h
      obtain ⟨ps, hne, rfl, hps, hrest⟩ := ih hfields
      refine ⟨p :: ps, List.cons_ne_nil _ _, ?_, .cons hp hps, hrest⟩
      rw [fieldsText_cons hne, List.append_assoc, List.cons_append]
    · rename_i hcomma
      cases h
      -- A separator that is no comma is a space.
      refine ⟨[p], List.cons_ne_nil _ _, by rw [fieldsText_singleton], .cons hp .nil, ?_⟩
      intro x hx
      obtain ⟨l, rfl⟩ := List.head?_eq_some_iff.mp hx
      refine (endsValue_iff.mp (hsep x hx)).resolve_left ?_
      rintro rfl
      exact hcomma l rfl

theorem readFields_append {ps : List (List Char × List Char)}
    {fields : List (String × FieldValue)} (hne : ps ≠ []) (hps : List.Forall₂ WritesField ps fields)
    (hrest : AtFieldsEnd rest) : readFields (fieldsText ps ++ rest) = .ok (fields, rest) := by
  induction hps with
  | nil => exact absurd rfl hne
  | @cons p field ps fields hp hps ih =>
    cases ps with
    | nil =>
      -- The last field: no comma follows it, or the fields would not end here.
      cases hps
      have hfield := readField_append hp hrest.atSeparator
      rw [fieldsText_singleton, readFields_eq, hfield]
      show (match rest with
        | ',' :: rest => readFields rest >>= fun (fields, rest) => .ok (field :: fields, rest)
        | rest => .ok ([field], rest)) = _
      split
      · exact absurd (hrest ',' rfl) (by decide)
      · rfl
    | cons q ps =>
      have hsep : AtSeparator (',' :: (fieldsText (q :: ps) ++ rest)) := atSeparator_cons.mpr rfl
      have hfield := readField_append hp hsep
      rw [fieldsText_cons (List.cons_ne_nil _ _), List.append_assoc, List.cons_append,
        readFields_eq, hfield]
      show (readFields (fieldsText (q :: ps) ++ rest) >>= _) = _
      rw [ih (List.cons_ne_nil _ _)]
      rfl

/-- The reader of the fields takes all that stands before a space or the end of the text. -/
theorem readFields_eq_ok_iff {fields : List (String × FieldValue)} :
    readFields s = .ok (fields, rest) ↔
      ∃ ps, ps ≠ [] ∧ s = fieldsText ps ++ rest ∧ List.Forall₂ WritesField ps fields ∧
        AtFieldsEnd rest := by
  constructor
  · exact exists_of_readFields
  · rintro ⟨ps, hne, rfl, hps, hrest⟩
    exact readFields_append hne hps hrest

theorem readTimestamp_eq_ok_iff {n : Nanos} (hs : AtFieldsEnd s) :
    readTimestamp s = .ok n ↔ ∃ t, s = stampText t ∧ WritesTimestamp t n := by
  cases s with
  | nil =>
    constructor
    · intro h
      cases h
      exact ⟨none, rfl, .absent⟩
    · rintro ⟨t, ht, hn⟩
      cases hn with
      | absent => rfl
      | given => exact absurd ht (List.cons_ne_nil _ _).symm
  | cons x s =>
    obtain rfl : x = ' ' := hs x rfl
    rw [readTimestamp]
    constructor
    · intro h
      split at h
      · cases h
      · rename_i n' hn
        cases h
        exact ⟨some s, rfl, .given hn⟩
    · rintro ⟨t, ht, hn⟩
      cases hn with
      | absent => exact absurd ht (List.cons_ne_nil _ _)
      | given hread =>
        obtain rfl := (List.cons.inj ht).2
        rw [hread]

theorem atFieldsEnd_stampText (t : Option (List Char)) : AtFieldsEnd (stampText t) := by
  cases t with
  | none => exact .nil
  | some t => exact atFieldsEnd_space t

/-! ## Lines -/

theorem atSeparator_pairsText (ps : List (List Char × List Char)) (hs : AtSeparator s) :
    AtSeparator (pairsText ps ++ s) := by
  cases ps with
  | nil => exact hs
  | cons => exact atSeparator_cons.mpr rfl

theorem WrittenLine.atSeparator_tail (w : WrittenLine) : AtSeparator w.tail :=
  atSeparator_pairsText w.tags (atFieldsEnd_space _).atSeparator

theorem WritesField.head?_ne_space {p : List Char × List Char} {field : String × FieldValue}
    (h : WritesField p field) : ∃ x ∈ (pairText p).head?, x ≠ ' ' := by
  obtain ⟨k, v⟩ := p
  cases k with
  | nil => exact absurd h.key_eq.symm h.key_ne
  | cons x k =>
    refine ⟨x, rfl, ?_⟩
    rintro rfl
    exact h.key.2.2 List.mem_cons_self

/-- Where fields can be read, they are not missing. -/
theorem head?_all_space_of_readFields {fields : List (String × FieldValue)}
    (h : readFields s = .ok (fields, rest)) : s.head?.all (· == ' ') = false := by
  obtain ⟨ps, hne, rfl, hps, -⟩ := readFields_eq_ok_iff.mp h
  cases hps with
  | nil => exact absurd rfl hne
  | @cons p field ps fields hp _ =>
    obtain ⟨x, hx, hspace⟩ := hp.head?_ne_space
    have hhead : (fieldsText (p :: ps) ++ rest).head? = some x := by
      obtain ⟨l, hl⟩ := List.head?_eq_some_iff.mp hx
      cases ps with
      | nil => rw [fieldsText_singleton, hl]; rfl
      | cons q ps => rw [fieldsText_cons (List.cons_ne_nil _ _), hl]; rfl
    rw [hhead]
    simpa using hspace

/-- A line is read exactly when every reader succeeds, each on what the one before it left. -/
theorem decodeTrimmed_eq_ok_iff_readers {line : List Char} {r : Record} :
    decodeTrimmed line = .ok r ↔
      ∃ after body fields tail,
        r.measurement.toList ≠ [] ∧
        readMeasurement line = .ok (r.measurement.toList, after) ∧
        (∃ texts, readTagTexts after = .ok (texts, ' ' :: body) ∧
          texts.mapM tagOfText = .ok r.tags) ∧
        readFields body = .ok (fields, tail) ∧ r.fields = .ofList fields ∧
        readTimestamp tail = .ok r.timestamp := by
  constructor
  · intro h
    obtain ⟨⟨name, after⟩, hname, h⟩ := Outcome.bind_eq_ok_iff.mp h
    obtain ⟨⟨texts, rest⟩, htexts, h⟩ := Outcome.bind_eq_ok_iff.mp h
    dsimp only at h htexts
    split at h
    · rename_i body
      split at h
      · cases h
      · rename_i hne
        obtain ⟨tags, htags, h⟩ := Outcome.bind_eq_ok_iff.mp h
        split at h
        · cases h
        · obtain ⟨⟨fields, tail⟩, hfields, h⟩ := Outcome.bind_eq_ok_iff.mp h
          obtain ⟨n, hn, h⟩ := Outcome.bind_eq_ok_iff.mp h
          obtain rfl := Except.ok.inj h
          rw [List.isEmpty_iff] at hne
          refine ⟨after, body, fields, tail, ?_, ?_, ⟨texts, htexts, htags⟩, hfields, rfl, hn⟩
          · rwa [String.toList_ofList]
          · rwa [String.toList_ofList]
    · cases h
  · rintro ⟨after, body, fields, tail, hne, hname, ⟨texts, htexts, htags⟩, hfields, hr, hn⟩
    have hne' : r.measurement.toList.isEmpty = false := List.isEmpty_eq_false_iff.mpr hne
    have hspace := head?_all_space_of_readFields hfields
    refine Outcome.bind_eq_ok_iff.mpr ⟨_, hname, Outcome.bind_eq_ok_iff.mpr ⟨_, htexts, ?_⟩⟩
    -- The line is checked for a measurement only here, and for fields only after its tags.
    simp only [hne', Bool.false_eq_true, if_false]
    refine Outcome.bind_eq_ok_iff.mpr ⟨_, htags, ?_⟩
    simp only [hspace, Bool.false_eq_true, if_false]
    refine Outcome.bind_eq_ok_iff.mpr ⟨_, hfields, Outcome.bind_eq_ok_iff.mpr ⟨_, hn, ?_⟩⟩
    rw [← hr, String.ofList_toList]

/-- A trimmed line is read exactly when it is the text of tokens that write the record. -/
theorem decodeTrimmed_eq_ok_iff {line : List Char} {r : Record} :
    decodeTrimmed line = .ok r ↔ ∃ w : WrittenLine, w.text = line ∧ w.Writes r := by
  rw [decodeTrimmed_eq_ok_iff_readers]
  constructor
  · rintro ⟨after, body, fields, tail, hne, hname, htags, hfields, hr, hn⟩
    obtain ⟨m, rfl, hm, hsep⟩ := readMeasurement_eq_ok_iff.mp hname
    obtain ⟨tags, rfl, hwrites, -⟩ := (readTags_eq_ok_iff hsep).mp htags
    obtain ⟨ps, hps_ne, rfl, hps, hend⟩ := readFields_eq_ok_iff.mp hfields
    obtain ⟨t, rfl, ht⟩ := (readTimestamp_eq_ok_iff hend).mp hn
    have hwritten := Fields.writtenBy_iff.mpr hr
    exact ⟨⟨m, tags, ps, t⟩, rfl, hm.writes hne, hwrites, hps_ne, ⟨fields, hps, hwritten⟩, ht⟩
  · rintro ⟨w, rfl, h⟩
    obtain ⟨fields, hfields, hr⟩ := h.fields
    have hend := atFieldsEnd_stampText w.timestamp
    refine ⟨w.tail, fieldsText w.fields ++ stampText w.timestamp, fields, stampText w.timestamp,
      h.measurement.ne_nil, ?_, ?_, ?_, Fields.writtenBy_iff.mp hr, ?_⟩
    · exact readMeasurement_append h.measurement.token w.atSeparator_tail
    · exact (readTags_eq_ok_iff w.atSeparator_tail).mpr ⟨w.tags, rfl, h.tags, atFieldsEnd_space _⟩
    · exact readFields_append h.fields_ne hfields hend
    · exact (readTimestamp_eq_ok_iff hend).mpr ⟨w.timestamp, rfl, h.timestamp⟩

theorem WrittenLine.Writes.exists_writesTag {w : WrittenLine} {r : Record} {tag : String × String}
    (h : w.Writes r) (htag : tag ∈ r.tags) : ∃ p, WritesTag p tag := by
  obtain ⟨p, -, hp⟩ := Outcome.exists_of_mem_right h.tags htag
  exact ⟨p, hp⟩

/-- A field that is left was written, the last one under its key. -/
theorem WrittenLine.Writes.exists_writesField {w : WrittenLine} {r : Record}
    {field : String × FieldValue} (h : w.Writes r) (hfield : field ∈ r.fields.entries) :
    ∃ p, WritesField p field := by
  obtain ⟨pairs, hfields, hr⟩ := h.fields
  rw [Fields.writtenBy_iff.mp hr] at hfield
  obtain ⟨p, -, hp⟩ := Outcome.exists_of_mem_right hfields (Fields.mem_ofList hfield)
  exact ⟨p, hp⟩

theorem WrittenLine.Writes.entries_ne_nil {w : WrittenLine} {r : Record} (h : w.Writes r) :
    r.fields.entries ≠ [] := by
  obtain ⟨pairs, hfields, hr⟩ := h.fields
  rw [Fields.writtenBy_iff.mp hr]
  apply Fields.entries_ofList_ne_nil
  rintro rfl
  exact h.fields_ne (List.forall₂_nil_right_iff.mp hfields)

/-! ## One reading -/

theorem WritesMeasurement.append_inj {m m' name name' s' : List Char}
    (h : WritesMeasurement m name) (hs : AtSeparator s) (h' : WritesMeasurement m' name')
    (hs' : AtSeparator s') (he : m ++ s = m' ++ s') : m = m' ∧ s = s' := by
  -- One text has one reading, and what is left of it says where the measurement ended.
  obtain ⟨rfl, rfl⟩ : name = name' ∧ s = s' := by
    have hread := readMeasurement_append h.token hs
    rw [he, readMeasurement_append h'.token hs'] at hread
    obtain ⟨h₁, h₂⟩ := Prod.mk.inj (Except.ok.inj hread)
    exact ⟨h₁.symm, h₂.symm⟩
  exact ⟨List.append_cancel_right he, rfl⟩

theorem pairText_append_inj {k' v' rest' : List Char} (hk : IsKeyText k) (hk' : IsKeyText k')
    (he : pairText (k, v) ++ rest = pairText (k', v') ++ rest') :
    k = k' ∧ v ++ rest = v' ++ rest' := by
  rw [pairText_append, pairText_append] at he
  obtain ⟨htake, hdrop⟩ := key_span_pair (s := v ++ rest) hk
  obtain ⟨htake', hdrop'⟩ := key_span_pair (s := v' ++ rest') hk'
  rw [he] at htake hdrop
  exact ⟨htake.symm.trans htake', (List.cons.inj (hdrop.symm.trans hdrop')).2⟩

/-- A key and a value, each of which is read as it stands. -/
def IsPair (p : List Char × List Char) : Prop := IsKeyText p.1 ∧ IsValue p.2

theorem IsPair.append_inj {p p' : List Char × List Char} {rest' : List Char} (h : IsPair p)
    (hrest : AtSeparator rest) (h' : IsPair p') (hrest' : AtSeparator rest')
    (he : pairText p ++ rest = pairText p' ++ rest') : p = p' ∧ rest = rest' := by
  obtain ⟨hkey, he⟩ := pairText_append_inj h.1 h'.1 he
  obtain ⟨hvalue, hrest⟩ := h.2.append_inj hrest h'.2 hrest' he
  exact ⟨Prod.ext hkey hvalue, hrest⟩

theorem isPair_of_writesTag {ps : List (List Char × List Char)} {tags : List (String × String)}
    (h : List.Forall₂ WritesTag ps tags) : ∀ p ∈ ps, IsPair p := by
  intro p hp
  obtain ⟨tag, -, htag⟩ := Outcome.exists_of_mem_left h hp
  exact ⟨htag.key, htag.value⟩

theorem isPair_of_writesField {ps : List (List Char × List Char)}
    {fields : List (String × FieldValue)} (h : List.Forall₂ WritesField ps fields) :
    ∀ p ∈ ps, IsPair p := by
  intro p hp
  obtain ⟨field, -, hfield⟩ := Outcome.exists_of_mem_left h hp
  exact ⟨hfield.key, hfield.value⟩

/-- Pairs after commas are fixed by the text that they start, up to a space or the end. -/
theorem pairsText_append_inj {ps ps' : List (List Char × List Char)} {s' : List Char}
    (hps : ∀ p ∈ ps, IsPair p) (hs : AtFieldsEnd s)
    (hps' : ∀ p ∈ ps', IsPair p) (hs' : AtFieldsEnd s')
    (he : pairsText ps ++ s = pairsText ps' ++ s') : ps = ps' ∧ s = s' := by
  induction ps generalizing ps' with
  | nil =>
    cases ps' with
    | nil => exact ⟨rfl, he⟩
    | cons p' ps' =>
      obtain rfl : s = ',' :: (pairText p' ++ pairsText ps' ++ s') := he
      exact absurd (hs ',' rfl) (by decide)
  | cons p ps ih =>
    cases ps' with
    | nil =>
      obtain rfl : ',' :: (pairText p ++ pairsText ps ++ s) = s' := he
      exact absurd (hs' _ rfl) (by decide)
    | cons p' ps' =>
      rw [List.forall_mem_cons] at hps hps'
      have he : pairText p ++ (pairsText ps ++ s) = pairText p' ++ (pairsText ps' ++ s') := by
        rw [← List.append_assoc, ← List.append_assoc]
        exact (List.cons.inj he).2
      obtain ⟨rfl, htail⟩ := hps.1.append_inj (atSeparator_pairsText ps hs.atSeparator) hps'.1
        (atSeparator_pairsText ps' hs'.atSeparator) he
      obtain ⟨rfl, hrest⟩ := ih hps.2 hps'.2 htail
      exact ⟨rfl, hrest⟩

theorem fieldsText_append_inj {ps ps' : List (List Char × List Char)} {s' : List Char}
    (hne : ps ≠ []) (hps : ∀ p ∈ ps, IsPair p) (hs : AtFieldsEnd s)
    (hne' : ps' ≠ []) (hps' : ∀ p ∈ ps', IsPair p) (hs' : AtFieldsEnd s')
    (he : fieldsText ps ++ s = fieldsText ps' ++ s') : ps = ps' ∧ s = s' := by
  obtain ⟨p, ps, rfl⟩ := List.exists_cons_of_ne_nil hne
  obtain ⟨p', ps', rfl⟩ := List.exists_cons_of_ne_nil hne'
  -- Fields with a comma put before them are pairs after commas.
  refine pairsText_append_inj hps hs hps' hs' ?_
  exact congrArg (',' :: ·) he

theorem stampText_inj {t t' : Option (List Char)} (h : stampText t = stampText t') : t = t' := by
  cases t with
  | none =>
    cases t' with
    | none => rfl
    | some => exact absurd h (List.cons_ne_nil _ _).symm
  | some t =>
    cases t' with
    | none => exact absurd h (List.cons_ne_nil _ _)
    | some => exact congrArg some (List.cons.inj h).2

/-- A line shows its tokens: no other tokens have its text, and they write one record. -/
theorem WrittenLine.Writes.unique {w w' : WrittenLine} {r r' : Record} (h : w.Writes r)
    (h' : w'.Writes r') (he : w.text = w'.text) : w = w' ∧ r = r' := by
  have hr : r = r' := by
    have hread := decodeTrimmed_eq_ok_iff.mpr ⟨w, rfl, h⟩
    rw [he, decodeTrimmed_eq_ok_iff.mpr ⟨w', rfl, h'⟩] at hread
    exact (Except.ok.inj hread).symm
  obtain ⟨m, tags, fields, t⟩ := w
  obtain ⟨m', tags', fields', t'⟩ := w'
  obtain ⟨hm, htail⟩ := h.measurement.append_inj (WrittenLine.atSeparator_tail _) h'.measurement
    (WrittenLine.atSeparator_tail _) he
  obtain ⟨htags, hbody⟩ := pairsText_append_inj (isPair_of_writesTag h.tags)
    (atFieldsEnd_space _) (isPair_of_writesTag h'.tags) (atFieldsEnd_space _) htail
  obtain ⟨_, hpairs, -⟩ := h.fields
  obtain ⟨_, hpairs', -⟩ := h'.fields
  obtain ⟨hfields, hstamp⟩ := fieldsText_append_inj h.fields_ne (isPair_of_writesField hpairs)
    (atFieldsEnd_stampText t) h'.fields_ne (isPair_of_writesField hpairs')
    (atFieldsEnd_stampText t') (List.cons.inj hbody).2
  refine ⟨?_, hr⟩
  rw [WrittenLine.mk.injEq]
  exact ⟨hm, htags, hfields, stampText_inj hstamp⟩

/-- The reader accepts exactly its grammar: a line is read as a record if and only if the trimmed
line is the text of tokens that write the record. No other tokens have this text, and they write no
other record. -/
theorem decode_eq_ok_iff (line : String) :
    (∀ r, decode line = .ok r ↔ ∃ w : WrittenLine, w.text = trim line.toList ∧ w.Writes r) ∧
    ∀ (w w' : WrittenLine) (r r' : Record),
      (w.text = trim line.toList ∧ w.Writes r) → (w'.text = trim line.toList ∧ w'.Writes r') →
        w = w' ∧ r = r' := by
  constructor
  · intro r
    rw [decode, decodeTrimmed_eq_ok_iff]
  · rintro w w' r r' ⟨htext, hw⟩ ⟨htext', hw'⟩
    exact hw.unique hw' (htext.trans htext'.symm)

/-- A name in quotes, a key that is written twice, and a time before the origin. -/
def overwrittenLine : String := " \"c u\",host=a v=1i,v=2.5 -7\t"

/-- The record of this line: the later value stands. -/
def overwrittenRecord : Record :=
  ⟨"c u", [("host", "a")], .ofList [("v", ⟨.float, "2.5"⟩)], ⟨-7, by decide, by decide⟩⟩

theorem decode_eq_ok_iff_overwritten :
    decode overwrittenLine = .ok overwrittenRecord ∧
    ∃ w : WrittenLine, (w.text = trim overwrittenLine.toList ∧ w.Writes overwrittenRecord) ∧
      ∀ (w' : WrittenLine) (r' : Record), (w'.text = trim overwrittenLine.toList ∧ w'.Writes r') →
        w' = w ∧ r' = overwrittenRecord := by
  have hdecode : decode overwrittenLine = .ok overwrittenRecord := by decide +kernel
  obtain ⟨hread, hunique⟩ := decode_eq_ok_iff overwrittenLine
  obtain ⟨w, hw⟩ := (hread overwrittenRecord).mp hdecode
  exact ⟨hdecode, w, hw, fun w' r' hw' => hunique w' w r' overwrittenRecord hw' hw⟩

end TimeSeries.Line
