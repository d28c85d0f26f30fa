/-
# TimeSeries.Proofs.Line.Refusal — the lines that are refused, and the fault that is reported.

A line may be wrong in many places. It is read in stages, and the fault of the first stage that
fails is reported: the measurement, quotes in tags that never close, the space behind the tags, an
empty measurement, the tags one by one, absent fields, the fields one by one, the timestamp.
`Refused` has one constructor per stage. Each shows the tokens that the stages before it have taken,
and says nothing of the text behind its own fault. `decode_eq_error_iff` is the account of all
refusals: a line is refused for exactly those faults, and the text that is shown stands in the line.
-/
import TimeSeries.Proofs.FieldValue
import TimeSeries.Proofs.Line.Grammar

namespace TimeSeries.Line

open Text (trim)

variable {s t k v rest line : List Char} {e : Error}

/-! ## Faults of one token -/

/-- Behind an opening quote no quote closes the token: each comes after a backslash. -/
def NeverCloses (s : List Char) : Prop := ∀ c rest, IsContent c → s ≠ c ++ '"' :: rest

/-- A measurement at fault: a quote that never closes, or a character behind the closing one that
ends no value. -/
inductive RefusedMeasurement : List Char → Error → Prop
  | openQuote {s : List Char} (never : NeverCloses s) :
      RefusedMeasurement ('"' :: s) (.about .unterminatedQuote ('"' :: s))
  | behind {c s : List Char} {x : Char} (content : IsContent c) (goesOn : endsValue x = false) :
      RefusedMeasurement (quoted c ++ x :: s) (.about .invalidTagFormat (quoted c ++ x :: s))

/-- A tag at fault, once its text has been cut out of the line. -/
inductive RefusedTag : List Char → Error → Prop
  | noEquals {t : List Char} (absent : '=' ∉ t) : RefusedTag t (.about .invalidTagFormat t)
  | emptyKey {k v : List Char} (key : '=' ∉ k) (empty : trim k = []) :
      RefusedTag (pairText (k, v)) (.about .emptyTagKey (pairText (k, v)))
  | emptyValue {k v : List Char} (key : '=' ∉ k) (key_ne : trim k ≠ [])
      (empty : unquote (trim v) = []) :
      RefusedTag (pairText (k, v)) (.about .emptyTagValue (pairText (k, v)))

/-- A text that starts with a field at fault. -/
inductive RefusedField : List Char → Error → Prop
  | noEquals {k rest : List Char} (key : IsKeyText k) (sep : AtSeparator rest) :
      RefusedField (k ++ rest) (.about .invalidFieldFormat k)
  | openQuote {k s : List Char} (key : IsKeyText k) (never : NeverCloses s) :
      RefusedField (pairText (k, '"' :: s)) (.about .unterminatedQuote ('"' :: s))
  | emptyKey {k v rest : List Char} (key : IsKeyText k) (value : IsValue v)
      (sep : AtSeparator rest) (empty : trim k = []) :
      RefusedField (pairText (k, v) ++ rest) (.about .emptyFieldKey (pairText (k, v)))
  | literal {k v rest : List Char} {e : Error} (key : IsKeyText k) (value : IsValue v)
      (sep : AtSeparator rest) (key_ne : trim k ≠ [])
      (refused : FieldValue.classify (String.ofList (trim v)) = .error e) :
      RefusedField (pairText (k, v) ++ rest) e

/-! ## Faults of a line -/

/-- Pairs, each before a comma. -/
def leadingText (ps : List (List Char × List Char)) : List Char := ps.flatMap (pairText · ++ [','])

/-- A measurement and tags with no fault in them. -/
structure WritesHead (m : List Char) (ps : List (List Char × List Char)) : Prop where
  measurement : ∃ name, WritesMeasurement m name
  tags : ∃ tags, List.Forall₂ WritesTag ps tags

/-- A trimmed line at fault, and the fault of the first stage that fails. Tags are looked into only
behind the space that ends them, so in the first three stages they are texts of any kind. -/
inductive Refused : List Char → Error → Prop
  | measurement {line : List Char} {e : Error} (refused : RefusedMeasurement line e) :
      Refused line e
  | openTag {m name k s : List Char} {texts : List (List Char)} (measurement : MeasurementToken m name)
      (before : ∀ t ∈ texts, IsTagText t) (key : IsKeyText k) (never : NeverCloses s) :
      Refused (m ++ (tagsText texts ++ ',' :: pairText (k, '"' :: s)))
        (.about .unterminatedQuote ('"' :: s))
  | noSpace {m name : List Char} {texts : List (List Char)} (measurement : MeasurementToken m name)
      (tags : ∀ t ∈ texts, IsTagText t) :
      Refused (m ++ tagsText texts) (.about .invalidFormat (m ++ tagsText texts))
  | noMeasurement {m body : List Char} {texts : List (List Char)}
      (measurement : MeasurementToken m []) (tags : ∀ t ∈ texts, IsTagText t) :
      Refused (m ++ (tagsText texts ++ ' ' :: body))
        (.about .emptyMeasurement (m ++ (tagsText texts ++ ' ' :: body)))
  | tag {m t body : List Char} {ps : List (List Char × List Char)} {texts : List (List Char)}
      {e : Error} (head : WritesHead m ps) (text : IsTagText t) (refused : RefusedTag t e)
      (later : ∀ t ∈ texts, IsTagText t) :
      Refused (m ++ (tagsText (ps.map pairText ++ t :: texts) ++ ' ' :: body)) e
  | noFields {m body : List Char} {ps : List (List Char × List Char)} (head : WritesHead m ps)
      (absent : AtFieldsEnd body) :
      Refused (m ++ (pairsText ps ++ ' ' :: body))
        (.about .missingFields (m ++ (pairsText ps ++ ' ' :: body)))
  | field {m f : List Char} {ps qs : List (List Char × List Char)}
      {fields : List (String × FieldValue)} {e : Error} (head : WritesHead m ps)
      (present : ¬ AtFieldsEnd (leadingText qs ++ f)) (before : List.Forall₂ WritesField qs fields)
      (refused : RefusedField f e) :
      Refused (m ++ (pairsText ps ++ ' ' :: (leadingText qs ++ f))) e
  | timestamp {m t : List Char} {ps qs : List (List Char × List Char)}
      {fields : List (String × FieldValue)} (head : WritesHead m ps) (fields_ne : qs ≠ [])
      (fields : List.Forall₂ WritesField qs fields) (unread : Nanos.read? t = none) :
      Refused (m ++ (pairsText ps ++ ' ' :: (fieldsText qs ++ ' ' :: t)))
        (.about .invalidTimestamp t)

/-! ## Tokens that the readers refuse -/

theorem readQuoted_eq_none_iff : readQuoted s = none ↔ NeverCloses s := by
  rw [Option.eq_none_iff_forall_ne_some, NeverCloses, Prod.forall]
  constructor
  · intro h c rest hc he
    exact h c rest (readQuoted_eq_some_iff.mpr ⟨he, hc⟩)
  · intro h c rest hread
    obtain ⟨he, hc⟩ := readQuoted_eq_some_iff.mp hread
    exact h c rest hc he

theorem readValue_eq_error_iff :
    readValue s = .error e ↔
      ∃ r, s = '"' :: r ∧ NeverCloses r ∧ e = .about .unterminatedQuote ('"' :: r) := by
  constructor
  · intro h
    unfold readValue at h
    split at h
    · split at h
      · rename_i r _ hq
        cases h
        exact ⟨r, rfl, readQuoted_eq_none_iff.mp hq, rfl⟩
      · cases h
    · cases h
  · rintro ⟨r, rfl, hr, rfl⟩
    rw [readValue, readQuoted_eq_none_iff.mpr hr]

theorem readMeasurement_eq_error_iff :
    readMeasurement s = .error e ↔ RefusedMeasurement s e := by
  constructor
  · intro h
    unfold readMeasurement at h
    split at h
    · split at h
      · rename_i r hq
        cases h
        exact .openQuote (readQuoted_eq_none_iff.mp hq)
      · rename_i c rest hq
        obtain ⟨rfl, hc⟩ := readQuoted_eq_some_iff.mp hq
        split at h
        · cases h
        · rename_i hends
          cases rest with
          | nil => exact absurd rfl hends
          | cons x rest =>
            cases h
            rw [← quoted_append]
            exact .behind hc (Bool.eq_false_iff.mpr hends)
    · cases h
  · intro h
    cases h with
    | openQuote hr => rw [readMeasurement, readQuoted_eq_none_iff.mpr hr]
    | @behind c r x hc hx =>
      have hq : readQuoted (c ++ '"' :: x :: r) = some (c, x :: r) :=
        readQuoted_eq_some_iff.mpr ⟨rfl, hc⟩
      rw [quoted_append, readMeasurement, hq]
      simp only [List.head?_cons, Option.all_some, hx, Bool.false_eq_true, if_false]

/-! ## Tags -/

theorem readTagText_eq_error_iff :
    readTagText s = .error e ↔
      ∃ k r, s = pairText (k, '"' :: r) ∧ IsKeyText k ∧ NeverCloses r ∧
        e = .about .unterminatedQuote ('"' :: r) := by
  constructor
  · intro h
    cases startsWithKey s with
    | separator hk hsep =>
      rw [readTagText_key hk hsep] at h
      cases h
    | @equals k hk s =>
      rw [readTagText_pair hk, Outcome.bind_eq_error_iff] at h
      rcases h with h | ⟨_, _, h⟩
      · obtain ⟨r, rfl, hr, rfl⟩ := readValue_eq_error_iff.mp h
        exact ⟨k, r, rfl, hk, hr, rfl⟩
      · cases h
  · rintro ⟨k, r, rfl, hk, hr, rfl⟩
    rw [pairText, readTagText_pair hk, readValue_eq_error_iff.mpr ⟨r, rfl, hr, rfl⟩]
    rfl

/-- The texts of the tags are refused for the first value whose quote never closes. -/
theorem readTagTexts_eq_error_iff :
    readTagTexts s = .error e ↔
      ∃ texts k r, s = tagsText texts ++ ',' :: pairText (k, '"' :: r) ∧
        (∀ t ∈ texts, IsTagText t) ∧ IsKeyText k ∧ NeverCloses r ∧
        e = .about .unterminatedQuote ('"' :: r) := by
  constructor
  · intro h
    -- Each step leaves less of the text.
    induction hn : s.length using Nat.strong_induction_on generalizing s with
    | _ n ih =>
      by_cases hcomma : s.head? = some ','
      · obtain ⟨s, rfl⟩ := List.head?_eq_some_iff.mp hcomma
        rw [readTagTexts_comma, Outcome.bind_eq_error_iff] at h
        rcases h with h | ⟨⟨t, after⟩, hread, h⟩
        · obtain ⟨k, r, rfl, hk, hr, rfl⟩ := readTagText_eq_error_iff.mp h
          exact ⟨[], k, r, rfl, fun t ht => absurd ht List.not_mem_nil, hk, hr, rfl⟩
        · obtain ⟨rfl, ht, -⟩ := readTagText_eq_ok_iff.mp hread
          rcases Outcome.bind_eq_error_iff.mp h with h | ⟨_, _, h⟩
          · have hlength : after.length < n := by
              rw [← hn, List.length_cons, List.length_append]
              omega
            obtain ⟨texts, k, r, rfl, htexts, hk, hr, rfl⟩ := ih _ hlength h rfl
            refine ⟨t :: texts, k, r, by rw [tagsText_cons], ?_, hk, hr, rfl⟩
            rw [List.forall_mem_cons]
            exact ⟨ht, htexts⟩
          · cases h
      · rw [readTagTexts_of_head?_ne hcomma] at h
        cases h
  · rintro ⟨texts, k, r, rfl, htexts, hk, hr, rfl⟩
    induction texts with
    | nil =>
      have ht := readTagText_eq_error_iff.mpr ⟨k, r, rfl, hk, hr, rfl⟩
      rw [tagsText, List.flatMap_nil, List.nil_append, readTagTexts_comma, ht]
      rfl
    | cons t texts ih =>
      rw [List.forall_mem_cons] at htexts
      have hsep : AtSeparator (tagsText texts ++ ',' :: pairText (k, '"' :: r)) :=
        atSeparator_tagsText texts (atSeparator_cons.mpr rfl)
      rw [tagsText_cons, readTagTexts_comma, Outcome.bind_eq_error_iff]
      refine .inr ⟨_, readTagText_append htexts.1 hsep, ?_⟩
      exact Outcome.bind_eq_error_iff.mpr (.inl (ih htexts.2))

/-- A tag is refused for the first of three faults that it has. -/
theorem tagOfText_eq_error_iff : tagOfText t = .error e ↔ RefusedTag t e := by
  constructor
  · intro h
    by_cases hequals : '=' ∈ t
    · obtain ⟨k, v, rfl, hk⟩ := List.eq_append_cons_of_mem hequals
      replace h : tagOfText (pairText (k, v)) = .error e := h
      rw [tagOfText_pairText hk] at h
      split at h
      · rename_i hkey
        cases h
        exact .emptyKey hk hkey
      · rename_i hkey
        split at h
        · rename_i hvalue
          cases h
          exact .emptyValue hk hkey hvalue
        · cases h
    · rw [tagOfText_of_not_mem hequals] at h
      cases h
      exact .noEquals hequals
  · intro h
    cases h with
    | noEquals h => exact tagOfText_of_not_mem h
    | emptyKey hk hkey => rw [tagOfText_pairText hk, if_pos hkey]
    | emptyValue hk hkey hvalue => rw [tagOfText_pairText hk, if_neg hkey, if_pos hvalue]

/-- The tags are refused for the first one that is at fault. -/
theorem tagsOfTexts_eq_error_iff {texts : List (List Char)} (hall : ∀ t ∈ texts, IsTagText t) :
    texts.mapM tagOfText = .error e ↔
      ∃ ps tags t later, texts = ps.map pairText ++ t :: later ∧
        List.Forall₂ WritesTag ps tags ∧ RefusedTag t e := by
  rw [Outcome.mapM_eq_error_iff]
  constructor
  · rintro ⟨front, t, later, tags, rfl, hfront, ht⟩
    rw [List.forall_mem_append] at hall
    obtain ⟨ps, rfl, hps⟩ := (forall₂_tagOfText_iff hall.1).mp hfront
    exact ⟨ps, tags, t, later, rfl, hps, tagOfText_eq_error_iff.mp ht⟩
  · rintro ⟨ps, tags, t, later, rfl, hps, ht⟩
    have hfront := (forall₂_tagOfText_iff (isTagText_of_writesTag hps)).mpr ⟨ps, rfl, hps⟩
    exact ⟨_, t, later, tags, rfl, hfront, tagOfText_eq_error_iff.mpr ht⟩

/-! ## Fields -/

/-- A field is refused for the first of four faults that it has. -/
theorem readField_eq_error_iff : readField s = .error e ↔ RefusedField s e := by
  constructor
  · intro h
    cases startsWithKey s with
    | separator hk hsep =>
      rw [readField_key hk hsep] at h
      cases h
      exact .noEquals hk hsep
    | @equals k hk s =>
      rw [readField_pair hk, Outcome.bind_eq_error_iff] at h
      rcases h with h | ⟨⟨v, rest⟩, hread, h⟩
      · obtain ⟨r, rfl, hr, rfl⟩ := readValue_eq_error_iff.mp h
        exact .openQuote hk hr
      · obtain ⟨rfl, hv, hsep⟩ := readValue_eq_ok_iff.mp hread
        rw [← pairText_append]
        dsimp only at h
        split at h
        · rename_i hempty
          cases h
          exact .emptyKey hk hv hsep hempty
        · rename_i hne
          rcases Outcome.bind_eq_error_iff.mp h with hclass | ⟨_, _, h⟩
          · exact .literal hk hv hsep hne hclass
          · cases h
  · intro h
    cases h with
    | noEquals hk hsep => exact readField_key hk hsep
    | @openQuote k r hk hr =>
      rw [pairText, readField_pair hk, readValue_eq_error_iff.mpr ⟨r, rfl, hr, rfl⟩]
      rfl
    | emptyKey hk hv hsep hempty =>
      rw [pairText_append, readField_pair hk, readValue_append hv hsep]
      exact if_pos hempty
    | @literal k v rest e hk hv hsep hne hclass =>
      rw [pairText_append, readField_pair hk, readValue_append hv hsep, Outcome.bind_eq_error_iff]
      refine .inr ⟨_, rfl, ?_⟩
      dsimp only
      rw [if_neg hne, hclass]
      rfl

theorem leadingText_cons (p : List Char × List Char) (ps : List (List Char × List Char)) :
    leadingText (p :: ps) ++ s = pairText p ++ ',' :: (leadingText ps ++ s) := by
  simp [leadingText]

/-- The fields are refused for the first one that is at fault; each one before it has a comma. -/
theorem readFields_eq_error_iff :
    readFields s = .error e ↔
      ∃ ps fields f, s = leadingText ps ++ f ∧ List.Forall₂ WritesField ps fields ∧
        RefusedField f e := by
  constructor
  · intro h
    induction hn : s.length using Nat.strong_induction_on generalizing s with
    | _ n ih =>
      rw [readFields_eq, Outcome.bind_eq_error_iff] at h
      rcases h with h | ⟨⟨field, after⟩, hread, h⟩
      · exact ⟨[], [], s, rfl, .nil, readField_eq_error_iff.mp h⟩
      · obtain ⟨p, rfl, hp, -⟩ := readField_eq_ok_iff.mp hread
        dsimp only at h
        split at h
        · rename_i after
          rcases Outcome.bind_eq_error_iff.mp h with h | ⟨_, _, h⟩
          · have hlength : after.length < n := by
              rw [← hn, List.length_append, List.length_cons]
              omega
            obtain ⟨ps, fields, f, rfl, hps, hf⟩ := ih _ hlength h rfl
            exact ⟨p :: ps, field :: fields, f, by rw [leadingText_cons], .cons hp hps, hf⟩
          · cases h
        · cases h
  · rintro ⟨ps, fields, f, rfl, hps, hf⟩
    induction hps with
    | nil =>
      rw [readFields_eq, Outcome.bind_eq_error_iff]
      exact .inl (readField_eq_error_iff.mpr hf)
    | @cons p field ps fields hp _ ih =>
      have hsep : AtSeparator (',' :: (leadingText ps ++ f)) := atSeparator_cons.mpr rfl
      rw [leadingText_cons, readFields_eq, Outcome.bind_eq_error_iff]
      refine .inr ⟨_, readField_append hp hsep, ?_⟩
      exact Outcome.bind_eq_error_iff.mpr (.inl ih)

theorem readTimestamp_eq_error_iff :
    readTimestamp s = .error e ↔
      ∃ t, s = ' ' :: t ∧ Nanos.read? t = none ∧ e = .about .invalidTimestamp t := by
  constructor
  · intro h
    unfold readTimestamp at h
    split at h
    · rename_i t
      split at h
      · rename_i hread
        cases h
        exact ⟨t, rfl, hread, rfl⟩
      · cases h
    · cases h
  · rintro ⟨t, rfl, hread, rfl⟩
    rw [readTimestamp, hread]

/-! ## Lines -/

theorem head?_all_space_iff : s.head?.all (· == ' ') = true ↔ AtFieldsEnd s := by
  rw [Option.all_eq_true]
  simp only [beq_iff_eq]
  exact Iff.rfl

theorem WritesHead.isTagText {m : List Char} {ps : List (List Char × List Char)}
    (h : WritesHead m ps) : ∀ t ∈ ps.map pairText, IsTagText t := by
  obtain ⟨tags, htags⟩ := h.tags
  exact isTagText_of_writesTag htags

/-- How a line is read on behind the space that ends its tags: the measurement is checked first,
then the tags are looked into, and only then is anything behind the space. -/
theorem decodeTrimmed_append {m name body : List Char} {texts : List (List Char)}
    (hm : MeasurementToken m name) (htexts : ∀ t ∈ texts, IsTagText t) :
    decodeTrimmed (m ++ (tagsText texts ++ ' ' :: body)) =
      if name = [] then .error (.about .emptyMeasurement (m ++ (tagsText texts ++ ' ' :: body)))
      else texts.mapM tagOfText >>= fun tags =>
        if body.head?.all (· == ' ') then
          .error (.about .missingFields (m ++ (tagsText texts ++ ' ' :: body)))
        else readFields body >>= fun (fields, rest) => readTimestamp rest >>= fun timestamp =>
          .ok ⟨String.ofList name, tags, .ofList fields, timestamp⟩ := by
  have hsep := atSeparator_tagsText texts (atFieldsEnd_space body).atSeparator
  have hread := readMeasurement_append hm hsep
  have htags := readTagTexts_append htexts (atFieldsEnd_space body)
  unfold decodeTrimmed
  rw [hread]
  show (readTagTexts _ >>= _) = _
  rw [htags]
  cases name with
  | nil => rfl
  | cons x name =>
    show (texts.mapM tagOfText >>= _) = texts.mapM tagOfText >>= _
    congr 1

/-- What is left to read of a line whose measurement and tags are in order. -/
theorem WritesHead.decodeTrimmed_eq {m : List Char} {ps : List (List Char × List Char)}
    (h : WritesHead m ps) (body : List Char) :
    ∃ name tags, decodeTrimmed (m ++ (pairsText ps ++ ' ' :: body)) =
      if body.head?.all (· == ' ') then
        .error (.about .missingFields (m ++ (pairsText ps ++ ' ' :: body)))
      else readFields body >>= fun (fields, rest) => readTimestamp rest >>= fun timestamp =>
        .ok ⟨name, tags, .ofList fields, timestamp⟩ := by
  obtain ⟨name, hname⟩ := h.measurement
  obtain ⟨tags, htags⟩ := h.tags
  have hread : (ps.map pairText).mapM tagOfText = .ok tags := by
    rw [Outcome.mapM_eq_ok_iff]
    exact (forall₂_tagOfText_iff h.isTagText).mpr ⟨ps, rfl, htags⟩
  refine ⟨String.ofList name, tags, ?_⟩
  rw [← tagsText_map, decodeTrimmed_append hname.token h.isTagText, if_neg hname.ne_nil, hread]
  rfl

/-- Behind a measurement and tags without a fault, fields or the timestamp are at fault. -/
theorem refused_of_body {m body : List Char} {ps : List (List Char × List Char)} {name : String}
    {tags : List (String × String)} (hhead : WritesHead m ps)
    (h : (if body.head?.all (· == ' ') then
        .error (.about .missingFields (m ++ (pairsText ps ++ ' ' :: body)))
      else readFields body >>= fun (fields, rest) => readTimestamp rest >>= fun timestamp =>
        .ok ⟨name, tags, .ofList fields, timestamp⟩ : Except Error Record) = .error e) :
    Refused (m ++ (pairsText ps ++ ' ' :: body)) e := by
  split at h
  · rename_i habsent
    cases h
    exact .noFields hhead (head?_all_space_iff.mp habsent)
  · rename_i hpresent
    rw [head?_all_space_iff] at hpresent
    rcases Outcome.bind_eq_error_iff.mp h with hfields | ⟨⟨fields, tail⟩, hfields, htail⟩
    · obtain ⟨qs, fields, f, rfl, hqs, hf⟩ := readFields_eq_error_iff.mp hfields
      exact .field hhead hpresent hqs hf
    · obtain ⟨qs, hqs_ne, rfl, hqs, -⟩ := readFields_eq_ok_iff.mp hfields
      rcases Outcome.bind_eq_error_iff.mp htail with htail | ⟨n, -, hn⟩
      · obtain ⟨t, rfl, ht, rfl⟩ := readTimestamp_eq_error_iff.mp htail
        exact .timestamp hhead hqs_ne hqs ht
      · cases hn

theorem refused_of_decodeTrimmed (h : decodeTrimmed line = .error e) : Refused line e := by
  rcases Outcome.bind_eq_error_iff.mp h with hname | ⟨⟨name, after⟩, hname, hafter⟩
  · exact .measurement (readMeasurement_eq_error_iff.mp hname)
  obtain ⟨m, rfl, hm, hsep⟩ := readMeasurement_eq_ok_iff.mp hname
  rcases Outcome.bind_eq_error_iff.mp hafter with htexts | ⟨⟨texts, rest⟩, htexts, hrest⟩
  · obtain ⟨texts, k, r, rfl, hall, hk, hr, rfl⟩ := readTagTexts_eq_error_iff.mp htexts
    exact .openTag hm hall hk hr
  obtain ⟨rfl, hall, hend⟩ := (readTagTexts_eq_ok_iff hsep).mp htexts
  cases rest with
  | nil =>
    -- Without a space neither the measurement nor the tags are looked into.
    cases hrest
    rw [List.append_nil]
    exact .noSpace hm hall
  | cons x body =>
    obtain rfl : x = ' ' := hend x rfl
    rw [decodeTrimmed_append hm hall] at h
    split at h
    · rename_i hempty
      subst hempty
      cases h
      exact .noMeasurement hm hall
    · rename_i hne
      rcases Outcome.bind_eq_error_iff.mp h with htags | ⟨tags, htags, hbody⟩
      · obtain ⟨ps, tags, t, later, rfl, hps, ht⟩ := (tagsOfTexts_eq_error_iff hall).mp htags
        rw [List.forall_mem_append, List.forall_mem_cons] at hall
        exact .tag ⟨⟨name, hm.writes hne⟩, tags, hps⟩ hall.2.1 ht hall.2.2
      · rw [Outcome.mapM_eq_ok_iff] at htags
        obtain ⟨ps, rfl, hps⟩ := (forall₂_tagOfText_iff hall).mp htags
        rw [tagsText_map] at hbody ⊢
        exact refused_of_body ⟨⟨name, hm.writes hne⟩, tags, hps⟩ hbody

theorem Refused.decodeTrimmed_eq (h : Refused line e) : decodeTrimmed line = .error e := by
  cases h with
  | measurement hm =>
    exact Outcome.bind_eq_error_iff.mpr (.inl (readMeasurement_eq_error_iff.mpr hm))
  | @openTag m name k r texts hm hall hk hr =>
    have hsep : AtSeparator (tagsText texts ++ ',' :: pairText (k, '"' :: r)) :=
      atSeparator_tagsText texts (atSeparator_cons.mpr rfl)
    refine Outcome.bind_eq_error_iff.mpr (.inr ⟨_, readMeasurement_append hm hsep, ?_⟩)
    refine Outcome.bind_eq_error_iff.mpr (.inl ?_)
    exact readTagTexts_eq_error_iff.mpr ⟨texts, k, r, rfl, hall, hk, hr, rfl⟩
  | @noSpace m name texts hm hall =>
    have hread := readMeasurement_append hm (atSeparator_tagsText texts AtFieldsEnd.nil.atSeparator)
    have htags := readTagTexts_append hall .nil
    rw [List.append_nil] at hread htags
    refine Outcome.bind_eq_error_iff.mpr (.inr ⟨_, hread, ?_⟩)
    exact Outcome.bind_eq_error_iff.mpr (.inr ⟨_, htags, rfl⟩)
  | noMeasurement hm hall => rw [decodeTrimmed_append hm hall, if_pos rfl]
  | @tag m t body ps texts e hhead ht hrefused hlater =>
    obtain ⟨name, hname⟩ := hhead.measurement
    obtain ⟨tags, htags⟩ := hhead.tags
    have hall : ∀ u ∈ ps.map pairText ++ t :: texts, IsTagText u := by
      rw [List.forall_mem_append, List.forall_mem_cons]
      exact ⟨hhead.isTagText, ht, hlater⟩
    rw [decodeTrimmed_append hname.token hall, if_neg hname.ne_nil]
    refine Outcome.bind_eq_error_iff.mpr (.inl ?_)
    exact (tagsOfTexts_eq_error_iff hall).mpr ⟨ps, tags, t, texts, rfl, htags, hrefused⟩
  | noFields hhead habsent =>
    obtain ⟨name, tags, hrest⟩ := hhead.decodeTrimmed_eq _
    rw [hrest, if_pos (head?_all_space_iff.mpr habsent)]
  | field hhead hpresent hqs hf =>
    obtain ⟨name, tags, hrest⟩ := hhead.decodeTrimmed_eq _
    rw [hrest, if_neg (mt head?_all_space_iff.mp hpresent), Outcome.bind_eq_error_iff]
    exact .inl (readFields_eq_error_iff.mpr ⟨_, _, _, rfl, hqs, hf⟩)
  | @timestamp m t ps qs fields hhead hne hqs ht =>
    have hfields := readFields_append hne hqs (atFieldsEnd_space t)
    obtain ⟨name, tags, hrest⟩ := hhead.decodeTrimmed_eq (fieldsText qs ++ ' ' :: t)
    rw [hrest, head?_all_space_of_readFields hfields]
    refine Outcome.bind_eq_error_iff.mpr (.inr ⟨_, hfields, ?_⟩)
    refine Outcome.bind_eq_error_iff.mpr (.inl ?_)
    exact readTimestamp_eq_error_iff.mpr ⟨t, rfl, ht, rfl⟩

/-! ## The text that is shown -/

/-- A literal that is refused is shown whole. -/
theorem text_of_classify {l : String} (h : FieldValue.classify l = .error e) : e.text = l := by
  rw [FieldValue.error_of_classify h]

@[simp] theorem toList_text_about (fault : Fault) (piece : List Char) :
    (Error.about fault piece).text.toList = piece := String.toList_ofList

theorem RefusedMeasurement.text_eq (h : RefusedMeasurement s e) : e.text.toList = s := by
  cases h with
  | openQuote => exact toList_text_about _ _
  | behind => exact toList_text_about _ _

theorem RefusedTag.text_eq (h : RefusedTag t e) : e.text.toList = t := by
  cases h with
  | noEquals => exact toList_text_about _ _
  | emptyKey => exact toList_text_about _ _
  | emptyValue => exact toList_text_about _ _

theorem value_isSuffix (k v : List Char) : v <:+ pairText (k, v) :=
  ⟨k ++ ['='], List.append_assoc _ _ _⟩

theorem RefusedField.text_isInfix (h : RefusedField s e) : e.text.toList <:+: s := by
  cases h with
  | noEquals =>
    rw [toList_text_about]
    exact (List.prefix_append _ _).isInfix
  | openQuote =>
    rw [toList_text_about]
    exact (value_isSuffix _ _).isInfix
  | emptyKey =>
    rw [toList_text_about]
    exact (List.prefix_append _ _).isInfix
  | @literal k v rest _ _ _ _ _ hclass =>
    rw [text_of_classify hclass, String.toList_ofList]
    have hvalue : trim v <:+: v := Text.strip_isInfix Text.isBlank v
    exact (hvalue.trans (value_isSuffix k v).isInfix).trans (List.prefix_append _ rest).isInfix

/-- Whatever is wrong with a line, the text that is shown is a piece of it. -/
theorem Refused.text_isInfix (h : Refused line e) : e.text.toList <:+: line := by
  cases h with
  | measurement h => rw [h.text_eq]
  | @openTag m name k r texts =>
    rw [toList_text_about]
    have hvalue : '"' :: r <:+ tagsText texts ++ ',' :: pairText (k, '"' :: r) :=
      ((value_isSuffix k _).trans (List.suffix_cons _ _)).trans (List.suffix_append _ _)
    exact (hvalue.trans (List.suffix_append m _)).isInfix
  | noSpace => rw [toList_text_about]
  | noMeasurement => rw [toList_text_about]
  | @tag m t body ps texts e _ _ h =>
    rw [h.text_eq, tagsText, List.flatMap_append, List.flatMap_cons]
    exact ⟨m ++ (ps.map pairText).flatMap (',' :: ·) ++ [','], tagsText texts ++ ' ' :: body,
      by simp [tagsText]⟩
  | noFields => rw [toList_text_about]
  | @field m f ps qs fields e _ _ _ h =>
    have hfield : f <:+ ' ' :: (leadingText qs ++ f) :=
      (List.suffix_append _ f).trans (List.suffix_cons _ _)
    exact h.text_isInfix.trans
      ((hfield.trans (List.suffix_append _ _)).trans (List.suffix_append m _)).isInfix
  | @timestamp m t ps qs =>
    rw [toList_text_about]
    have ht : t <:+ ' ' :: (fieldsText qs ++ ' ' :: t) :=
      ((List.suffix_cons _ t).trans (List.suffix_append _ _)).trans (List.suffix_cons _ _)
    exact ((ht.trans (List.suffix_append _ _)).trans (List.suffix_append m _)).isInfix

/-- A line is refused exactly for the fault of the first stage that fails on the trimmed line, and
the text that is shown stands there. -/
theorem decode_eq_error_iff {line : String} :
    decode line = .error e ↔
      Refused (trim line.toList) e ∧ e.text.toList <:+: trim line.toList := by
  constructor
  · intro h
    have hrefused := refused_of_decodeTrimmed h
    exact ⟨hrefused, hrefused.text_isInfix⟩
  · rintro ⟨h, -⟩
    exact h.decodeTrimmed_eq

-- No measurement, a tag without a key, one without an equals sign: the line has no space.
example : decode " ,=a,b " = .error ⟨.invalidFormat, ",=a,b"⟩ := by decide +kernel

end TimeSeries.Line
