/-
# TimeSeries.Line.Decode — reading one line of line protocol.

    measurement[,tag=value...] field=value[,field=value...] [timestamp]

The line is trimmed and then read once from left to right. Tags are cut out first and looked into
only when the space that ends them has been found; fields are looked into one by one as they are
read. The first fault in that order is the one reported.
-/
import TimeSeries.Line.Token
import TimeSeries.Record
import TimeSeries.Text.Blank

namespace TimeSeries.Line

open Text (trim)

/-! ## Measurement and tags -/

/-- Reads the measurement of a line: a quoted token, which only a comma, a space or the end may
follow, or bare text. -/
def readMeasurement : List Char → Except Error (List Char × List Char)
  | '"' :: s =>
    match readQuoted s with
    | none => .error (.about .unterminatedQuote ('"' :: s))
    | some (inside, rest) =>
      if rest.head?.all endsValue then .ok (unescape inside, rest)
      else .error (.about .invalidTagFormat ('"' :: s))
  | s => .ok (s.takeWhile (!endsValue ·), s.dropWhile (!endsValue ·))

/-- Reads the text of one tag, without looking into it. -/
def readTagText (s : List Char) : Except Error (List Char × List Char) :=
  let key := s.takeWhile (!endsKey ·)
  match s.dropWhile (!endsKey ·) with
  | '=' :: r =>
    match readValue r with
    | .error e => .error e
    | .ok (value, rest) => .ok (key ++ '=' :: value, rest)
  | rest => .ok (key, rest)

theorem length_readTagText {s text rest : List Char} (h : readTagText s = .ok (text, rest)) :
    rest.length ≤ s.length := by
  have h0 := length_dropWhile_le (!endsKey ·) s
  unfold readTagText at h
  simp only at h
  split at h
  · rename_i r hr
    split at h
    · cases h
    · rename_i value rest' hv
      cases h
      have := length_readValue hv
      rw [hr] at h0
      simp only [List.length_cons] at h0; omega
  · cases h
    exact h0

/-- Reads the texts of the tags, each after its comma. -/
def readTagTexts : List Char → Except Error (List (List Char) × List Char)
  | ',' :: s =>
    match _h : readTagText s with
    | .error e => .error e
    | .ok (text, rest) =>
      match readTagTexts rest with
      | .error e => .error e
      | .ok (texts, rest) => .ok (text :: texts, rest)
  | s => .ok ([], s)
termination_by s => s.length
decreasing_by
  have := length_readTagText _h
  simp only [List.length_cons]; omega

/-- Drops one pair of quotes around a text; what stands inside is kept as written. -/
def unquote (s : List Char) : List Char :=
  if 2 ≤ s.length ∧ s.head? = some '"' ∧ s.getLast? = some '"' then s.tail.dropLast else s

/-- The key and the value of a tag: the texts before and after its first `=`, trimmed, the value
without its quotes. Neither may be empty. -/
def tagOfText (text : List Char) : Except Error (String × String) :=
  match text.dropWhile (· != '=') with
  | [] => .error (.about .invalidTagFormat text)
  | _ :: after =>
    let key := trim (text.takeWhile (· != '='))
    let value := unquote (trim after)
    if key.isEmpty then .error (.about .emptyTagKey text)
    else if value.isEmpty then .error (.about .emptyTagValue text)
    else .ok (String.ofList key, String.ofList value)

/-! ## Fields and timestamp -/

/-- Reads one field: a key, `=` and a value whose literal is classified. -/
def readField (s : List Char) : Except Error ((String × FieldValue) × List Char) :=
  let key := s.takeWhile (!endsKey ·)
  match s.dropWhile (!endsKey ·) with
  | '=' :: r =>
    match readValue r with
    | .error e => .error e
    | .ok (value, rest) =>
      if (trim key).isEmpty then .error (.about .emptyFieldKey (key ++ '=' :: value))
      else
        match FieldValue.classify (String.ofList (trim value)) with
        | .error e => .error e
        | .ok v => .ok ((String.ofList (trim key), v), rest)
  | _ => .error (.about .invalidFieldFormat key)

theorem length_readField {s rest : List Char} {field : String × FieldValue}
    (h : readField s = .ok (field, rest)) : rest.length < s.length := by
  have h0 := length_dropWhile_le (!endsKey ·) s
  unfold readField at h
  simp only at h
  split at h
  · rename_i r hr
    split at h
    · cases h
    · rename_i value rest' hv
      split at h
      · cases h
      · split at h
        · cases h
        · cases h
          have := length_readValue hv
          rw [hr] at h0
          simp only [List.length_cons] at h0; omega
  · cases h

/-- Reads fields with commas between them. -/
def readFields (s : List Char) : Except Error (List (String × FieldValue) × List Char) :=
  match _h : readField s with
  | .error e => .error e
  | .ok (field, ',' :: rest) =>
    match readFields rest with
    | .error e => .error e
    | .ok (fields, rest) => .ok (field :: fields, rest)
  | .ok (field, rest) => .ok ([field], rest)
termination_by s.length
decreasing_by
  have := length_readField _h
  simp only [List.length_cons] at this; omega

/-- Reads the timestamp: all that follows one space, or none at all. -/
def readTimestamp : List Char → Except Error Nanos
  | ' ' :: s =>
    match Nanos.read? s with
    | none => .error (.about .invalidTimestamp s)
    | some n => .ok n
  | _ => .ok .zero

/-! ## Lines -/

/-- Reads a trimmed line. -/
def decodeTrimmed (line : List Char) : Except Error Record := do
  let (measurement, rest) ← readMeasurement line
  let (texts, rest) ← readTagTexts rest
  match rest with
  | ' ' :: body =>
    if measurement.isEmpty then .error (.about .emptyMeasurement line)
    let tags ← texts.mapM tagOfText
    if body.head?.all (· == ' ') then .error (.about .missingFields line)
    let (fields, rest) ← readFields body
    let timestamp ← readTimestamp rest
    .ok ⟨String.ofList measurement, tags, .ofList fields, timestamp⟩
  | _ => .error (.about .invalidFormat line)

/-- Reads one line. -/
def decode (line : String) : Except Error Record := decodeTrimmed (trim line.toList)

end TimeSeries.Line
