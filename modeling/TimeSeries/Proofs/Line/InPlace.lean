/-
# TimeSeries.Proofs.Line.InPlace — lines read by places in their bytes.

The readers of lines take a text apart. Here they are again with a cursor: they walk over the bytes
of the line, keep places, and cut out of the line what they return. Where a place lies beyond the
line or inside a character, or two places are in the wrong order, a cut gives up and the reader with
it. No line brings that about, and what is read in place is what is read (`decodeInPlace_eq`).
-/
import TimeSeries.Proofs.Line.Encoded
import TimeSeries.Proofs.Text.Slice

namespace TimeSeries.Line

open Text (trim bytes size piece At)
open Outcome (Follows)

variable {s t rest : List Char} {i : Nat}

/-! ## Readers with a cursor -/

/-- A reader that fails as the readers of lines do, or gives up. -/
abbrev Scan := ExceptT Error Option

/-- What has been read from a place on, and the place behind it. -/
structure Taken (α : Type) (i : Nat) where
  value : α
  stop : Nat
  le : i ≤ stop

/-- The characters that end a measurement or a value. -/
def valueStops : List Char := [',', ' ']

/-- The characters that end a key. -/
def keyStops : List Char := ['=', ',', ' ']

/-- The number of bytes up to the quote that closes a token, and of that quote. -/
def closing? : List UInt8 → Option Nat
  | [] => none
  | [b] => if b = '"'.toUInt8 then some 1 else none
  | b :: b' :: bs =>
    if b = '\\'.toUInt8 ∧ b' = '"'.toUInt8 then (closing? bs).map (· + 2)
    else if b = '"'.toUInt8 then some 1
    else (closing? (b' :: bs)).map (· + 1)

theorem le_succ_add (i n : Nat) : i ≤ i + 1 + n := by omega

/-- Takes a quoted token with its quotes. -/
def takeQuoted (s : List Char) (i : Nat) : Scan (Taken (List Char) i) :=
  match closing? ((bytes s).drop (i + 1)) with
  | some n => do
    let text ← piece s i (i + 1 + n)
    pure ⟨text, i + 1 + n, le_succ_add i n⟩
  | none => do
    let text ← piece s i (size s)
    throw (.about .unterminatedQuote text)

/-- Takes what stands before the first of some characters. -/
def takeUntil (s stops : List Char) (i : Nat) : Scan (Taken (List Char) i) := do
  let stop := i + (((bytes s).drop i).takeWhile (· ∉ bytes stops)).length
  let text ← piece s i stop
  pure ⟨text, stop, Nat.le_add_right _ _⟩

/-- Takes a value: a quoted token, if one stands here, and bare text. -/
def takeValue (s : List Char) (i : Nat) : Scan (Taken (List Char) i) := do
  let token ← if (bytes s)[i]? = some '"'.toUInt8 then takeQuoted s i else pure ⟨[], i, Nat.le_refl i⟩
  let bare ← takeUntil s valueStops token.stop
  let text ← piece s i bare.stop
  pure ⟨text, bare.stop, Nat.le_trans token.le bare.le⟩

/-- Takes the measurement. The quotes of a quoted one are cut off. -/
def takeMeasurement (s : List Char) : Scan (Taken (List Char) 0) := do
  if (bytes s)[0]? = some '"'.toUInt8 then
    let token ← takeQuoted s 0
    if (bytes s)[token.stop]?.all (· ∈ bytes valueStops) then
      let inside ← piece token.value 1 (size token.value - 1)
      pure ⟨unescape inside, token.stop, token.le⟩
    else throw (.about .invalidTagFormat s)
  else takeUntil s valueStops 0

/-- Takes the text of a tag. -/
def takeTag (s : List Char) (i : Nat) : Scan (Taken (List Char) i) := do
  let key ← takeUntil s keyStops i
  if (bytes s)[key.stop]? = some '='.toUInt8 then
    let value ← takeValue s (key.stop + 1)
    let text ← piece s i value.stop
    pure ⟨text, value.stop, Nat.le_trans key.le (Nat.le_of_succ_le value.le)⟩
  else
    let text ← piece s i key.stop
    pure ⟨text, key.stop, key.le⟩

/-- Takes the texts of tags, each after its comma. -/
def takeTags (s : List Char) (i : Nat) : Scan (List (List Char) × Nat) :=
  if _h : (bytes s)[i]? = some ','.toUInt8 then do
    let tag ← takeTag s (i + 1)
    let (texts, stop) ← takeTags s tag.stop
    pure (tag.value :: texts, stop)
  else pure ([], i)
termination_by size s - i
decreasing_by
  have hlt := (List.getElem?_eq_some_iff.mp _h).1
  have hle := tag.le
  simp only [size]; omega

/-- The value of a tag without its quotes, which are cut off. -/
def unquoteInPlace (s : List Char) : Scan (List Char) :=
  if 2 ≤ size s ∧ s.head? = some '"' ∧ s.getLast? = some '"' then piece s 1 (size s - 1) else pure s

/-- Looks into the text of a tag. -/
def tagInPlace (text : List Char) : Scan (String × String) :=
  match text.dropWhile (· != '=') with
  | [] => throw (.about .invalidTagFormat text)
  | _ :: after => do
    let key := trim (text.takeWhile (· != '='))
    let value ← unquoteInPlace (trim after)
    if key.isEmpty then throw (.about .emptyTagKey text)
    else if value.isEmpty then throw (.about .emptyTagValue text)
    else pure (String.ofList key, String.ofList value)

/-- Takes a field, which is at least one byte long. -/
def takeField (s : List Char) (i : Nat) : Scan (Taken (String × FieldValue) (i + 1)) := do
  let key ← takeUntil s keyStops i
  if (bytes s)[key.stop]? = some '='.toUInt8 then
    let value ← takeValue s (key.stop + 1)
    if (trim key.value).isEmpty then
      let text ← piece s i value.stop
      throw (.about .emptyFieldKey text)
    else
      match FieldValue.classify (String.ofList (trim value.value)) with
      | .error e => throw e
      | .ok v =>
        pure ⟨(String.ofList (trim key.value), v), value.stop,
          Nat.le_trans (Nat.succ_le_succ key.le) value.le⟩
  else
    let text ← piece s i key.stop
    throw (.about .invalidFieldFormat text)

/-- Takes fields with commas between them. -/
def takeFields (s : List Char) (i : Nat) : Scan (List (String × FieldValue) × Nat) := do
  let field ← takeField s i
  if _h : (bytes s)[field.stop]? = some ','.toUInt8 then
    let (fields, stop) ← takeFields s (field.stop + 1)
    pure (field.value :: fields, stop)
  else pure ([field.value], field.stop)
termination_by size s - i
decreasing_by
  have hlt := (List.getElem?_eq_some_iff.mp _h).1
  have hle := field.le
  simp only [size]; omega

/-- Takes the timestamp, if there is one. -/
def takeTimestamp (s : List Char) (i : Nat) : Scan Nanos :=
  if (bytes s)[i]? = some ' '.toUInt8 then do
    let text ← piece s (i + 1) (size s)
    match Nanos.read? text with
    | none => throw (.about .invalidTimestamp text)
    | some n => pure n
  else pure .zero

/-- Reads a trimmed line in place. -/
def decodeTrimmedInPlace (line : List Char) : Scan Record := do
  let measurement ← takeMeasurement line
  let (texts, stop) ← takeTags line measurement.stop
  if (bytes line)[stop]? = some ' '.toUInt8 then
    if measurement.value.isEmpty then throw (.about .emptyMeasurement line)
    let tags ← texts.mapM tagInPlace
    if (bytes line)[stop + 1]?.all (· ∈ bytes [' ']) then throw (.about .missingFields line)
    let (fields, behind) ← takeFields line (stop + 1)
    let timestamp ← takeTimestamp line behind
    pure ⟨String.ofList measurement.value, tags, .ofList fields, timestamp⟩
  else throw (.about .invalidFormat line)

/-- Reads one line in place; none where a reader gives up. -/
def decodeInPlace (line : String) : Option (Except Error Record) :=
  (decodeTrimmedInPlace (trim line.toList)).run

/-! ## Tokens -/

/-- The reader with a cursor has read the same, and stops where the same is left. -/
def Reads {α : Type} {i : Nat} (s : List Char) (a : Taken α i) (b : α × List Char) : Prop :=
  a.value = b.1 ∧ At s a.stop b.2

theorem closing?_cons {b : UInt8} {bs : List UInt8} (hquote : b ≠ '"'.toUInt8)
    (hpair : b = '\\'.toUInt8 → bs.head? ≠ some '"'.toUInt8) :
    closing? (b :: bs) = (closing? bs).map (· + 1) := by
  cases bs with
  | nil => simp only [closing?, if_neg hquote, Option.map_none]
  | cons b' bs =>
    have hpair' : ¬ (b = '\\'.toUInt8 ∧ b' = '"'.toUInt8) := by
      rintro ⟨hb, rfl⟩
      exact hpair hb rfl
    rw [closing?, if_neg hpair', if_neg hquote]

theorem closing?_append {bs : List UInt8} (hbs : ∀ b ∈ bs, b ≠ '"'.toUInt8 ∧ b ≠ '\\'.toUInt8)
    (t : List UInt8) : closing? (bs ++ t) = (closing? t).map (· + bs.length) := by
  induction bs with
  | nil => simp
  | cons b bs ih =>
    rw [List.forall_mem_cons] at hbs
    rw [List.cons_append, closing?_cons hbs.1.1 fun h => absurd h hbs.1.2, ih hbs.2, Option.map_map]
    congr 1

theorem closing?_quote (bs : List UInt8) : closing? ('"'.toUInt8 :: bs) = some 1 := by
  cases bs with
  | nil => rfl
  | cons b bs => rw [closing?, if_neg (by rintro ⟨h, -⟩; exact absurd h (by decide)), if_pos rfl]

/-- A quoted token ends at the byte of its closing quote. -/
theorem closing?_bytes (s : List Char) :
    closing? (bytes s) = (readQuoted s).map fun (inside, _) => size inside + 1 := by
  fun_induction readQuoted s with
  | case1 => rfl
  | case2 r => exact closing?_quote _
  | case3 r ih =>
    have hbytes : bytes ('\\' :: '"' :: r) = '\\'.toUInt8 :: '"'.toUInt8 :: bytes r := rfl
    rw [hbytes, closing?, if_pos ⟨rfl, rfl⟩, ih, Option.map_map, Option.map_map]
    rfl
  | case4 c r hquote hpair ih =>
    have hquote' : c ≠ '"' := hquote
    have hnext : c = '\\' → r.head? ≠ some '"' := by
      rintro rfl hr
      obtain ⟨l, rfl⟩ := List.head?_eq_some_iff.mp hr
      exact hpair l rfl rfl
    -- A backslash is a byte of its own; any other character is passed over byte by byte.
    have hstep : closing? (bytes (c :: r)) = (closing? (bytes r)).map (· + c.utf8Size) := by
      rw [Text.bytes_cons]
      by_cases hc : c = '\\'
      · subst hc
        refine closing?_cons (by decide) fun _ => ?_
        exact mt (Text.head?_bytes_eq_iff (by decide)).mp (hnext rfl)
      · rw [← String.length_utf8EncodeChar]
        refine closing?_append (fun b hb => ⟨?_, ?_⟩) _
        · rintro rfl
          exact hquote' ((Text.toUInt8_mem_utf8EncodeChar_iff (by decide)).mp hb).symm
        · rintro rfl
          exact hc ((Text.toUInt8_mem_utf8EncodeChar_iff (by decide)).mp hb).symm
    rw [hstep, ih, Option.map_map, Option.map_map]
    congr 1
    funext p
    simp only [Function.comp_apply, Text.size_cons]
    omega

/-- What a reader of quoted tokens gives: the token with its quotes, and what follows it. -/
def readToken (s : List Char) : Except Error (List Char × List Char) :=
  match readQuoted s with
  | none => .error (.about .unterminatedQuote ('"' :: s))
  | some (inside, rest) => .ok (quoted inside, rest)

theorem size_quoted (s : List Char) : size (quoted s) = size s + 2 := by
  have hquote : '"'.utf8Size = 1 := by decide
  rw [quoted, List.cons_append, Text.size_cons, Text.size_append, Text.size_cons, Text.size_nil,
    hquote]
  omega

theorem takeQuoted_follows (h : At s i ('"' :: rest)) :
    Follows (Reads s) (takeQuoted s i) (readToken rest) := by
  have hrest := h.tail (by decide)
  unfold takeQuoted readToken
  rw [hrest.drop_bytes, closing?_bytes]
  cases hread : readQuoted rest with
  | none =>
    dsimp only [Option.map_none]
    rw [h.piece_size]
    exact .throw _
  | some p =>
    obtain ⟨inside, after⟩ := p
    obtain ⟨rfl, -⟩ := readQuoted_eq_some_iff.mp hread
    have htoken : At s i (quoted inside ++ after) := by rwa [quoted_append]
    have hafter : At s (i + 1 + (size inside + 1)) after := by
      have hsize : i + 1 + (size inside + 1) = i + size (quoted inside) := by
        rw [size_quoted]
        omega
      rw [hsize]
      exact htoken.append
    dsimp only [Option.map_some]
    rw [htoken.piece_eq hafter, pure_bind]
    exact .pure ⟨rfl, hafter⟩

theorem takeUntil_follows (stops : List Char) (hstops : ∀ c ∈ stops, c.toNat < 128)
    (h : At s i rest) :
    Follows (Reads s) (takeUntil s stops i)
      (.ok (rest.takeWhile (· ∉ stops), rest.dropWhile (· ∉ stops))) := by
  have hsplit : At s i (rest.takeWhile (· ∉ stops) ++ rest.dropWhile (· ∉ stops)) := by
    rwa [List.takeWhile_append_dropWhile]
  have hstop : At s (i + (((bytes s).drop i).takeWhile (· ∉ bytes stops)).length)
      (rest.dropWhile (· ∉ stops)) := by
    rw [h.drop_bytes, Text.takeWhile_bytes hstops]
    exact hsplit.append
  unfold takeUntil
  dsimp only
  rw [hsplit.piece_eq hstop, pure_bind]
  exact .pure ⟨rfl, hstop⟩

theorem mem_valueStops : (fun c => decide (c ∈ valueStops)) = endsValue := by
  funext c
  rw [Bool.eq_iff_iff]
  simp [valueStops, endsValue]

theorem notMem_valueStops : (fun c => decide (c ∉ valueStops)) = (!endsValue ·) := by
  funext c
  rw [Bool.eq_iff_iff]
  simp [valueStops, endsValue]

theorem notMem_keyStops : (fun c => decide (c ∉ keyStops)) = (!endsKey ·) := by
  funext c
  rw [Bool.eq_iff_iff]
  simp [keyStops, endsKey, endsValue]

theorem takeBare_follows (h : At s i rest) :
    Follows (Reads s) (takeUntil s valueStops i)
      (.ok (rest.takeWhile (!endsValue ·), rest.dropWhile (!endsValue ·))) := by
  have hfollows := takeUntil_follows valueStops (by simp [valueStops]) h
  rwa [notMem_valueStops] at hfollows

theorem takeKey_follows {k : List Char} (h : At s i (k ++ rest)) (hk : IsKeyText k)
    (hend : ∀ x ∈ rest.head?, endsKey x = true) :
    Follows (Reads s) (takeUntil s keyStops i) (.ok (k, rest)) := by
  obtain ⟨htake, hdrop⟩ := key_span_iff.mpr ⟨rfl, hk, hend⟩
  have hfollows := takeUntil_follows keyStops (by simp [keyStops]) h
  rwa [notMem_keyStops, htake, hdrop] at hfollows

theorem readValue_quote (s : List Char) :
    readValue ('"' :: s) =
      readToken s >>= fun (token, rest) =>
        .ok (token ++ rest.takeWhile (!endsValue ·), rest.dropWhile (!endsValue ·)) := by
  rw [readValue, readToken]
  cases readQuoted s with
  | none => rfl
  | some p =>
    show Except.ok _ = Except.ok (quoted p.1 ++ _, _)
    rw [quoted_append]
    rfl

theorem readValue_of_head?_ne (h : s.head? ≠ some '"') :
    readValue s = .ok (s.takeWhile (!endsValue ·), s.dropWhile (!endsValue ·)) := by
  rw [readValue]
  rintro r rfl
  exact h rfl

theorem eq_append_of_readToken {token : List Char} (h : readToken s = .ok (token, rest)) :
    '"' :: s = token ++ rest := by
  unfold readToken at h
  split at h
  · cases h
  · rename_i inside after hread
    obtain ⟨rfl, rfl⟩ := Prod.mk.inj (Except.ok.inj h)
    obtain ⟨rfl, -⟩ := readQuoted_eq_some_iff.mp hread
    rw [quoted_append]

/-- Behind a token, if there is one, a value goes on with bare text. -/
theorem takeTail_follows (token : List Char) {after : List Char} {stop : Nat}
    (h : At s i (token ++ after)) (hstop : At s stop after) (hle : i ≤ stop) :
    Follows (Reads s)
      (do
        let bare ← takeUntil s valueStops stop
        let text ← piece s i bare.stop
        pure (⟨text, bare.stop, Nat.le_trans hle bare.le⟩ : Taken (List Char) i))
      (.ok (token ++ after.takeWhile (!endsValue ·), after.dropWhile (!endsValue ·))) := by
  obtain ⟨bare, htake, -, hrest⟩ := takeBare_follows hstop
  have hvalue : At s i ((token ++ after.takeWhile (!endsValue ·)) ++
      after.dropWhile (!endsValue ·)) := by
    rwa [List.append_assoc, List.takeWhile_append_dropWhile]
  rw [htake, pure_bind, hvalue.piece_eq hrest, pure_bind]
  exact .pure ⟨rfl, hrest⟩

theorem takeValue_follows (h : At s i rest) :
    Follows (Reads s) (takeValue s i) (readValue rest) := by
  unfold takeValue
  by_cases hquote : rest.head? = some '"'
  · obtain ⟨r, rfl⟩ := List.head?_eq_some_iff.mp hquote
    rw [if_pos ((h.getElem?_eq_iff (by decide)).mpr rfl), readValue_quote]
    refine (takeQuoted_follows h).bind ?_
    rintro token ⟨text, after⟩ hread ⟨-, hafter⟩
    rw [eq_append_of_readToken hread] at h
    exact takeTail_follows text h hafter token.le
  · rw [if_neg (mt (h.getElem?_eq_iff (by decide)).mp hquote), readValue_of_head?_ne hquote,
      pure_bind]
    exact takeTail_follows [] h h (Nat.le_refl i)

/-- The quotes of a quoted token can be cut off. -/
theorem piece_quoted (c : List Char) :
    (piece (quoted c) 1 (size (quoted c) - 1) : Scan _) = pure c := by
  have hstart : At (quoted c) 1 (c ++ ['"']) := (At.start (quoted c)).tail (by decide)
  have hstop : At (quoted c) (size (quoted c) - 1) ['"'] := by
    have hsize : size (quoted c) - 1 = 1 + size c := by
      rw [size_quoted]
      omega
    rw [hsize]
    exact hstart.append
  exact hstart.piece_eq hstop

theorem takeMeasurement_follows (s : List Char) :
    Follows (Reads s) (takeMeasurement s) (readMeasurement s) := by
  have h := At.start s
  unfold takeMeasurement
  by_cases hquote : s.head? = some '"'
  · obtain ⟨r, rfl⟩ := List.head?_eq_some_iff.mp hquote
    have htoken := takeQuoted_follows h
    rw [if_pos ((h.getElem?_eq_iff (by decide)).mpr rfl), readMeasurement]
    unfold readToken at htoken
    cases hread : readQuoted r with
    | none =>
      rw [hread] at htoken
      rw [show takeQuoted _ 0 = _ from htoken]
      exact .throw _
    | some p =>
      obtain ⟨inside, after⟩ := p
      rw [hread] at htoken
      obtain ⟨token, htake, hvalue, hafter⟩ := htoken
      have hends : ((bytes ('"' :: r))[token.stop]?.all (· ∈ bytes valueStops)) =
          after.head?.all endsValue := by
        rw [hafter.all_getElem? (by simp [valueStops]), mem_valueStops]
      rw [htake, pure_bind, hends]
      dsimp only
      -- The quotes are cut off only where the token ends the measurement.
      split
      · rw [show token.value = quoted inside from hvalue, piece_quoted, pure_bind]
        exact .pure ⟨rfl, hafter⟩
      · exact .throw _
  · rw [if_neg (mt (h.getElem?_eq_iff (by decide)).mp hquote), readMeasurement]
    · exact takeBare_follows h
    · rintro r rfl
      exact hquote rfl

/-! ## Tags -/

/-- Where a key ends, the next byte is that of an equals sign only if one follows. -/
theorem getElem?_ne_of_atSeparator {stop : Nat} (h : At s stop rest) (hsep : AtSeparator rest) :
    (bytes s)[stop]? ≠ some '='.toUInt8 := by
  rw [ne_eq, h.getElem?_eq_iff (by decide)]
  intro hequals
  exact absurd (hsep '=' hequals) (by decide)

theorem takeTag_follows (h : At s i rest) :
    Follows (Reads s) (takeTag s i) (readTagText rest) := by
  unfold takeTag
  cases startsWithKey rest with
  | separator hk hsep =>
    obtain ⟨key, htake, -, hend⟩ := takeKey_follows h hk hsep.endsKey
    rw [htake, pure_bind, if_neg (getElem?_ne_of_atSeparator hend hsep), readTagText_key hk hsep,
      h.piece_eq hend, pure_bind]
    exact .pure ⟨rfl, hend⟩
  | equals hk r =>
    obtain ⟨key, htake, -, hend⟩ := takeKey_follows h hk (endsKey_equals r)
    rw [htake, pure_bind, if_pos ((hend.getElem?_eq_iff (by decide)).mpr rfl), readTagText_pair hk]
    refine (takeValue_follows (hend.tail (by decide))).bind ?_
    rintro value ⟨v, after⟩ hread ⟨-, hafter⟩
    obtain ⟨rfl, -⟩ := readValue_eq_ok_iff.mp hread
    rw [← pairText_append] at h
    rw [h.piece_eq hafter, pure_bind]
    exact .pure ⟨rfl, hafter⟩

/-- The reader with a cursor has read the same list, and stops where the same is left. -/
def ReadsAll {α : Type} (s : List Char) (a : List α × Nat) (b : List α × List Char) : Prop :=
  a.1 = b.1 ∧ At s a.2 b.2

theorem takeTags_follows (h : At s i rest) :
    Follows (ReadsAll s) (takeTags s i) (readTagTexts rest) := by
  -- On what is left of the line: a tag takes a part of it that is not known beforehand.
  induction hn : rest.length using Nat.strong_induction_on generalizing i rest with
  | _ n ih =>
    rw [takeTags]
    by_cases hcomma : rest.head? = some ','
    · obtain ⟨r, rfl⟩ := List.head?_eq_some_iff.mp hcomma
      rw [dif_pos ((h.getElem?_eq_iff (by decide)).mpr rfl), readTagTexts_comma]
      refine (takeTag_follows (h.tail (by decide))).bind ?_
      rintro tag ⟨text, after⟩ hread ⟨htag, hafter⟩
      have hlength : after.length ≤ r.length := length_readTagText hread
      rw [List.length_cons] at hn
      refine (ih after.length (by omega) hafter rfl).bind ?_
      rintro ⟨texts, stop⟩ ⟨texts', left⟩ - ⟨htexts, hleft⟩
      obtain rfl : texts = texts' := htexts
      exact .pure ⟨congrArg (· :: texts) htag, hleft⟩
    · rw [dif_neg (mt (h.getElem?_eq_iff (by decide)).mp hcomma), readTagTexts_of_head?_ne hcomma]
      exact .pure ⟨rfl, h⟩

/-- A text with a quote at either end is a quoted text, unless both are the same quote. -/
theorem exists_quoted_of_quotes (hne : s ≠ ['"']) (hhead : s.head? = some '"')
    (hlast : s.getLast? = some '"') : ∃ c, s = quoted c := by
  obtain ⟨t, rfl⟩ := List.head?_eq_some_iff.mp hhead
  have ht : t ≠ [] := by
    rintro rfl
    exact hne rfl
  rw [List.getLast?_cons_of_ne_nil ht] at hlast
  exact ⟨t.dropLast, by rw [quoted, List.cons_append, List.dropLast_append_getLast? _ hlast]⟩

theorem unquoteInPlace_eq (s : List Char) : unquoteInPlace s = pure (unquote s) := by
  unfold unquoteInPlace
  by_cases hquoted : ∃ c, s = quoted c
  · obtain ⟨c, rfl⟩ := hquoted
    have hquotes : 2 ≤ size (quoted c) ∧ (quoted c).head? = some '"' ∧
        (quoted c).getLast? = some '"' :=
      ⟨by rw [size_quoted]; omega, rfl, by rw [quoted, List.getLast?_concat]⟩
    rw [if_pos hquotes, piece_quoted, unquote_quoted]
  -- One quote alone is at both ends of its text, and is left there.
  · have hself : unquote s = s := by
      rw [unquote_eq_self_iff]
      rintro ⟨hlength, hhead, hlast⟩
      refine hquoted (exists_quoted_of_quotes ?_ hhead hlast)
      rintro rfl
      exact absurd hlength (by decide)
    rw [hself, if_neg]
    rintro ⟨hsize, hhead, hlast⟩
    refine hquoted (exists_quoted_of_quotes ?_ hhead hlast)
    rintro rfl
    exact absurd hsize (by decide)

theorem tagInPlace_follows (text : List Char) :
    Follows Eq (tagInPlace text) (tagOfText text) := by
  unfold tagInPlace tagOfText
  cases text.dropWhile (· != '=') with
  | nil => exact .throw _
  | cons c after =>
    dsimp only
    rw [unquoteInPlace_eq, pure_bind]
    split
    · exact .throw _
    · split
      · exact .throw _
      · exact .pure rfl

/-! ## Fields and timestamp -/

theorem takeField_follows (h : At s i rest) :
    Follows (Reads s) (takeField s i) (readField rest) := by
  unfold takeField
  cases startsWithKey rest with
  | separator hk hsep =>
    obtain ⟨key, htake, -, hend⟩ := takeKey_follows h hk hsep.endsKey
    rw [htake, pure_bind, if_neg (getElem?_ne_of_atSeparator hend hsep), readField_key hk hsep,
      h.piece_eq hend, pure_bind]
    exact .throw _
  | @equals k hk r =>
    obtain ⟨key, htake, hkey, hend⟩ := takeKey_follows h hk (endsKey_equals r)
    rw [htake, pure_bind, if_pos ((hend.getElem?_eq_iff (by decide)).mpr rfl), readField_pair hk,
      show key.value = k from hkey]
    refine (takeValue_follows (hend.tail (by decide))).bind ?_
    rintro value ⟨v, after⟩ hread ⟨hvalue, hafter⟩
    obtain ⟨rfl, -⟩ := readValue_eq_ok_iff.mp hread
    rw [← pairText_append] at h
    rw [show value.value = v from hvalue]
    simp only [List.isEmpty_iff]
    split
    · rw [h.piece_eq hafter, pure_bind]
      exact .throw _
    · cases FieldValue.classify (String.ofList (trim v)) with
      | error e => exact .throw _
      | ok literal => exact .pure ⟨rfl, hafter⟩

theorem takeFields_follows (h : At s i rest) :
    Follows (ReadsAll s) (takeFields s i) (readFields rest) := by
  induction hn : rest.length using Nat.strong_induction_on generalizing i rest with
  | _ n ih =>
    rw [takeFields, readFields_eq]
    refine (takeField_follows h).bind ?_
    rintro field ⟨pair, after⟩ hread ⟨hfield, hafter⟩
    have hlength : after.length < rest.length := length_readField hread
    by_cases hcomma : after.head? = some ','
    · obtain ⟨r, rfl⟩ := List.head?_eq_some_iff.mp hcomma
      rw [dif_pos ((hafter.getElem?_eq_iff (by decide)).mpr rfl)]
      rw [List.length_cons] at hlength
      refine (ih _ (by omega) (hafter.tail (by decide)) rfl).bind ?_
      rintro ⟨fields, stop⟩ ⟨fields', left⟩ - ⟨hfields, hleft⟩
      obtain rfl : fields = fields' := hfields
      exact .pure ⟨congrArg (· :: fields) hfield, hleft⟩
    · rw [dif_neg (mt (hafter.getElem?_eq_iff (by decide)).mp hcomma)]
      dsimp only
      split
      · exact absurd rfl hcomma
      · exact .pure ⟨congrArg (fun p => [p]) hfield, hafter⟩

theorem takeTimestamp_follows (h : At s i rest) :
    Follows Eq (takeTimestamp s i) (readTimestamp rest) := by
  unfold takeTimestamp
  by_cases hspace : rest.head? = some ' '
  · obtain ⟨r, rfl⟩ := List.head?_eq_some_iff.mp hspace
    rw [if_pos ((h.getElem?_eq_iff (by decide)).mpr rfl), (h.tail (by decide)).piece_size, pure_bind,
      readTimestamp]
    cases Nanos.read? r with
    | none => exact .throw _
    | some n => exact .pure rfl
  · rw [if_neg (mt (h.getElem?_eq_iff (by decide)).mp hspace), readTimestamp]
    · exact .pure rfl
    · rintro r rfl
      exact hspace rfl

/-! ## Lines -/

theorem decodeTrimmedInPlace_follows (line : List Char) :
    Follows Eq (decodeTrimmedInPlace line) (decodeTrimmed line) := by
  unfold decodeTrimmedInPlace decodeTrimmed
  refine (takeMeasurement_follows line).bind ?_
  rintro measurement ⟨name, after⟩ - ⟨hname, hafter⟩
  refine (takeTags_follows hafter).bind ?_
  rintro ⟨texts, stop⟩ ⟨texts', rest⟩ - ⟨htexts, hrest⟩
  obtain rfl : texts = texts' := htexts
  dsimp only at hname hrest ⊢
  by_cases hspace : rest.head? = some ' '
  · obtain ⟨body, rfl⟩ := List.head?_eq_some_iff.mp hspace
    have hbody := hrest.tail (by decide)
    rw [if_pos ((hrest.getElem?_eq_iff (by decide)).mpr rfl), hname]
    have habsent : ((bytes line)[stop + 1]?.all (· ∈ bytes [' '])) =
        body.head?.all (· == ' ') := by
      rw [hbody.all_getElem? (by simp)]
      congr 1
      funext c
      rw [Bool.eq_iff_iff]
      simp
    cases name.isEmpty with
    | true => exact .throw _
    | false =>
      refine (Follows.mapM fun text _ => tagInPlace_follows text).bind ?_
      rintro tags _ - rfl
      rw [habsent]
      cases body.head?.all (· == ' ') with
      | true => exact .throw _
      | false =>
        refine (takeFields_follows hbody).bind ?_
        rintro ⟨fields, behind⟩ ⟨fields', left⟩ - ⟨hfields, hleft⟩
        obtain rfl : fields = fields' := hfields
        refine (takeTimestamp_follows hleft).bind ?_
        rintro n _ - rfl
        exact .pure rfl
  · rw [if_neg (mt (hrest.getElem?_eq_iff (by decide)).mp hspace)]
    split
    · exact absurd rfl hspace
    · exact .throw _

/-- A line can be read in place: no reader gives up on it, and what comes out is what is read. -/
theorem decodeInPlace_eq (line : String) : decodeInPlace line = some (decode line) :=
  Outcome.follows_eq_iff.mp (decodeTrimmedInPlace_follows _)

end TimeSeries.Line
