/-
# TimeSeries.Proofs.Store.TagText — tags as one text.

A row has one column for all tags of a sample. They stand there as a JSON array of arrays of two
strings, and are read back from it. A string that was written between quotes is read back whatever
its characters are, so the tags are too (`readTags?_tagText`).
-/
import TimeSeries.CommandLine.Json
import TimeSeries.Proofs.Text.Reader
import TimeSeries.Toml.Quoted

namespace TimeSeries

open Text (Reader)

/-! ## Strings -/

namespace CommandLine.Json

/-- The character that an escape stands for, after its backslash. -/
def escaped : Reader Char := do
  match ← Reader.oneOf fun _ => true with
  | '"' => pure '"'
  | '\\' => pure '\\'
  | '/' => pure '/'
  | 'b' => pure '\x08'
  | 'f' => pure '\x0c'
  | 'n' => pure '\n'
  | 'r' => pure '\r'
  | 't' => pure '\t'
  | 'u' => Toml.codePoint 4
  | _ => Reader.refuse

/-- A character that stands inside a string as it is. -/
def isPlain (c : Char) : Bool := ' ' ≤ c && c != '"' && c != '\\'

/-- A character inside a string. -/
def character : Reader Char :=
  (Reader.oneOf isPlain).or (do Reader.skip '\\'; escaped)

/-- A string between quotes. -/
def quotedString : Reader String := do
  Reader.skip '"'
  let cs ← Reader.many character
  Reader.skip '"'
  pure (String.ofList cs)

theorem takes_escape {c : Char} {e s : List Char} (h : Reader.Takes escaped (e ++ s) c s) :
    Reader.Takes character ('\\' :: e ++ s) c s := by
  have hrefuses : Reader.oneOf isPlain ('\\' :: (e ++ s)) = none := by
    rw [Reader.oneOf, if_neg (by decide)]
  exact Reader.takes_or_of_refuses hrefuses ((Reader.takes_skip '\\' (e ++ s)).bind h)

theorem takes_codePoint {n : Nat} (h : n < 32) (s : List Char) :
    Reader.Takes escaped ('u' :: (List.replicate (4 - (Nat.toDigits 16 n).length) '0' ++
      Nat.toDigits 16 n) ++ s) (Char.ofNat n) s := by
  interval_cases n <;> exact ⟨(List.suffix_append _ s).length_le, rfl⟩

/-- A character is read back from how it stands inside a string. -/
theorem takes_character (c : Char) (s : List Char) :
    Reader.Takes character (stringChar c ++ s) c s := by
  unfold stringChar
  split
  iterate 7 exact takes_escape ⟨by simp, rfl⟩
  · rename_i hquote hbackslash _ _ _ _ _
    split
    · rename_i hlt
      have h := takes_codePoint (n := c.toNat) hlt s
      rw [Char.ofNat_toNat] at h
      exact takes_escape h
    · rename_i hle
      have hplain : isPlain c = true := by
        unfold isPlain
        simp only [Bool.and_eq_true, decide_eq_true_eq, bne_iff_ne]
        exact ⟨⟨Char.not_lt.mp hle, hquote⟩, hbackslash⟩
      exact (Reader.takes_oneOf hplain).or

theorem stringChar_ne_nil (c : Char) : stringChar c ≠ [] := by
  unfold stringChar
  split <;> try exact List.cons_ne_nil _ _
  split <;> exact List.cons_ne_nil _ _

/-- A string is read back from its text between quotes. -/
theorem takes_quotedString (t : String) (s : List Char) :
    Reader.Takes quotedString ((quoted t).toList ++ s) t s := by
  have hmany : Reader.Takes (Reader.many character) (t.toList.flatMap stringChar ++ '"' :: s)
      t.toList ('"' :: s) := by
    exact Reader.takes_many (fun c _ => ⟨stringChar_ne_nil c, takes_character c⟩) rfl
  have htext : (quoted t).toList ++ s = '"' :: (t.toList.flatMap stringChar ++ '"' :: s) := by
    rw [quoted, String.toList_ofList]
    simp
  rw [htext]
  refine (Reader.takes_skip '"' _).bind (hmany.bind ((Reader.takes_skip '"' s).bind ?_))
  rw [String.ofList_toList]
  exact Reader.takes_pure t s

end CommandLine.Json

/-! ## Tags -/

open CommandLine (Json)

/-- A tag as a JSON array. -/
def tagPair (tag : String × String) : List Char :=
  '[' :: (Json.quoted tag.1).toList ++ ',' :: (Json.quoted tag.2).toList ++ [']']

/-- Tags as a JSON array. -/
def tagText : List (String × String) → String
  | [] => "[]"
  | tag :: tags =>
    String.ofList ('[' :: tagPair tag ++ (tags.flatMap fun tag => [','] ++ tagPair tag) ++ [']'])

/-- A tag from a JSON array. -/
def tagReader : Reader (String × String) := do
  Reader.skip '['
  let key ← Json.quotedString
  Reader.skip ','
  let value ← Json.quotedString
  Reader.skip ']'
  pure (key, value)

/-- The tags that a text tells. -/
def readTags? (s : String) : Option (List (String × String)) :=
  Reader.read? (do
    Reader.skip '['
    let tags ← (Reader.separated tagReader (Reader.skip ',')).or (pure [])
    Reader.skip ']'
    pure tags) s.toList

theorem takes_tagPair (tag : String × String) (s : List Char) :
    Reader.Takes tagReader (tagPair tag ++ s) tag s := by
  have htext : tagPair tag ++ s = '[' :: ((Json.quoted tag.1).toList ++
      ',' :: ((Json.quoted tag.2).toList ++ ']' :: s)) := by
    rw [tagPair]
    simp
  rw [htext]
  refine (Reader.takes_skip '[' _).bind ((Json.takes_quotedString tag.1 _).bind ?_)
  refine (Reader.takes_skip ',' _).bind ((Json.takes_quotedString tag.2 _).bind ?_)
  exact (Reader.takes_skip ']' s).bind (Reader.takes_pure tag s)

/-- Tags are read back from their text. -/
theorem readTags?_tagText (tags : List (String × String)) :
    readTags? (tagText tags) = some tags := by
  refine Reader.Takes.read? ?_
  cases tags with
  | nil => exact ⟨by simp, rfl⟩
  | cons tag tags =>
    have htags : Reader.Takes (Reader.separated tagReader (Reader.skip ','))
        (tagPair tag ++ (tags.flatMap fun tag => [','] ++ tagPair tag) ++ [']'])
        (tag :: tags) [']'] :=
      Reader.takes_separated (fun tag _ => takes_tagPair tag) (List.cons_ne_nil _ _)
        (Reader.takes_skip ',') rfl
    rw [tagText, String.toList_ofList]
    refine (Reader.takes_skip '[' _).bind (htags.or.bind ?_)
    exact (Reader.takes_skip ']' []).bind (Reader.takes_pure (tag :: tags) [])

end TimeSeries
