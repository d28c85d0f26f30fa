/-
# TimeSeries.Line.Token — the tokens of line protocol.

A quote opens a quoted token only at the start of a measurement, a tag value or a field value.
Inside it a quote after a backslash does not close the token, and every other character stands for
itself. Each reader here returns the token and what it has not read.
-/
import TimeSeries.Line.Error

namespace TimeSeries.Line

/-! ## Where bare text ends -/

/-- The characters that end a measurement or a value. -/
def endsValue (c : Char) : Bool := c == ',' || c == ' '

/-- The characters that end a key. -/
def endsKey (c : Char) : Bool := c == '=' || endsValue c

theorem length_dropWhile_le (p : Char → Bool) :
    ∀ s : List Char, (s.dropWhile p).length ≤ s.length
  | [] => Nat.le_refl _
  | c :: s => by
      rw [List.dropWhile_cons]
      split
      · exact Nat.le_succ_of_le (length_dropWhile_le p s)
      · exact Nat.le_refl _

/-! ## Quoted tokens -/

/-- Reads up to the quote that closes a token whose opening quote has been read: what stands
inside, as written, and what follows the closing quote. -/
def readQuoted : List Char → Option (List Char × List Char)
  | [] => none
  | '"' :: rest => some ([], rest)
  | '\\' :: '"' :: rest => (readQuoted rest).map fun (inside, r) => ('\\' :: '"' :: inside, r)
  | c :: rest => (readQuoted rest).map fun (inside, r) => (c :: inside, r)

theorem length_readQuoted {s inside rest : List Char} (h : readQuoted s = some (inside, rest)) :
    rest.length < s.length := by
  fun_induction readQuoted s generalizing inside with
  | case1 => cases h
  | case2 r => cases h; simp
  | case3 r ih =>
    obtain ⟨⟨i, r'⟩, hq, he⟩ := Option.map_eq_some_iff.1 h
    cases he
    have := ih hq
    simp only [List.length_cons]; omega
  | case4 c r _ _ ih =>
    obtain ⟨⟨i, r'⟩, hq, he⟩ := Option.map_eq_some_iff.1 h
    cases he
    have := ih hq
    simp only [List.length_cons]; omega

/-- Writes a backslash before every quote. -/
def escape : List Char → List Char
  | [] => []
  | c :: s => if c = '"' then '\\' :: '"' :: escape s else c :: escape s

/-- Reads a quote for every quote after a backslash. -/
def unescape : List Char → List Char
  | [] => []
  | '\\' :: '"' :: s => '"' :: unescape s
  | c :: s => c :: unescape s

theorem escape_cons_quote (s : List Char) : escape ('"' :: s) = '\\' :: '"' :: escape s := by
  simp [escape]

/-! ## Value tokens -/

/-- Reads a value: an optional quoted token, then bare text up to a comma or a space. A quoted
token that never closes is shown from its opening quote on. -/
def readValue : List Char → Except Error (List Char × List Char)
  | '"' :: s =>
    match readQuoted s with
    | none => .error (.about .unterminatedQuote ('"' :: s))
    | some (inside, rest) =>
      .ok ('"' :: inside ++ '"' :: rest.takeWhile (!endsValue ·), rest.dropWhile (!endsValue ·))
  | s => .ok (s.takeWhile (!endsValue ·), s.dropWhile (!endsValue ·))

theorem length_readValue {s value rest : List Char} (h : readValue s = .ok (value, rest)) :
    rest.length ≤ s.length := by
  unfold readValue at h
  split at h
  · rename_i s
    split at h
    · cases h
    · rename_i inside r hq
      cases h
      have h1 := length_readQuoted hq
      have h2 := length_dropWhile_le (!endsValue ·) r
      simp only [List.length_cons]; omega
  · cases h
    exact length_dropWhile_le _ s

end TimeSeries.Line
