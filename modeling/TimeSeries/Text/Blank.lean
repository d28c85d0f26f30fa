/-
# TimeSeries.Text.Blank — blank characters, and what is left once they are stripped.

Blank means the character property `White_Space`: 25 characters, six of them in ASCII. Keys,
values and whole lines lose the blanks at their two ends before they are read. Text is handled
as a list of characters; a reader of any kind returns what it has not read.
-/

namespace TimeSeries.Text

/-! ## Stripping the ends of a text -/

/-- Drops the longest run of characters in `p` from the end. -/
def stripEnd (p : Char → Bool) (s : List Char) : List Char :=
  (s.reverse.dropWhile p).reverse

/-- Drops the longest runs of characters in `p` from both ends. -/
def strip (p : Char → Bool) (s : List Char) : List Char :=
  stripEnd p (s.dropWhile p)

/-! ## Blanks -/

/-- The property `White_Space`. -/
def isBlank (c : Char) : Bool :=
  ('\t' ≤ c && c ≤ '\r') || c == ' ' || c == '\u0085' || c == '\u00a0' || c == '\u1680'
    || ('\u2000' ≤ c && c ≤ '\u200a') || c == '\u2028' || c == '\u2029' || c == '\u202f'
    || c == '\u205f' || c == '\u3000'

/-- The text without the blanks at its two ends. -/
def trim (s : List Char) : List Char := strip isBlank s

/-- The text without the blanks at its start. -/
def trimStart (s : List Char) : List Char := s.dropWhile isBlank

/-- The first run of characters that are not blank; empty for a blank text. -/
def firstWord (s : List Char) : List Char := (trimStart s).takeWhile (!isBlank ·)

/-! ## The lines of a text -/

/-- The pieces of a text between its line feeds, one more than it has line feeds. A carriage
return at the end of a piece stays there: it is a blank, and lines are trimmed. -/
def lines : List Char → List (List Char)
  | [] => [[]]
  | '\n' :: rest => [] :: lines rest
  | c :: rest =>
    match lines rest with
    | [] => [[c]]
    | first :: more => (c :: first) :: more

end TimeSeries.Text
