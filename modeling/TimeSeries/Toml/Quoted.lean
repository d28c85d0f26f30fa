/-
# TimeSeries.Toml.Quoted — the four kinds of strings of TOML.

Double quotes allow escapes, single quotes do not; three quotes of a kind allow line breaks. No kind
allows control characters other than the tab.
-/
import TimeSeries.Text.Reader
import TimeSeries.Toml.Scalar

namespace TimeSeries.Toml

open Text (Reader isDigitBelow ofDigits)

/-! ## Characters -/

/-- A character that comments and strings may hold as it is. -/
def isPlain (c : Char) : Bool := c == '\t' || (' ' ≤ c && c != '\x7f')

/-- A blank within a line. -/
def isInlineBlank (c : Char) : Bool := c == ' ' || c == '\t'

/-- A line break, which stands for a line feed. -/
def newline : Reader Char :=
  (do Reader.skip '\n'; pure '\n').or (do Reader.skip '\r'; Reader.skip '\n'; pure '\n')

/-! ## Escapes -/

/-- The character with a code point given by `n` hexadecimal digits. -/
def codePoint (n : Nat) : Reader Char := do
  let digits ← (List.range n).mapM fun _ => Reader.oneOf (isDigitBelow 16)
  let code := ofDigits 16 digits
  if code.isValidChar then pure (Char.ofNat code) else Reader.refuse

/-- The character that an escape stands for, after its backslash. -/
def escaped : Reader Char := do
  match ← Reader.oneOf fun _ => true with
  | 'b' => pure '\x08'
  | 't' => pure '\t'
  | 'n' => pure '\n'
  | 'f' => pure '\x0c'
  | 'r' => pure '\r'
  | '"' => pure '"'
  | '\\' => pure '\\'
  | 'u' => codePoint 4
  | 'U' => codePoint 8
  | _ => Reader.refuse

/-! ## Strings in one line -/

/-- A string in double quotes. -/
def basicString : Reader (List Char) := do
  Reader.skip '"'
  let chars ← Reader.many <|
    (Reader.oneOf fun c => isPlain c && c != '"' && c != '\\').or
      (do Reader.skip '\\'; escaped)
  Reader.skip '"'
  pure chars

/-- A string in single quotes. -/
def literalString : Reader (List Char) := do
  Reader.skip '\x27'
  let chars ← Reader.run fun c => isPlain c && c != '\x27'
  Reader.skip '\x27'
  pure chars

/-! ## Strings over several lines -/

/-- One or two quotes that do not close the string. -/
def innerQuotes (quote : Char) : Reader (List Char) := do
  let quotes ← Reader.run (· == quote)
  if quotes.length = 1 ∨ quotes.length = 2 then pure quotes else Reader.refuse

/-- The three quotes that close a string, and the at most two before them that belong to it. -/
def closingQuotes (quote : Char) : Reader (List Char) := do
  let quotes ← Reader.run (· == quote)
  if 3 ≤ quotes.length ∧ quotes.length ≤ 5 then pure (quotes.drop 3) else Reader.refuse

/-- A backslash at the end of a line, with all blanks and line breaks behind it. -/
def lineContinuation : Reader (List Char) := do
  Reader.skip '\\'
  let _ ← Reader.run isInlineBlank
  let _ ← newline
  let _ ← Reader.many ((Reader.oneOf isInlineBlank).or newline)
  pure []

/-- A string between triples of a quote; a line break right behind the first triple is dropped. -/
def longString (quote : Char) (piece : Reader (List Char)) : Reader (List Char) := do
  Reader.skipAll [quote, quote, quote]
  let _ ← Reader.optional newline
  let pieces ← Reader.many <|
    piece.or ((innerQuotes quote).or (do let c ← newline; pure [c]))
  let quotes ← closingQuotes quote
  pure (pieces.flatten ++ quotes)

/-- A string between triples of double quotes. -/
def longBasicString : Reader (List Char) :=
  longString '"' <|
    (do let c ← Reader.oneOf fun c => isPlain c && c != '"' && c != '\\'; pure [c]).or
      (lineContinuation.or (do Reader.skip '\\'; let c ← escaped; pure [c]))

/-- A string between triples of single quotes. -/
def longLiteralString : Reader (List Char) :=
  longString '\x27' (do let c ← Reader.oneOf fun c => isPlain c && c != '\x27'; pure [c])

/-- A string of any kind. -/
def anyString : Reader (List Char) :=
  longBasicString.or (longLiteralString.or (basicString.or literalString))

end TimeSeries.Toml
