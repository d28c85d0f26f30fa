/-
# TimeSeries.Text.Case — comparison and search that ignore the case of ASCII letters.

Only the 26 letters of ASCII have two cases here: `K` (the Kelvin sign) or `İ` is never taken for
an ASCII letter. Lowering is done character by character, so a place found in the lowered text is
the same place in the text itself.
-/

namespace TimeSeries.Text

/-- Lowers the ASCII letters and keeps every other character. -/
def lower (s : List Char) : List Char := s.map Char.toLower

/-- Equality up to the case of ASCII letters. -/
def sameLetters (a b : List Char) : Bool := lower a == lower b

/-- What follows `word` at the start of a text, whatever the case of its letters; `word` itself
is given in lower case. -/
def dropWord? : List Char → List Char → Option (List Char)
  | [], s => some s
  | _ :: _, [] => none
  | w :: word, c :: s => if c.toLower = w then dropWord? word s else none

/-- Cuts a text around the first occurrence of `word`, whatever the case of its letters: what
stands before and what stands after it. -/
def cut? (word : List Char) : List Char → Option (List Char × List Char)
  | [] => (dropWord? word []).map fun rest => ([], rest)
  | c :: s =>
    match dropWord? word (c :: s) with
    | some rest => some ([], rest)
    | none => (cut? word s).map fun (before, after) => (c :: before, after)

end TimeSeries.Text
