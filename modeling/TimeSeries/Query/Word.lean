/-
# TimeSeries.Query.Word — the words of a query, and where they stand.

Words are separated by ASCII whitespace outside double quotes. A quote may open anywhere in a
word, and every word starts outside quotes; a quote that never closes runs to the end. A word
carries the place of its first character, so that a clause can be cut out of the query as it was
written.
-/
import TimeSeries.Text.Case

namespace TimeSeries.Query

/-- The five whitespace characters of ASCII that separate words. -/
def isBreak (c : Char) : Bool :=
  c == ' ' || c == '\t' || c == '\n' || c == '\x0c' || c == '\r'

/-- A word and the place of its first character. -/
structure Word where
  text : List Char
  start : Nat
deriving Repr, DecidableEq

namespace Word

/-- The place after the word's last character. -/
def stop (w : Word) : Nat := w.start + w.text.length

/-- The word is this keyword, whatever the case of its letters. -/
def is (w : Word) (keyword : String) : Bool := Text.sameLetters w.text keyword.toList

end Word

/-- The rest of a word, read inside or outside quotes, and what follows the word. -/
def readWord : Bool → List Char → List Char × List Char
  | _, [] => ([], [])
  | quoted, c :: s =>
    if isBreak c && !quoted then ([], c :: s)
    else
      let (word, rest) := readWord (if c = '"' then !quoted else quoted) s
      (c :: word, rest)

theorem length_readWord (quoted : Bool) (s : List Char) :
    (readWord quoted s).2.length ≤ s.length := by
  fun_induction readWord quoted s with
  | case1 => simp
  | case2 => simp
  | case3 quoted c s h word rest hw ih =>
    rw [hw] at ih
    simp only [List.length_cons]
    exact Nat.le_succ_of_le ih

/-- The words of a text whose first character stands at `place`. -/
def wordsFrom (place : Nat) : List Char → List Word
  | [] => []
  | c :: s =>
    if isBreak c then wordsFrom (place + 1) s
    else
      let tail := readWord (c == '"') s
      let word : Word := ⟨c :: tail.1, place⟩
      word :: wordsFrom word.stop tail.2
termination_by s => s.length
decreasing_by
  · simp
  · have := length_readWord (c == '"') s
    simp only [List.length_cons]; omega

/-- The words of a text. -/
def words (s : List Char) : List Word := wordsFrom 0 s

/-- The characters of a text from one place up to another. -/
def slice (s : List Char) (start stop : Nat) : List Char := (s.drop start).take (stop - start)

end TimeSeries.Query
