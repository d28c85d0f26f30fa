/-
# TimeSeries.Text.Reader — readers that are put together from smaller ones.

A reader refuses a text, or takes something from its start and gives back the rest with a proof
that the rest is no longer. That proof is what lets `many` repeat a reader without any other bound:
a round that takes nothing is its last.
-/

namespace TimeSeries.Text

/-- Takes a value from the start of a text, or refuses the text. -/
def Reader (α : Type) : Type :=
  (s : List Char) → Option (α × { rest : List Char // rest.length ≤ s.length })

namespace Reader

variable {α β : Type}

instance : Monad Reader where
  pure a := fun s => some (a, ⟨s, Nat.le_refl _⟩)
  bind p f := fun s =>
    match p s with
    | none => none
    | some (a, ⟨r, h⟩) =>
      match f a r with
      | none => none
      | some (b, ⟨r', h'⟩) => some (b, ⟨r', Nat.le_trans h' h⟩)

/-- Refuses every text. -/
def refuse : Reader α := fun _ => none

/-- The first reader, or the second where the first refuses. -/
def or (p q : Reader α) : Reader α := fun s => (p s).or (q s)

/-- Takes nothing and gives the value, or refuses if there is none. -/
def ofOption : Option α → Reader α
  | none => refuse
  | some a => pure a

/-- Takes one character of a class. -/
def oneOf (p : Char → Bool) : Reader Char
  | [] => none
  | c :: s => if p c then some (c, ⟨s, by simp⟩) else none

/-- Takes one given character. -/
def skip (c : Char) : Reader Unit := do let _ ← oneOf (· == c)

/-- Takes the given characters one after the other. -/
def skipAll : List Char → Reader Unit
  | [] => pure ()
  | c :: cs => do skip c; skipAll cs

/-- Takes what the reader takes, or nothing. -/
def optional (p : Reader α) : Reader (Option α) :=
  (do let a ← p; pure (some a)).or (pure none)

/-- Repeats a reader on a text until it refuses, or takes nothing. -/
def manyFrom (p : Reader α) (s : List Char) :
    List α × { rest : List Char // rest.length ≤ s.length } :=
  match p s with
  | none => ([], ⟨s, Nat.le_refl _⟩)
  | some (a, ⟨r, h⟩) =>
    if _hlt : r.length < s.length then
      let (as, ⟨r', h'⟩) := manyFrom p r
      (a :: as, ⟨r', Nat.le_trans h' h⟩)
    else ([a], ⟨r, h⟩)
termination_by s.length

/-- Repeats a reader until it refuses, or takes nothing. -/
def many (p : Reader α) : Reader (List α) := fun s => some (manyFrom p s)

/-- Repeats a reader at least once. -/
def many1 (p : Reader α) : Reader (List α) := do
  let a ← p
  let as ← many p
  pure (a :: as)

/-- Takes the longest run of characters of a class. -/
def run (p : Char → Bool) : Reader (List Char) := many (oneOf p)

/-- Repeats a reader with a separator between the rounds. -/
def separated (p : Reader α) (separator : Reader Unit) : Reader (List α) := do
  let a ← p
  let as ← many (do separator; p)
  pure (a :: as)

/-- The value that a reader takes from a whole text. -/
def read? (p : Reader α) (s : List Char) : Option α :=
  match p s with
  | some (a, ⟨[], _⟩) => some a
  | _ => none

end Reader
end TimeSeries.Text
