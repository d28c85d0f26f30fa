/-
# TimeSeries.Toml.Value — the values of a TOML document, and how its tables grow.

A document is one table that grows line by line. Who may add to a table depends on how it came
about, so every table remembers that: a table that a header has opened cannot be opened again, one
that only dotted keys have made cannot be opened at all, and one written in braces never grows.
-/

namespace TimeSeries.Toml

/-- How a table came about. -/
inductive Origin
  /-- It is a value in braces. -/
  | braces
  /-- A header names it. -/
  | header
  /-- A header names a table inside it. -/
  | implied
  /-- A dotted key goes through it. -/
  | dotted
deriving Repr, DecidableEq

/-- A value. The tables of `tables` come from double-bracketed headers, the newest first. -/
inductive Value
  | string (text : String)
  | integer (n : Int)
  | float (x : Float)
  | boolean (b : Bool)
  | dateTime (text : String)
  | array (elements : List Value)
  | table (origin : Origin) (entries : List (String × Value))
  | tables (newestFirst : List (List (String × Value)))

/-- The keys and values of a table in the order in which they were written. -/
abbrev Entries := List (String × Value)

namespace Entries

/-- The value under a key. -/
def get? (es : Entries) (key : String) : Option Value := (es.find? (·.1 == key)).map Prod.snd

/-- Replaces what is under a key, or adds it at the end; `f` gets what is there and may refuse. -/
def update (key : String) (f : Option Value → Option Value) : Entries → Option Entries
  | [] => (f none).map fun v => [(key, v)]
  | (k, v) :: es =>
    if k = key then (f (some v)).map fun v => (k, v) :: es
    else (update key f es).map fun es => (k, v) :: es

/-! ## Headers -/

/-- Changes the entries of the table at a path of header keys. Tables on the way are made where
they are missing; a path goes on in the newest of several tables. -/
def below (path : List String) (f : Entries → Option Entries) (es : Entries) : Option Entries :=
  match path with
  | [] => f es
  | key :: path =>
    update key (fun
      | none => (below path f []).map (.table .implied)
      | some (.table .braces _) => none
      | some (.table origin es) => (below path f es).map (.table origin)
      | some (.tables (newest :: older)) =>
        (below path f newest).map fun newest => .tables (newest :: older)
      | some _ => none) es

/-- Opens the table of a header in single brackets. Only a table that is missing, or that headers
have only implied so far, can be opened. -/
def openTable (path : List String) (key : String) (es : Entries) : Option Entries :=
  below path (update key fun
    | none => some (.table .header [])
    | some (.table .implied es) => some (.table .header es)
    | some _ => none) es

/-- Opens one more table for a header in double brackets. -/
def openNextTable (path : List String) (key : String) (es : Entries) : Option Entries :=
  below path (update key fun
    | none => some (.tables [[]])
    | some (.tables ts) => some (.tables ([] :: ts))
    | some _ => none) es

/-! ## Keys and values -/

/-- Sets a new key of a table, reached by the keys before its dots. The last table on the way must
be one that dotted keys have made; those before it must not be opened by a header of their own. -/
def assign (path : List String) (key : String) (value : Value) (es : Entries) : Option Entries :=
  match path with
  | [] => update key (fun | none => some value | some _ => none) es
  | step :: path =>
    update step (fun
      | none => (assign path key value []).map (.table .dotted)
      | some (.table .dotted es) => (assign path key value es).map (.table .dotted)
      | some (.table .implied es) =>
        if path.isEmpty then none else (assign path key value es).map (.table .implied)
      | some (.tables (newest :: older)) =>
        if path.isEmpty then none
        else (assign path key value newest).map fun newest => .tables (newest :: older)
      | some _ => none) es

end Entries
end TimeSeries.Toml
