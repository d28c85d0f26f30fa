/-
# TimeSeries.Files.Path — paths with slashes between their steps.

A path is what a file system takes for one: bytes, which stay as they were written. A text is the
path of its UTF-8 bytes, but there are paths that no text has. The steps of a path leave out what
changes nothing.
-/

namespace TimeSeries

/-- A path. -/
structure Path where
  bytes : List UInt8
deriving Repr, DecidableEq

namespace Path

/-- The name of a file in its directory: a step of a path. -/
abbrev Name := List UInt8

/-! ## Texts -/

/-- The path that a text is. -/
def ofText (s : String) : Path := ⟨s.toUTF8.toList⟩

instance : Coe String Path := ⟨ofText⟩

/-- A byte as it stands in a path that is no text: two hexadecimal digits after a percent sign,
unless it is ASCII. -/
def byteText (b : UInt8) : List Char :=
  if b < 0x80 then [Char.ofUInt8 b]
  else '%' :: Nat.toDigits 16 b.toNat

/-- The text of a path. -/
def text (p : Path) : String :=
  match String.fromUTF8? p.bytes.toByteArray with
  | some s => s
  | none => String.ofList (p.bytes.flatMap byteText)

/-! ## Steps -/

/-- The byte between two steps. -/
def slash : UInt8 := '/'.toUInt8

/-- The step to the same directory. -/
def here : Name := ['.'.toUInt8]

/-- The step to the directory that a directory lies in. -/
def up : Name := ['.'.toUInt8, '.'.toUInt8]

/-- The path starts at the root. -/
def isAbsolute (p : Path) : Bool := p.bytes.head? = some slash

/-- What stands between the slashes of a path. -/
def names (p : Path) : List Name := p.bytes.splitOn slash

/-- The steps of a path: the names between its slashes. A step to the same directory is left out
unless a relative path starts with it. -/
def steps (p : Path) : List Name :=
  let names := p.names.filter (!·.isEmpty)
  match p.isAbsolute, names with
  | false, name :: rest => name :: rest.filter (· != here)
  | _, _ => names.filter (· != here)

/-- The path of steps from the root, or from the directory that relative paths start in. -/
def ofSteps (absolute : Bool) (steps : List Name) : Path :=
  ⟨(if absolute then [slash] else []) ++ [slash].intercalate steps⟩

/-- The directories that a path lies in, from the inside out. The root is none of them, nor is the
directory that relative paths start in. -/
def parents (p : Path) : List Path :=
  (List.range (p.steps.length - 1)).reverse.map fun n =>
    ofSteps p.isAbsolute (p.steps.take (n + 1))

end Path
end TimeSeries
