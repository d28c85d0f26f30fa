/-
# TimeSeries.Store.Address — how the path of a database is read.

A path names a file, unless it starts with `file:`. Then it is a URI: a name after an authority,
which may only be this machine, with options behind a question mark. Percent signs stand for bytes,
and a number sign ends what is read. Options choose what may be done with the database and where it
lives; one that is not known changes nothing.
-/
import TimeSeries.Files.Path
import TimeSeries.Text.Case
import TimeSeries.Text.Digit
import TimeSeries.Text.Utf8

namespace TimeSeries.Database

/-! ## Modes -/

/-- What may be done with a database. -/
inductive Access
  | read
  /-- Read it and change it. -/
  | write
  /-- Change it, and make it if it is missing. -/
  | create
  /-- Have a new one in the memory of the process. -/
  | memory
deriving Repr, DecidableEq

namespace Access

/-- The name of a mode in an option. -/
def name : Access → String
  | .read => "ro"
  | .write => "rw"
  | .create => "rwc"
  | .memory => "memory"

/-- The mode of a name. -/
def ofName? (name : String) : Option Access :=
  [read, write, create, memory].find? (·.name == name)

/-- The modes in the order of what they allow. -/
def rank : Access → Nat
  | .read => 0
  | .write => 1
  | .create => 2
  | .memory => 3

/-- An option may narrow what is allowed, but not widen it. A database in memory is always
allowed. -/
def allows (current requested : Access) : Bool :=
  requested == .memory || requested.rank ≤ current.rank

end Access

/-- How the bytes of a database are reached. -/
inductive FileSystem
  /-- As files, with a log beside them. -/
  | logging
  /-- As files, with a log beside them, by one process at a time. -/
  | exclusive
  /-- As files, without a log. -/
  | plain
  /-- As files, without a log. A directory beside a file marks it as in use. -/
  | marking
  /-- In the memory of the process. -/
  | memory
deriving Repr, DecidableEq

/-- The file system of a name. -/
def FileSystem.ofName? : String → Option FileSystem
  | "unix" => some .logging
  | "unix-excl" => some .exclusive
  | "unix-none" => some .plain
  | "unix-dotfile" => some .marking
  | "memdb" => some .memory
  | _ => none

/-! ## Addresses -/

/-- What a path says of a database. -/
structure Address where
  /-- The name of the file. -/
  name : Path
  access : Access
  fileSystem : FileSystem
  /-- The file is taken for one that nobody changes. -/
  immutable : Bool
  /-- The file is used without locks. -/
  unlocked : Bool
  /-- The index of the log may be read, but neither made nor changed. -/
  fixedIndex : Bool
  /-- The file whose permissions a new file gets. -/
  permissionsOf : Option Path
deriving Repr, DecidableEq

namespace Address

/-- The address of a file that may be made and changed. -/
def ofName (name : String) : Address where
  name
  access := .create
  fileSystem := .logging
  immutable := false
  unlocked := false
  fixedIndex := false
  permissionsOf := none

/-- The database has no name to be found by, on any file system. -/
def isAnonymous (a : Address) : Bool :=
  a.name.bytes.isEmpty || a.name == ":memory:" || a.access == .memory

/-- The database is kept for one run only: it has no file. -/
def isVolatile (a : Address) : Bool := a.isAnonymous || a.fileSystem == .memory

/-- The database may be changed. -/
def isWritable (a : Address) : Bool := a.access != .read && (a.isAnonymous || !a.immutable)

/-- Changes go through a log beside the file. -/
def isLogged (a : Address) : Bool :=
  (a.fileSystem == .logging || a.fileSystem == .exclusive) && !a.immutable && !a.unlocked

/-! ## Faults -/

/-- Why a path is no address. -/
inductive Error
  /-- The authority is another machine. -/
  | authority (name : String)
  | unknownAccess (name : String)
  | deniedAccess (name : String)
  | unknownCache (name : String)
  | unknownFileSystem (name : String)
deriving Repr, DecidableEq

/-- The fault as it is reported. -/
def Error.message : Error → String
  | .authority name => "invalid uri authority: " ++ name
  | .unknownAccess name => "no such access mode: " ++ name
  | .deniedAccess name => "access mode not allowed: " ++ name
  | .unknownCache name => "no such cache mode: " ++ name
  | .unknownFileSystem name => "no such vfs: " ++ name

/-! ## Parts of a URI -/

/-- The bytes of a part of a URI. Two hexadecimal digits after a percent sign are a byte; the byte
zero ends the part. -/
def partBytes : List Char → List UInt8
  | [] => []
  | '%' :: a :: b :: s =>
    match Text.hexDigit? a, Text.hexDigit? b with
    | some x, some y => if x + y = 0 then [] else UInt8.ofNat (16 * x + y) :: partBytes s
    | _, _ => 0x25 :: partBytes (a :: b :: s)
  | c :: s => c.toString.toUTF8.toList ++ partBytes s

/-- The text of a part of a URI. -/
def partText (s : List Char) : String := Text.ofBytes (partBytes s)

/-- An option of a URI: its name and the bytes of its value. -/
structure UriOption where
  name : String
  value : List UInt8
deriving Repr, DecidableEq

namespace UriOption

/-- The value as a text. -/
def text (o : UriOption) : String := Text.ofBytes o.value

/-- Reads an option, whose value follows the first equals sign. -/
def read (s : List Char) : UriOption where
  name := partText (s.takeWhile (· != '='))
  value := partBytes ((s.dropWhile (· != '=')).drop 1)

/-- Reads the options of a URI. One without a name is passed over. -/
def readAll (s : List Char) : List UriOption :=
  ((s.splitOn '&').map read).filter (!·.name.isEmpty)

/-- The number at the start of a value, hexadecimal after `0x`; zero if it is none of 31 bits. -/
def leadingNumber (s : List Char) : Nat :=
  let (base, digits) :=
    match s with
    | '0' :: x :: d :: rest =>
      if x.toLower = 'x' ∧ Text.isDigitBelow 16 d then (16, d :: rest) else (10, s)
    | _ => (10, s)
  let n := Text.ofDigits base (digits.takeWhile (Text.isDigitBelow base))
  if n ≤ 2147483647 then n else 0

/-- The value switches something on: it is a word for that, or starts with a number whose low eight
bits are not all zero. -/
def isOn (o : UriOption) : Bool :=
  match o.text.toList with
  | [] => false
  | c :: rest =>
    if c.isDigit then leadingNumber (c :: rest) % 256 != 0
    else ["on", "yes", "true"].contains (String.ofList (Text.lower (c :: rest)))

end UriOption

/-! ## Reading -/

/-- What an option changes in the mode of an address. -/
def applyMode (access : Access) (o : UriOption) : Except Error Access :=
  match o.name with
  | "mode" =>
    match Access.ofName? o.text with
    | none => .error (.unknownAccess o.text)
    | some requested =>
      if access.allows requested then .ok requested else .error (.deniedAccess o.text)
  | "cache" =>
    if o.text = "shared" ∨ o.text = "private" then .ok access else .error (.unknownCache o.text)
  | _ => .ok access

/-- Drops the authority of a URI, after its scheme: none, or this machine. -/
def dropAuthority : List Char → Except Error (List Char)
  | '/' :: '/' :: s =>
    let name := String.ofList (s.takeWhile (· != '/'))
    if name = "" ∨ name = "localhost" then .ok (s.dropWhile (· != '/'))
    else .error (.authority name)
  | s => .ok s

/-- Reads a URI after its scheme. Of options with one name the first counts, but the last one that
names a file system. -/
def readUri (s : List Char) : Except Error Address := do
  let uri := (← dropAuthority s).takeWhile (· != '#')
  let options := UriOption.readAll ((uri.dropWhile (· != '?')).drop 1)
  let access ← options.foldlM applyMode .create
  let system := ((options.reverse.find? (·.name == "vfs")).map UriOption.text).getD "unix"
  let some fileSystem := FileSystem.ofName? system | .error (.unknownFileSystem system)
  let option? (name : String) : Option UriOption := options.find? (·.name == name)
  .ok {
    name := ⟨partBytes (uri.takeWhile (· != '?'))⟩
    access
    fileSystem
    immutable := (option? "immutable").any UriOption.isOn
    unlocked := (option? "nolock").any UriOption.isOn
    fixedIndex := (option? "readonly_shm").any UriOption.isOn
    permissionsOf := (option? "modeof").map fun o => ⟨o.value⟩ }

/-- Reads the path of a database. -/
def read (path : String) : Except Error Address :=
  match path.toList with
  | 'f' :: 'i' :: 'l' :: 'e' :: ':' :: s => readUri s
  | _ => .ok (ofName path)

end Address
end TimeSeries.Database
