/-
# TimeSeries.Text.Utf8 — the text of any bytes.

Bytes from outside need not be a text. Where they are read as one all the same, a run of bytes that
begins a character and is cut off shows as one replacement character, and so does every byte that
begins none.
-/

namespace TimeSeries.Text

/-- A character of which the first bytes have been read: its bits so far, how many bytes are still
missing, and the bounds of the next one. -/
structure CutChar where
  bits : Nat
  missing : Nat
  least : UInt8
  greatest : UInt8
deriving Repr, DecidableEq

/-- The replacement character. -/
def replacement : Char := '\ufffd'

/-- A byte between characters: the character that it is or the one that it begins. The bounds of
the second byte leave out overlong forms, surrogates and what lies beyond the last character. -/
def readLead (b : UInt8) : List Char × Option CutChar :=
  if b < 0x80 then ([Char.ofUInt8 b], none)
  else if b < 0xc2 then ([replacement], none)
  else if b < 0xe0 then ([], some ⟨b.toNat - 0xc0, 1, 0x80, 0xbf⟩)
  else if b < 0xf0 then
    let least := if b = 0xe0 then 0xa0 else 0x80
    let greatest := if b = 0xed then 0x9f else 0xbf
    ([], some ⟨b.toNat - 0xe0, 2, least, greatest⟩)
  else if b < 0xf5 then
    let least := if b = 0xf0 then 0x90 else 0x80
    let greatest := if b = 0xf4 then 0x8f else 0xbf
    ([], some ⟨b.toNat - 0xf0, 3, least, greatest⟩)
  else ([replacement], none)

/-- A byte after those of a character that is not complete, if there is one: the characters that it
completes or cuts off, and the one that it leaves open. -/
def readByte (cut : Option CutChar) (b : UInt8) : List Char × Option CutChar :=
  match cut with
  | none => readLead b
  | some c =>
    if c.least ≤ b ∧ b ≤ c.greatest then
      let bits := 64 * c.bits + (b.toNat - 0x80)
      if c.missing = 1 then ([Char.ofNat bits], none)
      else ([], some ⟨bits, c.missing - 1, 0x80, 0xbf⟩)
    else
      let (chars, next) := readLead b
      (replacement :: chars, next)

/-- The characters of bytes that follow those of a character that is not complete, if there is
one. -/
def charsAfter : Option CutChar → List UInt8 → List Char
  | none, [] => []
  | some _, [] => [replacement]
  | cut, b :: s => (readByte cut b).1 ++ charsAfter (readByte cut b).2 s

/-- Bytes as a text. -/
def ofBytes (bytes : List UInt8) : String := String.ofList (charsAfter none bytes)

end TimeSeries.Text
