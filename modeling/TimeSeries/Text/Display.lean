/-
# TimeSeries.Text.Display — texts shown between quotes in messages.

A message shows a path between double quotes. Double quotes, backslashes and all characters that do
not show by themselves are escaped, so the message stays one line and shows what the path is.
-/
import TimeSeries.Text.Hidden

namespace TimeSeries.Text

/-- A character as it is shown between quotes. -/
def displayChar (c : Char) : List Char :=
  match c with
  | '"' => ['\\', '"']
  | '\\' => ['\\', '\\']
  | '\n' => ['\\', 'n']
  | '\r' => ['\\', 'r']
  | '\t' => ['\\', 't']
  | '\x00' => ['\\', '0']
  | c =>
    if isHidden c then ['\\', 'u', '\x7b'] ++ Nat.toDigits 16 c.toNat ++ ['\x7d']
    else [c]

/-- A text between quotes. -/
def display (s : String) : String :=
  String.ofList ('"' :: s.toList.flatMap displayChar ++ ['"'])

end TimeSeries.Text
