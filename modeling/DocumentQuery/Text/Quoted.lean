import DocumentQuery.Text.Hidden

/-!
# Quoted text in messages

Messages show names and string constants between double quotes. A quote, a backslash and the usual
control characters are written with a backslash, characters that are not visible on their own are
written as `\u{…}` with their number, and every other character stands for itself.
-/

namespace DocumentQuery.Text

/-- The digits of a number in base sixteen, in lower case. -/
def lowerHex (n : Nat) : List Char :=
  Nat.toDigits 16 n

/-- One character of quoted text. -/
def quoteChar (c : Char) : List Char :=
  match c with
  | '"' => ['\\', '"']
  | '\\' => ['\\', '\\']
  | '\n' => ['\\', 'n']
  | '\r' => ['\\', 'r']
  | '\t' => ['\\', 't']
  | '\x00' => ['\\', '0']
  | c =>
    if ' ' ≤ c && c ≤ '~' then [c]
    else if isHidden c then ['\\', 'u', '\x7b'] ++ lowerHex c.toNat ++ ['\x7d']
    else [c]

/-- A text between double quotes. -/
def quoted (s : String) : String :=
  String.ofList ('"' :: s.toList.flatMap quoteChar ++ ['"'])

end DocumentQuery.Text
