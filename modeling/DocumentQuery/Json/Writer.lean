import DocumentQuery.Json.Decimal
import DocumentQuery.Json.Value
import DocumentQuery.Text.Quoted

/-!
# Writing document values

A value has three written forms: `text` without blanks, used in messages and as a key; `pretty` with
one member or item a line, used for results; and `inspect`, which names the kind of every value and
is used where a message shows a constant of a query.
-/

namespace DocumentQuery.Json

/-- One character of a string in document text. -/
def escapeChar (c : Char) : List Char :=
  match c with
  | '"' => ['\\', '"']
  | '\\' => ['\\', '\\']
  | '\n' => ['\\', 'n']
  | '\r' => ['\\', 'r']
  | '\t' => ['\\', 't']
  | '\x08' => ['\\', 'b']
  | '\x0c' => ['\\', 'f']
  | c =>
    if c < ' ' then
      ['\\', 'u', '0', '0', (if c.toNat < 16 then '0' else '1'), Nat.digitChar (c.toNat % 16)]
    else [c]

/-- A string between quotes. -/
def quote (s : String) : String :=
  String.ofList ('"' :: s.toList.flatMap escapeChar ++ ['"'])

/-- Joins the parts of a container. -/
def join (parts : List String) : String :=
  String.intercalate "," parts

mutual

/-- The text of a value, without blanks. -/
def text : Json → String
  | .null => "null"
  | .bool b => if b then "true" else "false"
  | .num n => n.text
  | .str s => quote s
  | .arr items => "[" ++ join (textItems items) ++ "]"
  | .obj members => "\x7b" ++ join (textMembers members) ++ "\x7d"

/-- The texts of items. -/
def textItems : List Json → List String
  | [] => []
  | a :: as => text a :: textItems as

/-- The texts of members. -/
def textMembers : List (String × Json) → List String
  | [] => []
  | (k, a) :: as => (quote k ++ ":" ++ text a) :: textMembers as

end

/-- A line break and the blanks that indent the next line. -/
def breakLine (level : Nat) : String :=
  String.ofList ('\n' :: List.replicate (2 * level) ' ')

/-- A container with one part a line. -/
def block (level : Nat) (opening closing : String) (parts : List String) : String :=
  if parts.isEmpty then opening ++ closing
  else
    opening ++ breakLine (level + 1)
      ++ String.intercalate ("," ++ breakLine (level + 1)) parts
      ++ breakLine level ++ closing

mutual

/-- The text of a value with one part a line, inside `level` containers. -/
def prettyAt (level : Nat) : Json → String
  | .arr items => block level "[" "]" (prettyItems (level + 1) items)
  | .obj members => block level "\x7b" "\x7d" (prettyMembers (level + 1) members)
  | .null => "null"
  | .bool b => if b then "true" else "false"
  | .num n => n.text
  | .str s => quote s

/-- The texts of items inside `level` containers. -/
def prettyItems (level : Nat) : List Json → List String
  | [] => []
  | a :: as => prettyAt level a :: prettyItems level as

/-- The texts of members inside `level` containers. -/
def prettyMembers (level : Nat) : List (String × Json) → List String
  | [] => []
  | (k, a) :: as => (quote k ++ ": " ++ prettyAt level a) :: prettyMembers level as

end

/-- The text of a value with one part a line. -/
def pretty (j : Json) : String :=
  j.prettyAt 0

mutual

/-- The text of a value that names the kind of every part. -/
def inspect : Json → String
  | .null => "Null"
  | .bool b => if b then "Bool(true)" else "Bool(false)"
  | .num n => "Number(" ++ n.text ++ ")"
  | .str s => "String(" ++ Text.quoted s ++ ")"
  | .arr items => "Array [" ++ String.intercalate ", " (inspectItems items) ++ "]"
  | .obj members => "Object \x7b" ++ String.intercalate ", " (inspectMembers members) ++ "\x7d"

/-- The texts of items that name the kind of every part. -/
def inspectItems : List Json → List String
  | [] => []
  | a :: as => inspect a :: inspectItems as

/-- The texts of members that name the kind of every part. -/
def inspectMembers : List (String × Json) → List String
  | [] => []
  | (k, a) :: as => (Text.quoted k ++ ": " ++ inspect a) :: inspectMembers as

end

end DocumentQuery.Json
