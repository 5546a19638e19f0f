import DocumentQuery.Json.Raw

/-!
# Reading domain values from documents

Models, queries, plans and settings are exchanged as documents. A decoder reads one kind of value and
gives `none` for a document of another form; why a document does not fit is never reported.

A decoder looks at the value as it is written. An object may have more members than a decoder asks for,
and those may be anything. A member that is asked for may be required (`field`), have a default when it
is missing (`fieldOr`), or be optional, when null counts as missing (`optional`); in each case it must
not be named twice.

An alternative is written as its bare name when it carries nothing, and as an object with the name as
its only member when it carries a value (`choice`). In a table, on the other hand, a name may be
repeated: every value must fit, and the last one counts.
-/

namespace DocumentQuery

/-- Reads one kind of value; `none` when the document has another form. -/
abbrev Decoder (α : Type) := RawJson → Option α

namespace Decoder

variable {α : Type}

/-- A string. -/
def string : Decoder String
  | .str s => some s
  | _ => none

/-- A truth value. -/
def bool : Decoder Bool
  | .bool b => some b
  | _ => none

/-- A count of 64 bits. -/
def count : Decoder Nat
  | .num n => n.toCount?
  | _ => none

/-- A signed integer of 64 bits. -/
def signed : Decoder Int
  | .num n => n.toSigned?
  | _ => none

/-- Any document. -/
def any : Decoder Json := RawJson.value?

/-- An array whose items all fit. -/
def list (item : Decoder α) : Decoder (List α)
  | .arr items => items.mapM item
  | _ => none

/-- An object whose members all fit. -/
def table (member : Decoder α) : Decoder (Table α)
  | .obj members =>
    (members.mapM fun (m : String × RawJson) => (member m.2).map (m.1, ·)).map Table.ofList
  | _ => none

/-- Null, or a value that fits. -/
def nullable (value : Decoder α) : Decoder (Option α) := fun j =>
  if j.isNull then some none else (value j).map some

/-- A required member of an object. -/
def field (name : String) (value : Decoder α) : Decoder α := fun j => do
  value (← (← RawJson.lone? (← j.members?) name))

/-- A member of an object with a default for a missing one. -/
def fieldOr (name : String) (default : α) (value : Decoder α) : Decoder α := fun j => do
  match ← RawJson.lone? (← j.members?) name with
  | some v => value v
  | none => some default

/-- A member of an object that may be missing or null. -/
def optional (name : String) (value : Decoder α) : Decoder (Option α) :=
  fieldOr name none (nullable value)

/-- The name of an alternative and what it carries, if anything. -/
def choice : Decoder (String × Option RawJson)
  | .str name => some (name, none)
  | .obj [(name, value)] => some (name, some value)
  | _ => none

/-- The content of an alternative that must carry one. -/
def content (value : Decoder α) (carried : Option RawJson) : Option α :=
  carried.bind value

/-- The content of an alternative that carries nothing. -/
def nothing (carried : Option RawJson) : Option Unit :=
  match carried with
  | none => some ()
  | some j => if j.isNull then some () else none

/-- One of several alternatives that carry nothing. -/
def tag (alternatives : List (String × α)) : Decoder α := fun j => do
  let (name, carried) ← choice j
  nothing carried
  alternatives.lookup name

end Decoder

end DocumentQuery
