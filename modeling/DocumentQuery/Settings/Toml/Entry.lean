import DocumentQuery.Json.Raw

/-!
# Tables of the settings file

The lines of the settings file build a tree of tables. Nothing is defined twice: a key is set once, and a
header opens a table that no other line has opened. What is allowed besides depends on how a table came
to be, its `Origin`. A table that was only passed on the way of a longer header may still get its own
header. Keys joined by points make tables of their own, which get no header, and they neither enter a
table that has a header nor end in one that a header passed.

No setting is a series of tables, so only the last table of a series is kept, the one that can change.

## Main definitions

* `Entry` — what a name stands for
* `changeAt` — a change of the table that a header names
* `openTable`, `openNext`, `setKey` — what the lines do to a table
-/

namespace DocumentQuery.Toml

/-- How a table came to be. -/
inductive Origin where
  /-- By a header of its own. -/
  | header
  /-- On the way of a longer header. -/
  | passed
  /-- By keys joined by points. -/
  | dotted
deriving DecidableEq

/-- What a name stands for. -/
inductive Entry where
  | value (value : RawJson)
  | table (origin : Origin) (entries : List (String × Entry))
  /-- Several tables of one name; only the last of them can still change. -/
  | series (last : List (String × Entry))

/-- What the names of a table stand for. -/
abbrev Entries := Table Entry

mutual

/-- The value an entry stands for. -/
def Entry.raw : Entry → RawJson
  | .value v => v
  | .table _ entries => .obj (Entry.rawAll entries)
  | .series _ => .unusable

/-- The values the names of a table stand for. -/
def Entry.rawAll : List (String × Entry) → List (String × RawJson)
  | [] => []
  | (name, e) :: es => (name, e.raw) :: rawAll es

end

/-- Changes the table that the names of a header lead to. -/
def changeAt (change : Entries → Option Entries) : List String → Entries → Option Entries
  | [], entries => change entries
  | name :: path, entries =>
    match entries.lookup name with
    | none => (changeAt change path []).map fun inner => entries.insert name (.table .passed inner)
    | some (.table origin inner) =>
      (changeAt change path inner).map fun inner => entries.insert name (.table origin inner)
    | some (.series last) =>
      (changeAt change path last).map fun last => entries.insert name (.series last)
    | some (.value _) => none

/-- Opens a table by its name. -/
def openTable (name : String) (entries : Entries) : Option Entries :=
  match entries.lookup name with
  | none => some (entries.insert name (.table .header []))
  | some (.table .passed inner) => some (entries.insert name (.table .header inner))
  | some _ => none

/-- Opens the next table of a series. -/
def openNext (name : String) (entries : Entries) : Option Entries :=
  match entries.lookup name with
  | none | some (.series _) => some (entries.insert name (.series []))
  | some _ => none

/-- Sets a key below a table, in the table that joined keys lead to. -/
def setKey (key : String) (value : RawJson) : List String → Entries → Option Entries
  | [], entries => if entries.contains key then none else some (entries.insert key (.value value))
  | name :: path, entries =>
    match entries.lookup name with
    | none => (setKey key value path []).map fun inner => entries.insert name (.table .dotted inner)
    | some (.table .dotted inner) =>
      (setKey key value path inner).map fun inner => entries.insert name (.table .dotted inner)
    | some (.table .passed inner) =>
      if path.isEmpty then none
      else (setKey key value path inner).map fun inner => entries.insert name (.table .passed inner)
    | some (.series last) =>
      if path.isEmpty then none
      else (setKey key value path last).map fun last => entries.insert name (.series last)
    | some (.table .header _) | some (.value _) => none

end DocumentQuery.Toml
