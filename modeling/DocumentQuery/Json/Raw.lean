import DocumentQuery.Json.Value

/-!
# Values as they are written

A text can say more than a document holds: an object may name a member twice, and some parts are well
formed but stand for nothing that a document can hold. `RawJson` keeps what the text says, and
`RawJson.value?` is the document it stands for. Typed data is read from the raw form, because a member
that is asked for must not be named twice, while parts that nobody asks for may be anything.

## Main definitions

* `RawJson` — a value as it is written
* `RawJson.value?` — the document a value stands for
* `Json.raw` — a document as it is written
* `RawJson.lone?` — a member that is named at most once
-/

namespace DocumentQuery

/-- A value as it is written; the members of an object stand in the order of the text. -/
inductive RawJson where
  | null
  | bool (value : Bool)
  | num (value : Number)
  | str (value : String)
  | arr (items : List RawJson)
  | obj (members : List (String × RawJson))
  /-- A well-formed part that no document holds: a number beyond the doubles, half of a character, or
  containers nested too deep. -/
  | unusable
deriving Inhabited

mutual

/-- A document as it is written. -/
def Json.raw : Json → RawJson
  | .null => .null
  | .bool b => .bool b
  | .num n => .num n
  | .str s => .str s
  | .arr items => .arr (Json.rawItems items)
  | .obj members => .obj (Json.rawMembers members)

/-- Documents as they are written. -/
def Json.rawItems : List Json → List RawJson
  | [] => []
  | j :: js => j.raw :: rawItems js

/-- Members as they are written. -/
def Json.rawMembers : List (String × Json) → List (String × RawJson)
  | [] => []
  | (name, j) :: js => (name, j.raw) :: rawMembers js

end

namespace RawJson

/-- Whether a value is null. -/
def isNull : RawJson → Bool
  | .null => true
  | _ => false

/-- The members, if it is an object. -/
def members? : RawJson → Option (List (String × RawJson))
  | .obj members => some members
  | _ => none

/-- The member of a name, if there is one; refused when several members have the name. -/
def lone? (members : List (String × RawJson)) (name : String) : Option (Option RawJson) :=
  match members.filter fun member => member.1 == name with
  | [] => some none
  | [(_, j)] => some (some j)
  | _ => none

mutual

/-- How many containers a value nests, counting itself. -/
def depth : RawJson → Nat
  | .arr items => depthItems items + 1
  | .obj members => depthMembers members + 1
  | _ => 1

/-- The largest depth among the items. -/
def depthItems : List RawJson → Nat
  | [] => 0
  | j :: js => max (depth j) (depthItems js)

/-- The largest depth among the members. -/
def depthMembers : List (String × RawJson) → Nat
  | [] => 0
  | (_, j) :: js => max (depth j) (depthMembers js)

end

mutual

/-- The document a value stands for; a name that occurs twice in an object keeps its last value. -/
def value? : RawJson → Option Json
  | .null => some .null
  | .bool b => some (.bool b)
  | .num n => some (.num n)
  | .str s => some (.str s)
  | .arr items => (valueItems? items).map Json.arr
  | .obj members => (valueMembers? members).map Json.mkObj
  | .unusable => none

/-- The documents of items. -/
def valueItems? : List RawJson → Option (List Json)
  | [] => some []
  | j :: js => do return (← value? j) :: (← valueItems? js)

/-- The documents of members, in the same order. -/
def valueMembers? : List (String × RawJson) → Option (List (String × Json))
  | [] => some []
  | (name, j) :: js => do return (name, ← value? j) :: (← valueMembers? js)

end

@[simp] theorem lone?_nil (name : String) : lone? [] name = some none := rfl

end RawJson

end DocumentQuery
