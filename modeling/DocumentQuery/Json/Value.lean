import DocumentQuery.Json.Number
import DocumentQuery.Table

/-!
# Document values

A document is a JSON value. The members of an object are a table, so they are always in ascending
order of their names.

`Json.same` is equality of values: integers and doubles are different even when they denote the
same quantity, and the two zeros among the doubles are equal.
-/

namespace DocumentQuery

/-- A JSON value. A number is an exact integer or a finite double, and which of the two it is depends on how
it was written. -/
inductive Json where
  | null
  | bool (value : Bool)
  | num (value : Number)
  | str (value : String)
  | arr (items : List Json)
  | obj (members : List (String × Json))
deriving Inhabited

namespace Json

/-- The value of an integer. -/
def int (i : Int) : Json :=
  .num (.int i)

/-- The value of a count. -/
def count (n : Nat) : Json :=
  .num (.ofNat n)

/-- The value of a double, null when it is not finite. A sum may leave the doubles, and a document has no
other way to say so. -/
def ofFloat (f : Float) : Json :=
  ((Number.ofFloat? f).map Json.num).getD .null

/-- An object from members in any order. -/
def mkObj (members : List (String × Json)) : Json :=
  .obj (Table.ofList members)

/-- An alternative that carries a value. -/
def alternative (name : String) (content : Json) : Json :=
  .obj [(name, content)]

/-- Writes a list. -/
def ofList {α : Type} (write : α → Json) (items : List α) : Json :=
  .arr (items.map write)

/-- A member that is left out when it has no value. -/
def given {α : Type} (name : String) (write : α → Json) : Option α → List (String × Json)
  | some a => [(name, write a)]
  | none => []

/-- Null for an absent value. -/
def ofOption {α : Type} (write : α → Json) : Option α → Json
  | none => .null
  | some a => write a

/-- Whether a value is null. -/
def isNull : Json → Bool
  | .null => true
  | _ => false

/-- Whether a value is an array. -/
def isArray : Json → Bool
  | .arr _ => true
  | _ => false

/-- The truth value, if it is one. -/
def toBool? : Json → Option Bool
  | .bool b => some b
  | _ => none

/-- The text, if it is a string. -/
def toString? : Json → Option String
  | .str s => some s
  | _ => none

/-- The number, if it is one. -/
def toNumber? : Json → Option Number
  | .num n => some n
  | _ => none

/-- The integer, if it fits a signed 64-bit word. -/
def toSigned? (j : Json) : Option Int :=
  j.toNumber?.bind Number.toSigned?

/-- The count, if it is one. -/
def toCount? (j : Json) : Option Nat :=
  j.toNumber?.bind Number.toCount?

/-- The number as a double, if it is one. -/
def toFloat? (j : Json) : Option Float :=
  j.toNumber?.map Number.toFloat

/-- The items, if it is an array. -/
def toArray? : Json → Option (List Json)
  | .arr items => some items
  | _ => none

/-- The members, if it is an object. -/
def toObject? : Json → Option (Table Json)
  | .obj members => some members
  | _ => none

/-- A member of an object. -/
def member? (j : Json) (name : String) : Option Json :=
  j.toObject?.bind (·.lookup name)

mutual

/-- Whether two values are equal. -/
def same : Json → Json → Bool
  | .null, .null => true
  | .bool a, .bool b => a == b
  | .num a, .num b => a.same b
  | .str a, .str b => a == b
  | .arr a, .arr b => sameItems a b
  | .obj a, .obj b => sameMembers a b
  | _, _ => false

/-- Whether two lists of values are equal item by item. -/
def sameItems : List Json → List Json → Bool
  | [], [] => true
  | a :: as, b :: bs => same a b && sameItems as bs
  | _, _ => false

/-- Whether two tables bind the same names to equal values. -/
def sameMembers : List (String × Json) → List (String × Json) → Bool
  | [], [] => true
  | (k, a) :: as, (l, b) :: bs => k == l && same a b && sameMembers as bs
  | _, _ => false

end

mutual

@[simp] theorem same_refl : (j : Json) → j.same j = true
  | .null => by simp [same]
  | .bool _ => by simp [same]
  | .num _ => by simp [same]
  | .str _ => by simp [same]
  | .arr items => by simpa [same] using sameItems_refl items
  | .obj members => by simpa [same] using sameMembers_refl members

@[simp] theorem sameItems_refl : (items : List Json) → sameItems items items = true
  | [] => by simp [sameItems]
  | a :: as => by simp [sameItems, same_refl a, sameItems_refl as]

@[simp] theorem sameMembers_refl :
    (members : List (String × Json)) → sameMembers members members = true
  | [] => by simp [sameMembers]
  | (_, a) :: as => by simp [sameMembers, same_refl a, sameMembers_refl as]

end

end Json

end DocumentQuery
