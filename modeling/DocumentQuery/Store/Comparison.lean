import DocumentQuery.Json.Value
import DocumentQuery.Template.Filter

/-!
# How the store compares values

Values of different kinds are ordered by kind: null, truth values, numbers, strings, arrays, objects.
Numbers are compared as doubles, so an integer and a double may be equal here. Arrays are compared item
by item, and objects by the number of their members alone.

Equality looks at numbers the same way, but only at the top: inside arrays and objects an integer and a
double differ.

## Main definitions

* `Json.equates` — equality of the store
* `Json.order` — the ordering of the store
* `FilterOp.holds` — what the comparisons of a filter mean
-/

namespace DocumentQuery

namespace Json

/-- Whether the store takes two values for equal. Two numbers are if they are the same double; anything else
has to be equal as a value, numbers inside it included. -/
def equates : Json → Json → Bool
  | .num a, .num b => a.sameFloat b
  | a, b => a.same b

/-- The position of a value's kind in the ordering. -/
def rank : Json → Nat
  | .null => 0
  | .bool _ => 1
  | .num _ => 2
  | .str _ => 3
  | .arr _ => 4
  | .obj _ => 5

mutual

/-- The ordering of the store, which compares any two values. Objects are compared by the number of their
members, so different objects may be equal in it. -/
def order : Json → Json → Ordering
  | .bool a, .bool b => compare a b
  | .num a, .num b => a.compare b
  | .str a, .str b => compare a b
  | .arr a, .arr b => orderItems a b
  | .obj a, .obj b => compare a.length b.length
  | a, b => compare a.rank b.rank

/-- The ordering of lists: the first items that differ decide, then the length. -/
def orderItems : List Json → List Json → Ordering
  | [], [] => .eq
  | [], _ :: _ => .lt
  | _ :: _, [] => .gt
  | a :: as, b :: bs => (order a b).then (orderItems as bs)

end

/-- Whether the store orders two values by more than their kinds. -/
def comparable (a b : Json) : Bool :=
  a.rank == b.rank && !a.isNull

/-- Whether the store finds a value among candidates. -/
def isAmong (value : Json) (candidates : List Json) : Bool :=
  candidates.any value.equates

end Json

/-- Whether a comparison holds between a stored value and the expected one. A comparison that orders holds of
values of one kind only, and never of null; the others are about equality. -/
def FilterOp.holds (op : FilterOp) (actual expected : Json) : Bool :=
  let items := actual.toArray?.getD []
  let candidates := expected.toArray?.getD []
  match op with
  | .equalTo => actual.equates expected
  | .notEqualTo => !actual.isNull && !actual.equates expected
  | .lessThan => actual.comparable expected && actual.order expected == .lt
  | .lessThanOrEqualTo => actual.comparable expected && actual.order expected != .gt
  | .greaterThan => actual.comparable expected && actual.order expected == .gt
  | .greaterThanOrEqualTo => actual.comparable expected && actual.order expected != .lt
  | .arrayContains => items.any (·.equates expected)
  | .isIn => actual.isAmong candidates
  | .arrayContainsAny => items.any (·.isAmong candidates)
  | .notIn => !actual.isNull && !actual.isAmong candidates

end DocumentQuery
