import DocumentQuery.Json.Number
import DocumentQuery.Schema.Types
import DocumentQuery.Time.Instant

/-!
# Values of instances

The values that queries return are typed: a stored number has become an integer or a double, a stored
text a string, a point in time or a variant of an enum. Objects are instances and are referred to by
number, so that two values may share one.

## Main definitions

* `Value` — a typed value
* `Value.same` — equality, which for objects is identity
* `Value.collect` — a collection of a kind
-/

namespace DocumentQuery

/-- The number of an instance. -/
abbrev InstanceId := Nat

/-- A typed value. An object is the number of an instance, so values can be compared and kept without a look
at the graph. -/
inductive Value where
  | null
  | bool (value : Bool)
  | int (value : Int)
  | float (value : Float)
  | string (value : String)
  | timestamp (value : Instant)
  | enum (typeName variant : String)
  | object (id : InstanceId)
  | collection (kind : CollectionKind) (items : List Value)
deriving Inhabited

namespace Value

mutual

/-- Whether two values are the same; objects are the same only if they are one instance. This is the equality
by which sets leave out repetitions. -/
def same : Value → Value → Bool
  | .null, .null => true
  | .bool a, .bool b => a == b
  | .int a, .int b => a == b
  | .float a, .float b => Number.orderKey a == Number.orderKey b
  | .string a, .string b => a == b
  | .timestamp a, .timestamp b => a == b
  | .enum t v, .enum u w => t == u && v == w
  | .object a, .object b => a == b
  | .collection k a, .collection l b => k == l && sameItems a b
  | _, _ => false

/-- Whether two lists of values are the same item by item. -/
def sameItems : List Value → List Value → Bool
  | [], [] => true
  | a :: as, b :: bs => same a b && sameItems as bs
  | _, _ => false

end

/-- Adds a value to values without duplicates. -/
def addDistinct (values : List Value) (v : Value) : List Value :=
  if values.any (·.same v) then values else values ++ [v]

/-- The values without duplicates, each where it comes first. -/
def distinct (values : List Value) : List Value :=
  values.foldl addDistinct []

/-- A collection of a kind. -/
def collect : CollectionKind → List Value → Value
  | .set, items => .collection .set (distinct items)
  | kind, items => .collection kind items

/-- Whether a value is null. -/
def isNull : Value → Bool
  | .null => true
  | _ => false

/-- The truth value, if it is one. -/
def toBool? : Value → Option Bool
  | .bool b => some b
  | _ => none

/-- The integer, if it is one. -/
def toInt? : Value → Option Int
  | .int i => some i
  | _ => none

/-- The number as a double, if it is one. -/
def toFloat? : Value → Option Float
  | .float f => some f
  | .int i => some (Float.ofInt i)
  | _ => none

/-- The text of a string or the name of a variant. -/
def toText? : Value → Option String
  | .string s => some s
  | .enum _ variant => some variant
  | _ => none

/-- The point in time, if it is one. -/
def toInstant? : Value → Option Instant
  | .timestamp t => some t
  | _ => none

/-- The instance, if it is an object. -/
def toObject? : Value → Option InstanceId
  | .object id => some id
  | _ => none

end Value

end DocumentQuery
