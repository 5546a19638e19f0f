/-!
# Numbers of a document

A document holds two kinds of numbers. An integer fits a signed or an unsigned 64-bit word and is
kept exactly; every other number is a double. The two kinds never mix on their own: `1` and `1.0`
are different values, and they meet only where a comparison reads both as doubles.

Doubles in a document are finite. Their order is read off the bit pattern: dropping the sign bit
leaves a magnitude that grows with the absolute value, so `orderKey` maps the doubles to integers
and keeps their order, with both zeros at zero.

## Main definitions

* `Number` — an integer or a double
* `Number.orderKey` — the position of a double among all doubles
* `Number.compare` — the numeric comparison through doubles
* `Number.same` — equality that keeps integers and doubles apart
-/

namespace DocumentQuery

/-- A number of a document: an exact integer or a finite double. -/
inductive Number where
  | int (value : Int)
  | float (value : Float)
deriving DecidableEq, Inhabited

namespace Number

/-- One more than the largest signed 64-bit integer. -/
def signedBound : Int := 9223372036854775808

/-- The largest count an unsigned 64-bit word holds. -/
def maxCount : Nat := 18446744073709551615

/-- The number of a count. -/
def ofNat (n : Nat) : Number :=
  .int n

/-- The integer value when it fits a signed 64-bit word. -/
def toSigned? : Number → Option Int
  | .int i => if i < signedBound then some i else none
  | .float _ => none

/-- The integer value when it is a count. -/
def toCount? : Number → Option Nat
  | .int i => if 0 ≤ i then some i.toNat else none
  | .float _ => none

/-- The nearest double. -/
def toFloat : Number → Float
  | .int i => Float.ofInt i
  | .float f => f

/-- The double of a number, unless it is infinite or not a number. -/
def ofFloat? (f : Float) : Option Number :=
  if f.isFinite then some (.float f) else none

/-- The weight of the sign in the bit pattern of a double; a pattern below it is not negative. -/
def signWeight : Nat := 9223372036854775808

/-- The position of a finite double among all of them, both zeros at zero. -/
def orderKey (f : Float) : Int :=
  let bits := f.toBits.toNat
  if bits < signWeight then bits else -((bits - signWeight : Nat) : Int)

/-- Compares two numbers as doubles. Large integers that round to one double are equal here, although they are
different numbers. -/
def compare (a b : Number) : Ordering :=
  Ord.compare (orderKey a.toFloat) (orderKey b.toFloat)

/-- Whether two numbers are the same double. -/
def sameFloat (a b : Number) : Bool :=
  orderKey a.toFloat == orderKey b.toFloat

/-- Whether two numbers are of the same kind and equal; the two zeros are equal doubles. An integer is never
the same as a double, not even where both denote one quantity. -/
def same : Number → Number → Bool
  | .int a, .int b => a == b
  | .float a, .float b => orderKey a == orderKey b
  | _, _ => false

@[simp] theorem same_refl (n : Number) : n.same n = true := by
  cases n <;> simp [same]

end Number

end DocumentQuery
