import DocumentQuery.Json.Value

/-!
# Sums and averages

Integers are added exactly as long as every partial sum fits a signed 64-bit word. As soon as one does
not, or a double is among the numbers, all of them are added as doubles from left to right. An average
is always a double. A result that is not finite is null.
-/

namespace DocumentQuery.Number

/-- Whether an integer fits a signed 64-bit word. -/
def fitsSigned (i : Int) : Bool :=
  -signedBound ≤ i && i < signedBound

/-- Adds integers to a partial sum, as long as everything fits a signed 64-bit word. -/
def addIntegers (partialSum : Int) : List Number → Option Int
  | [] => some partialSum
  | n :: ns =>
    match n.toSigned? with
    | some i => if fitsSigned (partialSum + i) then addIntegers (partialSum + i) ns else none
    | none => none

/-- Adds numbers as doubles from left to right. -/
def addFloats (ns : List Number) : Float :=
  (ns.map toFloat).foldl (· + ·) (-0.0)

/-- The sum of numbers: exact if they are integers and no partial sum leaves the signed 64-bit words, and else
as doubles. It depends on the order of the numbers in both respects. -/
def sum (ns : List Number) : Json :=
  match addIntegers 0 ns with
  | some total => .int total
  | none => Json.ofFloat (addFloats ns)

/-- The average of numbers, if there is one. -/
def average? (ns : List Number) : Option Json :=
  if ns.isEmpty then none else some (Json.ofFloat (addFloats ns / Float.ofNat ns.length))

end DocumentQuery.Number
