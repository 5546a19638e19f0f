import DocumentQuery.Json.Number

/-!
# Shortest decimal text of a double

A finite double is `m * 2 ^ q` for naturals `m` and an integer `q`. The reals that round to it form
an interval whose ends belong to it exactly when `m` is even. The text uses the fewest digits of a
decimal inside that interval and, among decimals with that many digits, the one nearest to the
double. Two such decimals can be equally near; a rule for ties then decides between them.

The search is exact. For one, two, up to seventeen digits it looks at the two neighbours of the
double on the decimal grid with that many digits and takes the first grid on which a neighbour
falls into the interval; seventeen digits always suffice.

How digits and exponent are laid out is a separate decision, recorded in a `DecimalLayout` together
with the rule for ties.

## Main definitions

* `Binary` — the exact value of a double
* `Decimal` — digits and the power of ten of the last digit
* `TieRule` — which of two equally near decimals is taken
* `Binary.shortest` — the fewest digits that read back
* `DecimalLayout` — where positional notation ends and whether an integral value shows a point
-/

namespace DocumentQuery

/-- A non-negative double taken apart: the value is `mantissa * 2 ^ exponent`. -/
structure Binary where
  mantissa : Nat
  exponent : Int
  /-- Whether the next smaller double is only half as far away as the next larger one. -/
  narrowBelow : Bool
deriving DecidableEq

/-- A decimal: the value is `digits * 10 ^ exponent`. -/
structure Decimal where
  digits : Nat
  exponent : Int
deriving DecidableEq, Inhabited

/-- Which of two equally near decimals is taken. -/
inductive TieRule where
  /-- The one whose last digit is even. -/
  | toEven
  /-- The larger one. -/
  | up
deriving DecidableEq

/-- Whether the smaller of two equally near decimals, whose digits are given, is taken. -/
def TieRule.takesBelow (low : Nat) : TieRule → Bool
  | toEven => low % 2 = 0
  | up => false

namespace Binary

/-- The number of fractions a double's bit pattern holds for each exponent. -/
def fractionWeight : Nat := 4503599627370496

/-- The absolute value of a finite double. -/
def ofFloat (f : Float) : Binary :=
  let magnitude : Nat := f.toBits.toNat % Number.signWeight
  let field : Nat := magnitude / fractionWeight
  let fraction : Nat := magnitude % fractionWeight
  if field = 0 then ⟨fraction, -1074, false⟩
  else ⟨fractionWeight + fraction, (field : Int) - 1075, fraction = 0 ∧ 1 < field⟩

/-- Numerator of the value over `denominator`, times four. -/
def numerator (b : Binary) : Nat :=
  4 * b.mantissa * Nat.pow 2 b.exponent.toNat

/-- Denominator of the value. -/
def denominator (b : Binary) : Nat :=
  Nat.pow 2 (-b.exponent).toNat

/-- Distance from the value to the lower end of its interval, in quarters of a unit. -/
def belowQuarters (b : Binary) : Nat :=
  (if b.narrowBelow then 1 else 2) * Nat.pow 2 b.exponent.toNat

/-- Distance from the value to the upper end of its interval, in quarters of a unit. -/
def aboveQuarters (b : Binary) : Nat :=
  2 * Nat.pow 2 b.exponent.toNat

/-- Whether `digits * 10 ^ exponent` rounds to the double. -/
def admits (b : Binary) (d : Decimal) : Bool :=
  let scaled := 4 * d.digits * Nat.pow 10 d.exponent.toNat * b.denominator
  let unit := Nat.pow 10 (-d.exponent).toNat
  let low := (b.numerator - b.belowQuarters) * unit
  let high := (b.numerator + b.aboveQuarters) * unit
  if b.mantissa % 2 = 0 then low ≤ scaled ∧ scaled ≤ high else low < scaled ∧ scaled < high

/-- The largest `k` with `10 ^ k` at most the value, for a positive value. -/
def decimalExponent (b : Binary) : Int :=
  let binary : Int := (Nat.log2 b.mantissa : Int) + b.exponent
  let guess := binary * 30103 / 100000
  let reaches (k : Int) : Bool :=
    4 * Nat.pow 10 k.toNat * b.denominator ≤ b.numerator * Nat.pow 10 (-k).toNat
  if reaches (guess + 1) then guess + 1
  else if reaches guess then guess
  else guess - 1

/-- The value's lower neighbour on the grid of multiples of `10 ^ exponent`, and what is left. -/
def gridBelow (b : Binary) (exponent : Int) : Nat × Nat × Nat :=
  let dividend := b.numerator * Nat.pow 10 (-exponent).toNat
  let divisor := 4 * b.denominator * Nat.pow 10 exponent.toNat
  (dividend / divisor, dividend % divisor, divisor)

/-- The nearest decimal with a given number of digits that rounds to the double, if there is one. -/
def withDigits? (tie : TieRule) (b : Binary) (count : Nat) : Option Decimal :=
  let exponent := b.decimalExponent + 1 - count
  let (low, rest, divisor) := b.gridBelow exponent
  let below : Decimal := ⟨low, exponent⟩
  let above : Decimal := ⟨low + 1, exponent⟩
  match b.admits below, b.admits above with
  | true, true =>
    if 2 * rest < divisor ∨ (2 * rest = divisor ∧ tie.takesBelow low) then some below
    else some above
  | true, false => some below
  | false, true => some above
  | false, false => none

/-- The decimal with the fewest digits that rounds to a positive double. -/
def shortest (tie : TieRule) (b : Binary) : Decimal :=
  ((List.range' 1 17).findSome? (b.withDigits? tie)).getD ⟨0, 0⟩

end Binary

/-- How a double is written once its digits are known. -/
structure DecimalLayout where
  /-- Positional notation is used from this power of ten of the leading digit. -/
  positionalFrom : Int
  /-- Positional notation is used below this power of ten of the leading digit. -/
  positionalBelow : Int
  /-- Whether an integral value in positional notation ends in a point and a zero. -/
  keepsPoint : Bool
  /-- Which of two equally near decimals is written. -/
  tie : TieRule

namespace DecimalLayout

/-- Document text: exponents from sixteen on and below minus five, a point in every double. -/
def document : DecimalLayout := ⟨-5, 16, true, .toEven⟩

/-- Plain text: never an exponent, no point in an integral value, and ties go up. -/
def plain : DecimalLayout := ⟨-400, 400, false, .up⟩

/-- Strips the trailing zeros of a list of digits. -/
def trimZeros (digits : List Char) : List Char :=
  (digits.reverse.dropWhile (· == '0')).reverse

/-- Writes a positive decimal. -/
def writeDecimal (layout : DecimalLayout) (d : Decimal) : String :=
  let all := d.digits.repr.toList
  let leading : Int := d.exponent + all.length - 1
  let digits := trimZeros all
  if layout.positionalFrom ≤ leading ∧ leading < layout.positionalBelow then
    if leading < 0 then
      "0." ++ String.ofList (List.replicate (-leading - 1).toNat '0' ++ digits)
    else
      let whole := digits.take (leading.toNat + 1)
      let padded := whole ++ List.replicate (leading.toNat + 1 - whole.length) '0'
      let fraction := digits.drop (leading.toNat + 1)
      if fraction.isEmpty then
        String.ofList padded ++ (if layout.keepsPoint then ".0" else "")
      else String.ofList padded ++ "." ++ String.ofList fraction
  else
    let mantissa := match digits with
      | [] => "0"
      | [d] => String.ofList [d]
      | d :: rest => String.ofList (d :: '.' :: rest)
    let sign := if leading < 0 then "-" else "+"
    mantissa ++ "e" ++ sign ++ leading.natAbs.repr

/-- Writes a finite double. -/
def write (layout : DecimalLayout) (f : Float) : String :=
  let sign := if f.toBits.toNat < Number.signWeight then "" else "-"
  let b := Binary.ofFloat f
  if b.mantissa = 0 then sign ++ (if layout.keepsPoint then "0.0" else "0")
  else sign ++ layout.writeDecimal (b.shortest layout.tie)

end DecimalLayout

/-- The document text of a number. -/
def Number.text : Number → String
  | .int i => i.repr
  | .float f => DecimalLayout.document.write f

end DocumentQuery
