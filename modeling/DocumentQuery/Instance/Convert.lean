import DocumentQuery.Error.Failure
import DocumentQuery.Instance.Value
import DocumentQuery.Schema.Lookup
import DocumentQuery.Time.Chronology

/-!
# Converting scalars

A stored scalar is converted to the type that is declared for it. Null stays null for every type. A
double becomes an integer only when it is integral and fits a signed 64-bit word, and an integer always
becomes the nearest double.

A point in time is stored as a text, as an object of seconds and nanoseconds, or as a number of
milliseconds. A chronology makes it of the text or of the counts; what is decided here is which of the
three forms a value has, that nanoseconds which are not given are none, and that the counts fit the
words they are passed in.
-/

namespace DocumentQuery

namespace Number

/-- The integer a double denotes, if it denotes one. -/
def integral? (f : Float) : Option Int :=
  let b := Binary.ofFloat f
  let numerator := b.mantissa * Nat.pow 2 b.exponent.toNat
  if numerator % b.denominator = 0 then
    let magnitude : Int := (numerator / b.denominator : Nat)
    some (if f.toBits.toNat < signWeight then magnitude else -magnitude)
  else none

/-- The signed 64-bit integer a double denotes, if it denotes one. -/
def narrow? (f : Float) : Option Int :=
  (integral? f).filter fun i => -signedBound ≤ i && i < signedBound

end Number

namespace Json

/-- Refuses a value that is not what was expected. -/
def mismatch {α : Type} (raw : Json) (expected : Expectation) : Except Failure α :=
  .error (.materialization (.mismatch expected raw))

/-- The integer a stored value denotes: an integer of 64 bits, or a double that is one. A larger integer and a
double with a fraction are refused, and so is every other kind of value. -/
def toInteger (raw : Json) : Except Failure Int :=
  match raw.toSigned?, raw.toFloat? with
  | some i, _ => .ok i
  | none, some f =>
    match Number.narrow? f with
    | some i => .ok i
    | none => .error (.materialization (.notAnInteger f))
  | none, none => raw.mismatch .integer

/-- The point in time of an object of seconds and nanoseconds, where nanoseconds that are not a count are
none. The nanoseconds have to fit a word of 32 bits. -/
def instantOfParts? [Chronology] (members : Table Json) : Option Instant := do
  let seconds ← (members.lookup "seconds").bind toSigned?
  let nanos := ((members.lookup "nanos").bind toCount?).getD 0
  if nanos < 4294967296 then Chronology.ofSeconds? seconds nanos else none

/-- The point in time a stored value denotes: a text of RFC 3339, an object of seconds and nanoseconds, or a
number of milliseconds. What a text says and which counts are in range is up to the chronology. -/
def toInstant [Chronology] (raw : Json) : Except Failure Instant :=
  let given : Option Instant → Except Failure Instant
    | some t => .ok t
    | none => raw.mismatch .timestamp
  match raw with
  | .str text =>
    (Chronology.read text).mapError fun reason => .materialization (.timestampText text reason)
  | .obj members => given (instantOfParts? members)
  | .num n => given (n.toSigned?.bind Chronology.ofMillis?)
  | _ => raw.mismatch .timestamp

/-- The name of the variant a stored value denotes. -/
def variantName? (enum : EnumDecl) : Json → Option String
  | .str name => if (enum.valueOf? name).isSome then some name else none
  | .num n => n.toSigned?.bind enum.nameOf?
  | _ => none

/-- The variant a stored value denotes: a text that is the name of one, or an integer that numbers one. A text
that names none is refused, which a filter would not have noticed. -/
def toVariant (m : Model) (enumName : String) (raw : Json) : Except Failure Value :=
  match m.enumNamed enumName with
  | .error e => .error (.query e)
  | .ok enum =>
    match variantName? enum raw with
    | some name => .ok (.enum enumName name)
    | none => .error (.materialization (.notAVariant raw enumName))

end Json

/-- Converts a stored value that is not null. -/
def ScalarType.convertPresent [Chronology] (m : Model) (raw : Json) : ScalarType → Except Failure Value
  | .bool =>
    match raw.toBool? with
    | some b => .ok (.bool b)
    | none => raw.mismatch .bool
  | .int => raw.toInteger.map Value.int
  | .float =>
    match raw.toFloat? with
    | some f => .ok (.float f)
    | none => raw.mismatch .float
  | .string =>
    match raw.toString? with
    | some s => .ok (.string s)
    | none => raw.mismatch .string
  | .timestamp => raw.toInstant.map Value.timestamp
  | .enum name => raw.toVariant m name

/-- Converts a stored value to a scalar type. Null is null for every type, be the property nullable or not. -/
def ScalarType.convert [Chronology] (m : Model) (type : ScalarType) (raw : Json) : Except Failure Value :=
  if raw.isNull then .ok .null else type.convertPresent m raw

end DocumentQuery
