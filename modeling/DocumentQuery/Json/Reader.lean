import DocumentQuery.Json.Raw

/-!
# Reading document text

The grammar is that of JSON. Three rules go beyond it.

* A literal without a point and an exponent is an integer when it fits a 64-bit word, signed for a
  negative literal; otherwise, and for `-0`, it is a double.
* The digits of a double are taken into a 64-bit significand for as long as they fit. Further digits
  before the point only raise the exponent, further digits after it are dropped. The significand is
  then scaled by powers of ten. A literal beyond the largest double is unusable.
* A value inside more than `maxNesting` containers is unusable if it is a container, and so is a string
  with half of a character that is given by two numbers, and an object with such a string for a name.

Unusable parts must be well formed all the same. A text with one of them stands for no document, but
typed data can be read from it when nothing asks for that part.

## Main definitions

* `RawJson.ofText?` — the value a text writes
* `Json.ofText?` — the document of a text
-/

namespace DocumentQuery

namespace Json.Reader

/-- How many containers may enclose a value. -/
def maxNesting : Nat := 127

/-- The blanks between tokens. -/
def isBlank (c : Char) : Bool :=
  c == ' ' || c == '\n' || c == '\t' || c == '\r'

/-- Drops leading blanks. -/
def skipBlanks (chars : List Char) : List Char :=
  chars.dropWhile isBlank

/-- The value of a decimal digit. -/
def digitValue (c : Char) : Nat :=
  c.toNat - '0'.toNat

/-- The value of a list of decimal digits. -/
def naturalOf (digits : List Char) : Nat :=
  digits.foldl (fun n c => n * 10 + digitValue c) 0

/-- Takes digits into a significand while it fits 64 bits and returns the digits left over. -/
def absorb (significand : Nat) : List Char → Nat × List Char
  | [] => (significand, [])
  | c :: rest =>
    let next := significand * 10 + digitValue c
    if next ≤ Number.maxCount then absorb next rest else (significand, c :: rest)

/-- The power of ten as a double. -/
def powerOfTen (n : Nat) : Float :=
  Float.ofScientific 1 false n

/-- The largest power of ten that is a finite double. -/
def maxPower : Nat := 308

/-- Scales a significand by a power of ten, unless the result is too large. -/
def scale (significand : Nat) (exponent : Int) : Option Float :=
  let f := Float.ofNat significand
  let n := exponent.natAbs
  if 0 ≤ exponent then
    if n ≤ maxPower then
      let scaled := f * powerOfTen n
      if scaled.isFinite then some scaled else none
    else if significand = 0 then some f
    else none
  else if n ≤ maxPower then some (f / powerOfTen n)
  else if n ≤ 2 * maxPower then some (f / powerOfTen maxPower / powerOfTen (n - maxPower))
  else some (Float.ofNat 0)

/-- The double of a literal given by its digits before and after the point and its exponent. -/
def doubleOf (negative : Bool) (whole fraction : List Char) (exponent : Int) : Option Number :=
  let (high, dropped) := absorb 0 whole
  let (significand, cut) := absorb high fraction
  let scaled := scale significand (exponent + dropped.length - (fraction.length - cut.length : Nat))
  scaled.map fun f => .float (if negative then -f else f)

/-- The number of a literal without point and exponent. -/
def integerOf (negative : Bool) (digits : List Char) : Option Number :=
  let n := naturalOf digits
  if negative then
    if 0 < n ∧ (n : Int) ≤ Number.signedBound then some (.int (-n)) else doubleOf true digits [] 0
  else if n ≤ Number.maxCount then some (.int n)
  else doubleOf false digits [] 0

/-- Reads an exponent, if there is one. -/
def readExponent : List Char → Option (Option Int × List Char)
  | c :: rest =>
    if c == 'e' || c == 'E' then
      let (negative, rest) := match rest with
        | '-' :: rest => (true, rest)
        | '+' :: rest => (false, rest)
        | rest => (false, rest)
      let digits := rest.takeWhile Char.isDigit
      if digits.isEmpty then none
      else
        let n : Int := naturalOf digits
        some (some (if negative then -n else n), rest.dropWhile Char.isDigit)
    else some (none, c :: rest)
  | [] => some (none, [])

/-- Reads the digits after a point, if there is one. -/
def readFraction : List Char → Option (Option (List Char) × List Char)
  | '.' :: rest =>
    let digits := rest.takeWhile Char.isDigit
    if digits.isEmpty then none else some (some digits, rest.dropWhile Char.isDigit)
  | rest => some (none, rest)

/-- Reads a number, none if it is beyond the doubles. -/
def readNumber (chars : List Char) : Option (Option Number × List Char) := do
  let (negative, chars) := match chars with
    | '-' :: rest => (true, rest)
    | rest => (false, rest)
  let whole := chars.takeWhile Char.isDigit
  if whole.isEmpty || (whole.length > 1 && whole.head? == some '0') then none
  let (fraction, chars) ← readFraction (chars.dropWhile Char.isDigit)
  let (exponent, chars) ← readExponent chars
  return match fraction, exponent with
    | none, none => (integerOf negative whole, chars)
    | _, _ => (doubleOf negative whole (fraction.getD []) (exponent.getD 0), chars)

/-- The value of a digit in base sixteen. -/
def hexValue? (c : Char) : Option Nat :=
  if c.isDigit then some (digitValue c)
  else if 'a' ≤ c && c ≤ 'f' then some (c.toNat - 'a'.toNat + 10)
  else if 'A' ≤ c && c ≤ 'F' then some (c.toNat - 'A'.toNat + 10)
  else none

/-- Reads four digits in base sixteen. -/
def readUnit : List Char → Option (Nat × List Char)
  | a :: b :: c :: d :: rest => do
    let n := (← hexValue? a) * 4096 + (← hexValue? b) * 256 + (← hexValue? c) * 16 + (← hexValue? d)
    return (n, rest)
  | _ => none

/-- Reads a character given by one or two numbers, none for a lone half of a pair. -/
def readNumbered (chars : List Char) : Option (Option Char × List Char) := do
  let (high, rest) ← readUnit chars
  if 0xD800 ≤ high && high < 0xDC00 then
    match rest with
    | '\\' :: 'u' :: next =>
      match readUnit next with
      | some (low, after) =>
        if 0xDC00 ≤ low && low < 0xE000 then
          return (some (Char.ofNat (0x10000 + (high - 0xD800) * 0x400 + (low - 0xDC00))), after)
        else return (none, rest)
      | none => none
    | _ => return (none, rest)
  else if 0xDC00 ≤ high && high < 0xE000 then return (none, rest)
  else return (some (Char.ofNat high), rest)

/-- Reads what follows a backslash, none for half of a character. -/
def readEscape : List Char → Option (Option Char × List Char)
  | '"' :: rest => some (some '"', rest)
  | '\\' :: rest => some (some '\\', rest)
  | '/' :: rest => some (some '/', rest)
  | 'b' :: rest => some (some '\x08', rest)
  | 'f' :: rest => some (some '\x0c', rest)
  | 'n' :: rest => some (some '\n', rest)
  | 'r' :: rest => some (some '\r', rest)
  | 't' :: rest => some (some '\t', rest)
  | 'u' :: rest => readNumbered rest
  | _ => none

/-- Reads the characters of a string up to its closing quote. `read` holds them in reverse, none once
half of a character has been met. -/
def readString : Nat → Option (List Char) → List Char → Option (Option String × List Char)
  | 0, _, _ => none
  | fuel + 1, read, chars =>
    match chars with
    | [] => none
    | '"' :: rest => some (read.map fun read => String.ofList read.reverse, rest)
    | '\\' :: rest => do
      let (c, rest) ← readEscape rest
      readString fuel (do return (← c) :: (← read)) rest
    | c :: rest => if c < ' ' then none else readString fuel (read.map (c :: ·)) rest

/-- The value of a part that may be unusable. -/
def orUnusable {α : Type} (value : α → RawJson) : Option α → RawJson
  | some a => value a
  | none => .unusable

/-- A container, unless too many containers enclose it. -/
def within (nesting : Nat) (container : RawJson) : RawJson :=
  if nesting = 0 then .unusable else container

mutual

/-- Reads a value; `nesting` containers may still be opened. -/
def readValue : Nat → Nat → List Char → Option (RawJson × List Char)
  | 0, _, _ => none
  | fuel + 1, nesting, chars =>
    match skipBlanks chars with
    | 'n' :: 'u' :: 'l' :: 'l' :: rest => some (.null, rest)
    | 't' :: 'r' :: 'u' :: 'e' :: rest => some (.bool true, rest)
    | 'f' :: 'a' :: 'l' :: 's' :: 'e' :: rest => some (.bool false, rest)
    | '"' :: rest => do
      let (s, rest) ← readString (rest.length + 1) (some []) rest
      return (orUnusable RawJson.str s, rest)
    | '[' :: rest =>
      match skipBlanks rest with
      | ']' :: rest => some (within nesting (.arr []), rest)
      | rest => do
        let (items, rest) ← readItems fuel (nesting - 1) [] rest
        return (within nesting (.arr items), rest)
    | '\x7b' :: rest =>
      match skipBlanks rest with
      | '\x7d' :: rest => some (within nesting (.obj []), rest)
      | rest => do
        let (members, rest) ← readMembers fuel (nesting - 1) (some []) rest
        return (within nesting (orUnusable RawJson.obj members), rest)
    | rest => do
      let (n, rest) ← readNumber rest
      return (orUnusable RawJson.num n, rest)

/-- Reads the items of an array up to its closing bracket; `read` holds them in reverse. -/
def readItems : Nat → Nat → List RawJson → List Char → Option (List RawJson × List Char)
  | 0, _, _, _ => none
  | fuel + 1, nesting, read, chars => do
    let (item, rest) ← readValue fuel nesting chars
    match skipBlanks rest with
    | ',' :: rest => readItems fuel nesting (item :: read) rest
    | ']' :: rest => some ((item :: read).reverse, rest)
    | _ => none

/-- Reads the members of an object up to its closing brace. `read` holds them in reverse, none once a
name with half of a character has been met. -/
def readMembers : Nat → Nat → Option (List (String × RawJson)) → List Char →
    Option (Option (List (String × RawJson)) × List Char)
  | 0, _, _, _ => none
  | fuel + 1, nesting, read, chars =>
    match skipBlanks chars with
    | '"' :: rest => do
      let (name, rest) ← readString (rest.length + 1) (some []) rest
      match skipBlanks rest with
      | ':' :: rest =>
        let (value, rest) ← readValue fuel nesting rest
        let read : Option (List (String × RawJson)) := do return (← name, value) :: (← read)
        match skipBlanks rest with
        | ',' :: rest => readMembers fuel nesting read rest
        | '\x7d' :: rest => some (read.map List.reverse, rest)
        | _ => none
      | _ => none
    | _ => none

end

end Json.Reader

/-- Reads a text as one value with nothing but blanks around it. -/
def RawJson.ofText? (text : String) : Option RawJson :=
  let chars := text.toList
  match Json.Reader.readValue (chars.length + 1) Json.Reader.maxNesting chars with
  | some (value, rest) => if (Json.Reader.skipBlanks rest).isEmpty then some value else none
  | none => none

/-- Reads a text as one document. Parts that are well formed and stand for no document, such as half of a
character, make the whole unreadable here; a reader of typed data may still pass over them. -/
def Json.ofText? (text : String) : Option Json :=
  (RawJson.ofText? text).bind RawJson.value?

end DocumentQuery
