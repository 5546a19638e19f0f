import DocumentQuery.Json.Raw
import DocumentQuery.Json.Reader
import DocumentQuery.Text.Segments

/-!
# Strings, keys and numbers of the settings file

A string stands between double quotes; a backslash starts an escape. A key is bare or such a string, and
keys are joined by points. A number is a literal without quotes, with underscores only between digits:
an integer, which is decimal or has the prefix of base sixteen, eight or two and fits a signed 64-bit
word, or a double. No setting is a double, so all that is kept of one is that it is there.
-/

namespace DocumentQuery.Toml

/-- The blanks inside a line. -/
def isBlank (c : Char) : Bool :=
  c == ' ' || c == '\t'

/-- Drops leading blanks. -/
def skipBlanks (chars : List Char) : List Char :=
  chars.dropWhile isBlank

/-- Whether a character may not stand in a text. -/
def isControl (c : Char) : Bool :=
  (c < ' ' && c != '\t') || c == '\x7f'

/-- Whether nothing but a comment is left of a line. -/
def isFinished (chars : List Char) : Bool :=
  match skipBlanks chars with
  | [] => true
  | '#' :: comment => !comment.any isControl
  | _ => false

/-- Reads the character of a number of exactly `count` digits in base sixteen. -/
def readScalar (count : Nat) (chars : List Char) : Option (Char × List Char) := do
  let digits := chars.take count
  if digits.length < count then none
  let values ← digits.mapM Json.Reader.hexValue?
  let n := values.foldl (fun n d => n * 16 + d) 0
  if n.isValidChar then some (Char.ofNat n, chars.drop count) else none

/-- Reads what follows a backslash in a string. -/
def readEscape : List Char → Option (Char × List Char)
  | 'b' :: rest => some ('\x08', rest)
  | 't' :: rest => some ('\t', rest)
  | 'n' :: rest => some ('\n', rest)
  | 'f' :: rest => some ('\x0c', rest)
  | 'r' :: rest => some ('\r', rest)
  | '"' :: rest => some ('"', rest)
  | '\\' :: rest => some ('\\', rest)
  | 'u' :: rest => readScalar 4 rest
  | 'U' :: rest => readScalar 8 rest
  | _ => none

/-- Reads a string up to its closing quote; `read` holds its characters in reverse. -/
def readString : Nat → List Char → List Char → Option (String × List Char)
  | 0, _, _ => none
  | fuel + 1, read, chars =>
    match chars with
    | '"' :: rest => some (String.ofList read.reverse, rest)
    | '\\' :: rest => do
      let (c, rest) ← readEscape rest
      readString fuel (c :: read) rest
    | c :: rest => if isControl c then none else readString fuel (c :: read) rest
    | [] => none

/-- Whether a character may stand in a bare key. -/
def isKeyChar (c : Char) : Bool :=
  c.isAlphanum || c == '_' || c == '-'

/-- Reads one key. -/
def readKey : List Char → Option (String × List Char)
  | '"' :: rest => readString (rest.length + 1) [] rest
  | chars =>
    let key := chars.takeWhile isKeyChar
    if key.isEmpty then none else some (String.ofList key, chars.dropWhile isKeyChar)

/-- Reads keys joined by points. -/
def readKeys : Nat → List Char → Option (List String × List Char)
  | 0, _ => none
  | fuel + 1, chars => do
    let (key, rest) ← readKey (skipBlanks chars)
    match skipBlanks rest with
    | '.' :: rest => do
      let (keys, rest) ← readKeys fuel rest
      return (key :: keys, rest)
    | rest => return ([key], rest)

/-- The value of digits in a base up to sixteen. -/
def naturalIn? (base : Nat) (digits : List Char) : Option Nat := do
  let values ← digits.mapM Json.Reader.hexValue?
  if values.any (base ≤ ·) then none
  else return values.foldl (fun n d => n * base + d) 0

/-- The digits between the underscores of a literal, each underscore between two digits. -/
def grouped? (literal : List Char) : Option (List Char) :=
  let parts := Text.splitChars '_' literal
  if parts.any List.isEmpty then none else some parts.flatten

/-- An integer, if it fits a signed 64-bit word. -/
def fitting? (i : Int) : Option RawJson :=
  if -Number.signedBound ≤ i && i < Number.signedBound then some (.num (.int i)) else none

/-- A literal without its sign, and whether it is negative. -/
def unsigned : List Char → Bool × List Char
  | '-' :: rest => (true, rest)
  | '+' :: rest => (false, rest)
  | rest => (false, rest)

/-- The digits of a decimal integer, which has no leading zero. -/
def decimalDigits? (literal : List Char) : Option (List Char) := do
  let digits ← grouped? literal
  if digits.any (!·.isDigit) || (digits.length > 1 && digits.head? == some '0') then none
  else return digits

/-- The integer of a literal. -/
def integerOf? (literal : List Char) : Option RawJson := do
  let inBase (base : Nat) (digits : List Char) : Option RawJson := do
    fitting? (← naturalIn? base (← grouped? digits))
  match literal with
  | '0' :: 'x' :: digits => inBase 16 digits
  | '0' :: 'o' :: digits => inBase 8 digits
  | '0' :: 'b' :: digits => inBase 2 digits
  | _ =>
    let (negative, rest) := unsigned literal
    let n : Int := Json.Reader.naturalOf (← decimalDigits? rest)
    fitting? (if negative then -n else n)

/-- The digits of an exponent or a fraction, which may start with zeros. -/
def anyDigits? (literal : List Char) : Option (List Char) :=
  (grouped? literal).filter (·.all Char.isDigit)

/-- The exponent of what follows its mark. -/
def exponentOf? (literal : List Char) : Option Int :=
  let (negative, rest) := unsigned literal
  (anyDigits? rest).map fun digits =>
    let n : Int := Json.Reader.naturalOf digits
    if negative then -n else n

/-- Whether a character starts an exponent. -/
def isExponentMark (c : Char) : Bool :=
  c == 'e' || c == 'E'

/-- Checks the literal of a double; one beyond the largest double is refused. -/
def doubleOf? (literal : List Char) : Option RawJson := do
  let (negative, rest) := unsigned literal
  if rest = "inf".toList || rest = "nan".toList then return .unusable
  let mantissa := rest.takeWhile (!isExponentMark ·)
  let whole ← decimalDigits? (mantissa.takeWhile (· != '.'))
  let fraction ← match mantissa.dropWhile (· != '.') with
    | [] => some []
    | _ :: digits => anyDigits? digits
  let exponent ← match rest.dropWhile (!isExponentMark ·) with
    | [] => some 0
    | _ :: scale => exponentOf? scale
  if negative || (Json.Reader.doubleOf false whole fraction exponent).isSome then return .unusable
  else none

/-- Whether a character may stand in a literal without quotes. -/
def isLiteralChar (c : Char) : Bool :=
  c.isAlphanum || c == '_' || c == '-' || c == '+' || c == '.'

/-- The value of a literal without quotes. -/
def literalOf? (literal : List Char) : Option RawJson :=
  if literal = "true".toList then some (.bool true)
  else if literal = "false".toList then some (.bool false)
  else (integerOf? literal).or <|
    if literal.any (fun c => c == '.' || c == 'e' || c == 'E' || c == 'n') then doubleOf? literal
    else none

end DocumentQuery.Toml
