import DocumentQuery.Time.Calendar

/-!
# Instants

A point in time is a count of seconds since the start of 1970 in UTC and a number of nanoseconds into
that second. A leap second has no number of its own: it is kept as the second before it with a
billion or more nanoseconds, so it stays different from the second that follows.

Instants lie between the years −262143 and 262142.

## Text

An instant is written as date and time in UTC with `Z`, and with none, three, six or nine digits of
the second's fraction, the fewest that are exact. A year outside 0 to 9999 carries a sign.

Reading accepts the same form with any offset from UTC, `T`, `t` or a blank between date and time and
any number of fraction digits; the first nine count. The first offence from the left decides what is
reported, except that the hours of an offset are only held against a day when the text has ended.
-/

namespace DocumentQuery

open Calendar

/-- A point in time, as seconds since the start of 1970 and nanoseconds into the second. Not every pair is one
that can be made: the constructors from counts check the range. -/
structure Instant where
  seconds : Int
  nanos : Nat
deriving DecidableEq, Inhabited

namespace Instant

/-- Seconds of a day. -/
def daySeconds : Int := 86400

/-- Nanoseconds of a second. -/
def secondNanos : Nat := 1000000000

/-- The first second that can be represented. -/
def firstSecond : Int := (daysBeforeYear (-262143) - epochDay) * daySeconds

/-- The second after the last one that can be represented. -/
def endSecond : Int := (daysBeforeYear 262143 - epochDay) * daySeconds

/-- The number of nanoseconds a second may hold; the last second of a minute may be followed by a leap
second. -/
def nanosWithin (seconds : Int) : Nat :=
  if seconds % 60 = 59 then 2 * secondNanos else secondNanos

/-- An instant from seconds and nanoseconds, if it can be represented. -/
def ofSeconds? (seconds : Int) (nanos : Nat) : Option Instant :=
  if firstSecond ≤ seconds ∧ seconds < endSecond ∧ nanos < nanosWithin seconds then
    some ⟨seconds, nanos⟩
  else none

/-- An instant from milliseconds since the start of 1970, if it can be represented. -/
def ofMillis? (millis : Int) : Option Instant :=
  ofSeconds? (millis / 1000) ((millis % 1000).toNat * 1000000)

/-- Whole milliseconds since the start of 1970. -/
def toMillis (t : Instant) : Int :=
  t.seconds * 1000 + (t.nanos / 1000000 : Nat)

/-! ## Writing -/

/-- A number with at least `width` digits. -/
def padded (width n : Nat) : String :=
  let digits := n.repr
  String.ofList (List.replicate (width - digits.length) '0') ++ digits

/-- A year, with a sign outside 0 to 9999. -/
def yearText (year : Int) : String :=
  if 0 ≤ year ∧ year ≤ 9999 then padded 4 year.toNat
  else (if year < 0 then "-" else "+") ++ padded 4 year.natAbs

/-- The fraction of a second with the fewest of none, three, six or nine digits. -/
def fractionText (nanos : Nat) : String :=
  if nanos = 0 then ""
  else if nanos % 1000000 = 0 then "." ++ padded 3 (nanos / 1000000)
  else if nanos % 1000 = 0 then "." ++ padded 6 (nanos / 1000)
  else "." ++ padded 9 nanos

/-- The text of an instant. -/
def text (t : Instant) : String :=
  let date := Date.ofDay (t.seconds / daySeconds + epochDay)
  let time := (t.seconds % daySeconds).toNat
  let second := time % 60 + (if t.nanos < secondNanos then 0 else 1)
  yearText date.year ++ "-" ++ padded 2 date.month ++ "-" ++ padded 2 date.day
    ++ "T" ++ padded 2 (time / 3600) ++ ":" ++ padded 2 (time / 60 % 60) ++ ":" ++ padded 2 second
    ++ fractionText (t.nanos % secondNanos) ++ "Z"

/-! ## Reading -/

/-- Why a text is not a point in time. -/
inductive Fault where
  | premature
  | invalid
  | outOfRange
  | trailing
deriving DecidableEq

/-- The wording of a fault. -/
def Fault.message : Fault → String
  | premature => "premature end of input"
  | invalid => "input contains invalid characters"
  | outOfRange => "input is out of range"
  | trailing => "trailing input"

/-- Reads a number of exactly `count` digits. -/
def readDigits (count : Nat) (chars : List Char) : Except Fault (Nat × List Char) :=
  let digits := chars.take count
  if digits.any (!·.isDigit) then .error .invalid
  else if digits.length < count then .error .premature
  else .ok (digits.foldl (fun n c => n * 10 + (c.toNat - '0'.toNat)) 0, chars.drop count)

/-- Reads one character out of those allowed. -/
def readOne (allowed : List Char) : List Char → Except Fault (List Char)
  | [] => .error .premature
  | c :: rest => if allowed.contains c then .ok rest else .error .invalid

/-- Reads a date. -/
def readDate (chars : List Char) : Except Fault (Date × List Char) := do
  let (year, chars) ← readDigits 4 chars
  let chars ← readOne ['-'] chars
  let (month, chars) ← readDigits 2 chars
  let chars ← readOne ['-'] chars
  let (day, chars) ← readDigits 2 chars
  let date : Date := ⟨year, month, day⟩
  if date.isValid then return (date, chars) else throw .outOfRange

/-- Reads the fraction of a second as nanoseconds. -/
def readFraction : List Char → Except Fault (Nat × List Char)
  | '.' :: rest =>
    let digits := rest.takeWhile Char.isDigit
    if digits.isEmpty then .error (if rest.isEmpty then .premature else .invalid)
    else
      let kept := digits.take 9
      let n := kept.foldl (fun n c => n * 10 + (c.toNat - '0'.toNat)) 0
      .ok (n * Nat.pow 10 (9 - kept.length), rest.dropWhile Char.isDigit)
  | rest => .ok (0, rest)

/-- Reads a time of day as seconds since midnight and nanoseconds, a leap second included. -/
def readTime (chars : List Char) : Except Fault ((Nat × Nat) × List Char) := do
  let (hour, chars) ← readDigits 2 chars
  let chars ← readOne [':'] chars
  let (minute, chars) ← readDigits 2 chars
  let chars ← readOne [':'] chars
  let (second, chars) ← readDigits 2 chars
  let (nanos, chars) ← readFraction chars
  if 24 ≤ hour ∨ 60 ≤ minute ∨ 60 < second then throw .outOfRange
  let start := hour * 3600 + minute * 60
  if second = 60 then return ((start + 59, secondNanos + nanos), chars)
  else return ((start + second, nanos), chars)

/-- Reads two digits of an offset; they are missed before they are looked at. -/
def readPair (chars : List Char) : Except Fault (Nat × List Char) :=
  if (String.ofList (chars.take 2)).utf8ByteSize < 2 then .error .premature else readDigits 2 chars

/-- Reads hours and minutes of an offset as seconds; any number of hours will do. -/
def readOffset (chars : List Char) : Except Fault (Nat × List Char) := do
  let (hours, chars) ← readPair chars
  let chars ← readOne [':'] chars
  let (minutes, chars) ← readPair chars
  if 60 ≤ minutes then throw .outOfRange
  return (hours * 3600 + minutes * 60, chars)

/-- Reads the offset from UTC in seconds. -/
def readZone : List Char → Except Fault (Int × List Char)
  | [] => .error .premature
  | c :: rest =>
    if c == 'Z' || c == 'z' then .ok (0, rest)
    else if c == '+' then do
      let (offset, rest) ← readOffset rest
      return (offset, rest)
    else if c == '-' || c == '\u2212' then do
      let (offset, rest) ← readOffset rest
      return (-offset, rest)
    else .error .invalid

/-- Reads a text as a point in time, with the offset from UTC taken off. The parts are read from the left, and
the first fault decides which one is reported. -/
def ofText (text : String) : Except Fault Instant := do
  if text.utf8ByteSize < 19 then throw .premature
  let (date, chars) ← readDate text.toList
  let chars ← readOne ['T', 't', ' '] chars
  let ((second, nanos), chars) ← readTime chars
  let (offset, chars) ← readZone chars
  if !chars.isEmpty then throw .trailing
  if daySeconds ≤ offset.natAbs then throw .outOfRange
  return ⟨(date.toDay - epochDay) * daySeconds + second - offset, nanos⟩

end Instant

end DocumentQuery
