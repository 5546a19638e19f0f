import DocumentQuery.Time.Instant

/-!
# Chronologies

Points in time are read from text, written as text and counted from the start of 1970 by a library for
dates, which is not part of this one. A chronology is what is asked of such a library: a reader and a
writer for the texts of RFC 3339, and the two ways to come from a count to a point in time. Whatever
converts or shows points in time does so for any chronology, and what its laws are is said beside the
statements that need them.

Programs run with one chronology, the one whose reader and writer are those of `Instant`. It is an
instance, so it is meant wherever none is named.
-/

namespace DocumentQuery

/-- What is asked of a library for points in time. -/
class Chronology where
  /-- Reads a text in the form of RFC 3339, with any offset from UTC; a text that is refused is refused
  with a reason in words. -/
  read : String → Except String Instant
  /-- Writes a point in time in the form of RFC 3339, in UTC. -/
  write : Instant → String
  /-- The point in time that is so many seconds and nanoseconds after the start of 1970, if the library
  can represent it. -/
  ofSeconds? : Int → Nat → Option Instant
  /-- The point in time that is so many milliseconds after the start of 1970, if the library can
  represent it. -/
  ofMillis? : Int → Option Instant

/-- The chronology programs run with. -/
instance Chronology.standard : Chronology where
  read text := (Instant.ofText text).mapError Instant.Fault.message
  write := Instant.text
  ofSeconds? := Instant.ofSeconds?
  ofMillis? := Instant.ofMillis?

end DocumentQuery
