import DocumentQuery.Proofs.Time.Calendar
import DocumentQuery.Time.Chronology
import Mathlib.Algebra.Order.Ring.Nat

/-!
# Moments of the calendar

What a library for points in time promises is a matter of calendars and clocks: RFC 3339 writes a date, a
time of day, a fraction of a second and the zone they are meant in, and all of these together are a point in
time. A `Moment` is what such a text says. It has a text (`Moment.text`) and it is an instant
(`Moment.instant`), and neither of the two looks at how texts are read or written.

In the other direction every instant is shown by the clocks of UTC, which makes a moment of it
(`Instant.moment`). This direction has to divide: days into years, months and days, the seconds of a day into
hours and minutes, nanoseconds into no more digits than they need. Nothing is lost on the way
(`Instant.Regular.instant_moment`), and the result is a moment which the calendar has (`Instant.valid_moment`).

Leap seconds are second 60. An instant counts one as a second which is longer, so an instant may hold a second
that long only at the end of a minute (`Instant.Regular`). Instants of moments are regular whatever the zone,
since a zone is a whole number of minutes away from UTC.

`Chronology.Lawful` says in these terms what is expected of the library. Its laws are about texts and moments
and about counts and instants, never about both directions at once: that what is written is read back is no
law but follows from the two statements above.
-/

namespace DocumentQuery

open Calendar

/-- A point in time as a text gives it, by a date and a time of day in a zone. -/
structure Moment where
  date : Date
  hour : Nat
  minute : Nat
  /-- The second of the minute, where 60 is a leap second. -/
  second : Nat
  /-- How many digits the fraction of the second has. -/
  digits : Nat
  /-- The number these digits are, leading zeros left out. -/
  fraction : Nat
  /-- How many minutes the clocks of the zone are ahead of UTC. -/
  zone : Int

namespace Moment

/-- Whether a text can give a moment: the calendar has its date, in a year of four digits, the clock has its
time, its fraction is a number of nanoseconds, and its zone is less than a day away from UTC. -/
structure Valid (m : Moment) : Prop where
  date : m.date.isValid = true
  year : 0 ≤ m.date.year ∧ m.date.year ≤ 9999
  hour : m.hour < 24
  minute : m.minute < 60
  second : m.second ≤ 60
  digits : m.digits ≤ 9
  fraction : m.fraction < 10 ^ m.digits
  zone : m.zone.natAbs < 24 * 60

/-! ## Texts -/

/-- The fraction of the second, after a point. Without digits there is no point either. -/
def fractionText (m : Moment) : String :=
  if m.digits = 0 then "" else "." ++ Instant.padded m.digits m.fraction

/-- The zone, by the hours and minutes it is ahead of UTC or behind it. -/
def zoneText (m : Moment) : String :=
  if m.zone = 0 then "Z"
  else (if m.zone < 0 then "-" else "+") ++ Instant.padded 2 (m.zone.natAbs / 60) ++ ":"
    ++ Instant.padded 2 (m.zone.natAbs % 60)

/-- The text of a moment in the form of RFC 3339. -/
def text (m : Moment) : String :=
  Instant.padded 4 m.date.year.toNat ++ "-" ++ Instant.padded 2 m.date.month ++ "-"
    ++ Instant.padded 2 m.date.day ++ "T" ++ Instant.padded 2 m.hour ++ ":" ++ Instant.padded 2 m.minute ++ ":"
    ++ Instant.padded 2 m.second ++ m.fractionText ++ m.zoneText

/-! ## Instants -/

/-- The nanoseconds of the fraction. -/
def nanos (m : Moment) : Nat :=
  m.fraction * 10 ^ (9 - m.digits)

/-- The point in time of a moment. Where the clocks are ahead of UTC they show a time earlier than it is shown
in UTC, and a leap second is counted as the second before it, which it makes longer. -/
def instant (m : Moment) : Instant where
  seconds := (m.date.toDay - epochDay) * Instant.daySeconds
    + (m.hour * 3600 + m.minute * 60 + min m.second 59 : Nat) - m.zone * 60
  nanos := m.nanos + if m.second = 60 then Instant.secondNanos else 0

end Moment

namespace Instant

/-- Whether the second of an instant is no longer than seconds are: a leap second follows the last second
of a minute only. -/
def Regular (t : Instant) : Prop :=
  t.nanos < nanosWithin t.seconds

/-- The number of the day of an instant. -/
def day (t : Instant) : Int :=
  t.seconds / daySeconds + epochDay

/-- The seconds since midnight. -/
def timeOfDay (t : Instant) : Nat :=
  (t.seconds % daySeconds).toNat

/-- The year of an instant in UTC. -/
def year (t : Instant) : Int :=
  yearOfDay t.day

/-- The second a clock shows at an instant, 60 for a leap second. -/
def shownSecond (t : Instant) : Nat :=
  t.timeOfDay % 60 + (if t.nanos < secondNanos then 0 else 1)

/-- The fewest of none, three, six or nine digits that give a number of nanoseconds exactly. -/
def fractionDigits (nanos : Nat) : Nat :=
  if nanos % 10 ^ 9 = 0 then 0
  else if nanos % 10 ^ 6 = 0 then 3
  else if nanos % 10 ^ 3 = 0 then 6
  else 9

/-- What the calendar and the clocks of UTC show at an instant. -/
def moment (t : Instant) : Moment where
  date := Date.ofDay t.day
  hour := t.timeOfDay / 3600
  minute := t.timeOfDay / 60 % 60
  second := t.shownSecond
  digits := fractionDigits (t.nanos % secondNanos)
  fraction := t.nanos % secondNanos / 10 ^ (9 - fractionDigits (t.nanos % secondNanos))
  zone := 0

end Instant

/-! ## What is expected of a chronology -/

/-- What the program relies on where it asks a library for points in time. Each law is what such a library
documents of one of its four functions. -/
structure Chronology.Lawful (c : Chronology) : Prop where
  /-- The text of every moment is read as its point in time. This is the grammar of RFC 3339, and the calendar
  that gives a date its day. -/
  read_text : ∀ m : Moment, m.Valid → c.read m.text = .ok m.instant
  /-- Whatever else the reader accepts, blanks for the `T` or more digits than nine, stands for a moment the
  calendar and the clock have as well. -/
  valid_of_read : ∀ text t, c.read text = .ok t → ∃ m : Moment, m.Valid ∧ m.instant = t
  /-- A point in time in a year of four digits is written by date and time in UTC, with the fewest of none,
  three, six or nine digits that are exact. -/
  write_eq : ∀ t : Instant, t.Regular → 0 ≤ t.year ∧ t.year ≤ 9999 → c.write t = t.moment.text
  /-- Seconds between the first and the last year that can be represented are a point in time, with any number
  of nanoseconds that is less than a second. -/
  ofSeconds?_eq_some : ∀ seconds nanos, Instant.firstSecond ≤ seconds → seconds < Instant.endSecond →
    nanos < Instant.secondNanos → c.ofSeconds? seconds nanos = some ⟨seconds, nanos⟩
  /-- A second or more of nanoseconds is accepted only as the leap second at the end of a minute. -/
  regular_of_ofSeconds? : ∀ seconds nanos t, c.ofSeconds? seconds nanos = some t → t.Regular
  /-- Milliseconds between the first and the last year that can be represented are a point in time. -/
  ofMillis?_isSome : ∀ millis : Int, Instant.firstSecond * 1000 ≤ millis → millis < Instant.endSecond * 1000 →
    (c.ofMillis? millis).isSome = true
  /-- That point in time is as many nanoseconds away from the start of 1970 as the milliseconds are, and it is
  in no leap second. -/
  nanos_of_ofMillis? : ∀ millis t, c.ofMillis? millis = some t → t.nanos < Instant.secondNanos ∧
    t.seconds * Instant.secondNanos + t.nanos = millis * 1000000

/-! ## Moments as instants -/

namespace Instant

/-- An instant outside leap seconds is regular. -/
theorem regular_of_lt {t : Instant} (h : t.nanos < secondNanos) : t.Regular := by
  unfold Regular nanosWithin
  split <;> omega

end Instant

namespace Moment

variable {m : Moment}

theorem Valid.nanos_lt (h : m.Valid) : m.nanos < Instant.secondNanos := by
  have hlt := Nat.mul_lt_mul_of_pos_right h.fraction (Nat.pow_pos (Nat.succ_pos 9) : 0 < 10 ^ (9 - m.digits))
  rwa [← Nat.pow_add, Nat.add_sub_cancel' h.digits] at hlt

/-- The instant of a moment is regular: a zone shifts it by whole minutes. -/
theorem Valid.regular_instant (h : m.Valid) : m.instant.Regular := by
  have hnanos := h.nanos_lt
  by_cases hleap : m.second = 60
  · have hlast : m.instant.seconds % 60 = 59 := by
      simp only [instant, Instant.daySeconds, hleap]
      omega
    rw [Instant.Regular, Instant.nanosWithin, if_pos hlast]
    simp only [instant, if_pos hleap]
    omega
  · refine Instant.regular_of_lt ?_
    simp only [instant, if_neg hleap]
    exact hnanos

end Moment

/-! ## Instants as moments -/

namespace Instant

variable {t : Instant}

theorem timeOfDay_lt (t : Instant) : t.timeOfDay < 86400 := by
  simp only [timeOfDay, daySeconds]
  omega

theorem day_mul_add_timeOfDay (t : Instant) :
    (t.day - epochDay) * daySeconds + t.timeOfDay = t.seconds := by
  simp only [day, timeOfDay, daySeconds]
  omega

/-- A clock shows the second of a regular instant, and its leap second as second 60. -/
theorem Regular.shownSecond_eq (h : t.Regular) : min t.shownSecond 59 = t.timeOfDay % 60 ∧
    t.nanos % secondNanos + (if t.shownSecond = 60 then secondNanos else 0) = t.nanos := by
  by_cases hleap : t.nanos < secondNanos
  · have hsecond : t.shownSecond = t.timeOfDay % 60 := congrArg (t.timeOfDay % 60 + ·) (if_pos hleap)
    rw [hsecond, if_neg (by omega), Nat.mod_eq_of_lt hleap]
    omega
  · -- only the last second of a minute is longer, so what is shown is second 60
    have hlast : t.seconds % 60 = 59 := by
      by_contra hne
      rw [Regular, nanosWithin, if_neg hne] at h
      exact hleap h
    have htime : t.timeOfDay % 60 = 59 := by
      simp only [timeOfDay, daySeconds]
      omega
    have hsecond : t.shownSecond = 60 := by rw [shownSecond, htime, if_neg hleap]
    rw [Regular, nanosWithin, if_pos hlast] at h
    have hrest : t.nanos % secondNanos = t.nanos - secondNanos := by
      rw [Nat.mod_eq_sub_mod (Nat.le_of_not_lt hleap), Nat.mod_eq_of_lt (by omega)]
    rw [hsecond, htime, if_pos rfl, hrest]
    omega

theorem fractionDigits_le (nanos : Nat) : fractionDigits nanos ≤ 9 := by
  unfold fractionDigits
  split
  · decide
  · split
    · decide
    · split <;> decide

/-- The digits that are left out are zeros. -/
theorem mod_fractionDigits (nanos : Nat) : nanos % 10 ^ (9 - fractionDigits nanos) = 0 := by
  unfold fractionDigits
  split
  next hzero => exact hzero
  · split
    next hmillis => exact hmillis
    · split
      next hmicros => exact hmicros
      · exact Nat.mod_one nanos

theorem nanos_moment (t : Instant) : t.moment.nanos = t.nanos % secondNanos :=
  Nat.div_mul_cancel (Nat.dvd_of_mod_eq_zero (mod_fractionDigits _))

/-- What is shown at an instant in a year of four digits is a moment that the calendar has. -/
theorem valid_moment (hyear : 0 ≤ t.year ∧ t.year ≤ 9999) : t.moment.Valid := by
  have hnanos : t.nanos % secondNanos < 10 ^ 9 := Nat.mod_lt _ (by decide)
  have hdigits := fractionDigits_le (t.nanos % secondNanos)
  have htime := t.timeOfDay_lt
  refine ⟨Date.isValid_ofDay t.day, hyear, ?hour, ?minute, ?second, hdigits, ?fraction, ?zone⟩
  case hour => exact (Nat.div_lt_iff_lt_mul (by decide)).mpr htime
  case minute => exact Nat.mod_lt _ (by decide)
  case second =>
    show t.timeOfDay % 60 + (if t.nanos < secondNanos then 0 else 1) ≤ 60
    split <;> omega
  case fraction =>
    rw [← Nat.add_sub_cancel' hdigits, Nat.pow_add, Nat.mul_comm] at hnanos
    exact Nat.div_lt_of_lt_mul hnanos
  case zone => show 0 < 24 * 60; decide

/-- No time is lost in what is shown at an instant. -/
theorem Regular.instant_moment (h : t.Regular) : t.moment.instant = t := by
  obtain ⟨hsecond, hnanos⟩ := h.shownSecond_eq
  have hclock : t.timeOfDay / 3600 * 3600 + t.timeOfDay / 60 % 60 * 60 + t.timeOfDay % 60 = t.timeOfDay := by
    omega
  have hseconds : t.moment.instant.seconds = t.seconds := by
    show ((Date.ofDay t.day).toDay - epochDay) * daySeconds
      + (t.timeOfDay / 3600 * 3600 + t.timeOfDay / 60 % 60 * 60 + min t.shownSecond 59 : Nat) - 0 * 60 =
        t.seconds
    rw [Date.toDay_ofDay, hsecond, hclock, Int.zero_mul, Int.sub_zero, day_mul_add_timeOfDay]
  have htotal : t.moment.instant.nanos = t.nanos := by
    rw [Moment.instant, nanos_moment]
    exact hnanos
  exact congrArg₂ Instant.mk hseconds htotal

end Instant

end DocumentQuery
