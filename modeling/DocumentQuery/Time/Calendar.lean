/-!
# The calendar

Days are numbered from the first of January of the year 0 of the proleptic Gregorian calendar, whose
years extend in both directions. A day determines its year, month and day of the month and is
determined by them.

## Main definitions

* `daysBeforeYear` — the number of the first day of a year
* `yearOfDay` — the year a day lies in
* `Date.toDay`, `Date.ofDay` — between dates and day numbers
-/

namespace DocumentQuery.Calendar

/-- Whether a year has 366 days. -/
def isLeap (year : Int) : Bool :=
  year % 4 = 0 ∧ (year % 100 ≠ 0 ∨ year % 400 = 0)

/-- The number of the first day of a year. -/
def daysBeforeYear (year : Int) : Int :=
  365 * year + (year + 3) / 4 - (year + 99) / 100 + (year + 399) / 400

/-- The year a day lies in. -/
def yearOfDay (day : Int) : Int :=
  let guess := day * 400 / 146097
  if day < daysBeforeYear guess then guess - 1
  else if daysBeforeYear (guess + 1) ≤ day then guess + 1
  else guess

/-- The lengths of the months of a year. -/
def monthLengths (leap : Bool) : List Nat :=
  [31, if leap then 29 else 28, 31, 30, 31, 30, 31, 31, 30, 31, 30, 31]

/-- The number of days in months of given lengths. -/
def totalDays : List Nat → Nat
  | [] => 0
  | length :: rest => length + totalDays rest

/-- Splits a day of the year, counted from zero, into a month and a day, both counted from one. -/
def splitDay (month : Nat) : List Nat → Nat → Nat × Nat
  | [], day => (month, day + 1)
  | length :: rest, day => if day < length then (month, day + 1) else splitDay (month + 1) rest (day - length)

/-- A date by its year, month and day of the month. -/
structure Date where
  year : Int
  month : Nat
  day : Nat
deriving DecidableEq, Inhabited

/-- Whether a month and a day exist in a year. -/
def Date.isValid (d : Date) : Bool :=
  match (monthLengths (isLeap d.year))[d.month - 1]? with
  | some length => 1 ≤ d.month ∧ 1 ≤ d.day ∧ d.day ≤ length
  | none => false

/-- The number of a date's day. -/
def Date.toDay (d : Date) : Int :=
  daysBeforeYear d.year + totalDays ((monthLengths (isLeap d.year)).take (d.month - 1)) + (d.day - 1 : Nat)

/-- The date of a day. -/
def Date.ofDay (day : Int) : Date :=
  let year := yearOfDay day
  let (month, dayOfMonth) := splitDay 1 (monthLengths (isLeap year)) (day - daysBeforeYear year).toNat
  ⟨year, month, dayOfMonth⟩

/-- The number of the first of January 1970. -/
def epochDay : Int := daysBeforeYear 1970

theorem daysBeforeYear_succ (year : Int) :
    daysBeforeYear (year + 1) = daysBeforeYear year + (if isLeap year then 366 else 365) := by
  unfold daysBeforeYear isLeap
  by_cases h4 : year % 4 = 0 <;> by_cases h100 : year % 100 = 0 <;>
    by_cases h400 : year % 400 = 0 <;> simp [h4, h100, h400] <;> omega

theorem daysBeforeYear_yearOfDay_le (day : Int) : daysBeforeYear (yearOfDay day) ≤ day := by
  unfold yearOfDay
  simp only
  split
  · unfold daysBeforeYear at *; omega
  · split
    · assumption
    · omega

theorem lt_daysBeforeYear_yearOfDay_succ (day : Int) : day < daysBeforeYear (yearOfDay day + 1) := by
  unfold yearOfDay
  simp only
  split
  · rename_i h
    have : day * 400 / 146097 - 1 + 1 = day * 400 / 146097 := by omega
    rw [this]
    exact h
  · split
    · unfold daysBeforeYear at *; omega
    · omega

end DocumentQuery.Calendar
