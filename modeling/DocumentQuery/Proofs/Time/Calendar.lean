import DocumentQuery.Time.Calendar
import Mathlib.Data.List.Basic

/-!
# Dates of days

A day lies in the year that is found for it, so its number within the year is smaller than the number of
days of the year, and splitting it by the lengths of the months ends inside a month. The date of a day is
therefore a date of the calendar (`Date.isValid_ofDay`), and it is the date of no other day
(`Date.toDay_ofDay`).

Days are counted from a fixed one and may be negative; years are those of the Gregorian calendar carried on in
both directions. Nothing here is about times of day or about texts.
-/

namespace DocumentQuery.Calendar

/-- A year has 365 days, and 366 if it is a leap year. -/
theorem totalDays_monthLengths (leap : Bool) :
    totalDays (monthLengths leap) = if leap then 366 else 365 := by
  cases leap <;> rfl

/-- A day within the months of given lengths is split into one of the months and a day of this month. -/
theorem splitDay_eq {lengths : List Nat} {day : Nat} (month : Nat) (h : day < totalDays lengths) :
    ∃ k length, lengths[k]? = some length ∧ ∃ d < length,
      splitDay month lengths day = (month + k, d + 1) ∧ totalDays (lengths.take k) + d = day := by
  induction lengths generalizing month day with
  | nil => exact absurd h (Nat.not_lt_zero _)
  | cons first lengths ih =>
    rw [totalDays] at h
    rw [splitDay]
    by_cases hday : day < first
    · exact ⟨0, first, rfl, day, hday, if_pos hday, Nat.zero_add _⟩
    · have hrest : day - first < totalDays lengths := by omega
      obtain ⟨k, length, hk, d, hd, hsplit, htotal⟩ := ih (month + 1) hrest
      refine ⟨k + 1, length, hk, d, hd, ?_, ?_⟩
      · rw [if_neg hday, hsplit, Nat.add_right_comm, Nat.add_assoc]
      · rw [List.take_succ_cons, totalDays]
        omega

/-- The number of a day within its year. -/
def dayOfYear (day : Int) : Nat :=
  (day - daysBeforeYear (yearOfDay day)).toNat

/-- A day is the first one of its year and as many days more as its number says. -/
theorem daysBeforeYear_add_dayOfYear (day : Int) :
    daysBeforeYear (yearOfDay day) + dayOfYear day = day := by
  have := daysBeforeYear_yearOfDay_le day
  simp only [dayOfYear]
  omega

/-- The number of a day within its year is less than the number of days of the year. -/
theorem dayOfYear_lt (day : Int) :
    dayOfYear day < totalDays (monthLengths (isLeap (yearOfDay day))) := by
  have hlow := daysBeforeYear_add_dayOfYear day
  have hhigh := lt_daysBeforeYear_yearOfDay_succ day
  rw [daysBeforeYear_succ] at hhigh
  rw [totalDays_monthLengths]
  split at hhigh <;> simp_all only [if_true, if_false, Bool.false_eq_true] <;> omega

/-- The date of a day names a day of one of the months of its year. -/
theorem Date.ofDay_eq (day : Int) :
    ∃ k length, (monthLengths (isLeap (yearOfDay day)))[k]? = some length ∧ ∃ d < length,
      Date.ofDay day = ⟨yearOfDay day, k + 1, d + 1⟩ ∧
      totalDays ((monthLengths (isLeap (yearOfDay day))).take k) + d = dayOfYear day := by
  obtain ⟨k, length, hk, d, hd, hsplit, htotal⟩ := splitDay_eq 1 (dayOfYear_lt day)
  refine ⟨k, length, hk, d, hd, ?_, htotal⟩
  rw [dayOfYear] at hsplit
  simp only [Date.ofDay, hsplit, Nat.add_comm]

/-- The date of a day exists. -/
theorem Date.isValid_ofDay (day : Int) : (Date.ofDay day).isValid = true := by
  obtain ⟨k, length, hk, d, hd, hdate, -⟩ := Date.ofDay_eq day
  rw [hdate]
  simp only [Date.isValid, Nat.add_sub_cancel, hk, decide_eq_true_eq]
  omega

/-- The day of the date of a day is that day. -/
theorem Date.toDay_ofDay (day : Int) : (Date.ofDay day).toDay = day := by
  obtain ⟨k, length, -, d, -, hdate, htotal⟩ := Date.ofDay_eq day
  rw [hdate]
  simp only [Date.toDay, Nat.add_sub_cancel]
  have := daysBeforeYear_add_dayOfYear day
  omega

/-- There are twelve months of 31 days at most. -/
theorem monthLengths_get_le {leap : Bool} {k length : Nat}
    (h : (monthLengths leap)[k]? = some length) : k < 12 ∧ length ≤ 31 := by
  obtain ⟨hk, rfl⟩ := List.getElem?_eq_some_iff.mp h
  have hall : ∀ l ∈ monthLengths leap, l ≤ 31 := by cases leap <;> decide
  exact ⟨hk, hall _ (List.getElem_mem hk)⟩

/-- The month and the day of the month of a date that exists are written with two digits. -/
theorem Date.lt_of_isValid {date : Date} (h : date.isValid = true) : date.month < 100 ∧ date.day < 100 := by
  unfold Date.isValid at h
  split at h
  next length hlength =>
    obtain ⟨hmonth, hlength⟩ := monthLengths_get_le hlength
    rw [decide_eq_true_eq] at h
    omega
  · cases h

end DocumentQuery.Calendar
