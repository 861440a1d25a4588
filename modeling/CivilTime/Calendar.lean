/-!
# The Gregorian calendar

Leap years and the lengths of years and months, for every integer as a year. The
calendar is proleptic: the rules of today hold in all years, year 0 comes before
year 1, and negative years before that. Divisions round toward minus infinity,
so that the formulas hold before year 1 as well.
-/

namespace CivilTime.Calendar

/-- Every fourth year is a leap year, except for centuries that are not
divisible by 400. -/
def IsLeap (year : Int) : Prop := year % 4 = 0 ∧ (year % 100 ≠ 0 ∨ year % 400 = 0)

instance : DecidablePred IsLeap := fun _ => inferInstanceAs (Decidable (_ ∧ _))

/-- The number of days of a year. -/
def daysInYear (year : Int) : Int := if IsLeap year then 366 else 365

/-- A month as a number from 1 to 12. Months can also be counted back from the end
of the year, where December is -1. -/
def monthFromStart (month : Int) : Int := if month < 0 then month + 13 else month

/-- The number of days of a month of a common year, and zero if there is no such month. -/
def commonDaysIn (month : Int) : Int :=
  if month = 2 then 28
  else if month = 4 ∨ month = 6 ∨ month = 9 ∨ month = 11 then 30
  else if 1 ≤ month ∧ month ≤ 12 then 31
  else 0

/-- The number of days of a month. Only a month that is counted from the start of
the year has the leap day. -/
def daysInMonth (year month : Int) : Int :=
  commonDaysIn (monthFromStart month) + if month = 2 ∧ IsLeap year then 1 else 0

/-- The number of days from the 1st of January of year 1 to that of `year`. -/
def daysBeforeYear (year : Int) : Int :=
  (year - 1) * 365 + (year - 1) / 4 - (year - 1) / 100 + (year - 1) / 400

/-- The number of days of a common year before the 1st of a month, and -1 if
there is no such month. -/
def commonDaysBefore (month : Int) : Int :=
  if month = 1 then 0
  else if month = 2 then 31
  else if month = 3 then 59
  else if month = 4 then 90
  else if month = 5 then 120
  else if month = 6 then 151
  else if month = 7 then 181
  else if month = 8 then 212
  else if month = 9 then 243
  else if month = 10 then 273
  else if month = 11 then 304
  else if month = 12 then 334
  else -1

/-- The number of days of a year before the 1st of a month. The leap day counts
only for a month that is counted from the start of the year. -/
def daysBeforeMonth (year month : Int) : Int :=
  commonDaysBefore (monthFromStart month) + if 2 < month ∧ IsLeap year then 1 else 0

/-- The last of the months up to `k + 1` that starts before the end of the day with
the given number within the year. -/
def lastMonthBefore (year ordinal : Int) : Nat → Int
  | 0 => 1
  | k + 1 =>
    if daysBeforeMonth year (k + 2) < ordinal then k + 2 else lastMonthBefore year ordinal k

/-- The month in which the day with the given number within the year lies. -/
def monthOfOrdinal (year ordinal : Int) : Int := lastMonthBefore year ordinal 11

/-- The year before has ended when a year begins. -/
theorem daysBeforeYear_succ (year : Int) :
    daysBeforeYear (year + 1) = daysBeforeYear year + daysInYear year := by
  by_cases h : IsLeap year <;> simp only [daysInYear, h, if_true, if_false] <;>
    unfold IsLeap at h <;> unfold daysBeforeYear <;> omega

theorem daysBeforeMonth_one (year : Int) : daysBeforeMonth year 1 = 0 := by
  simp [daysBeforeMonth, commonDaysBefore, monthFromStart]

theorem daysInMonth_twelve (year : Int) : daysInMonth year 12 = 31 := by
  simp [daysInMonth, commonDaysIn, monthFromStart]

/-- A month has ended when the next one begins. -/
theorem daysBeforeMonth_succ (year : Int) {month : Int} (h : 1 ≤ month ∧ month ≤ 11) :
    daysBeforeMonth year (month + 1) = daysBeforeMonth year month + daysInMonth year month := by
  have : month = 1 ∨ month = 2 ∨ month = 3 ∨ month = 4 ∨ month = 5 ∨ month = 6 ∨ month = 7 ∨
      month = 8 ∨ month = 9 ∨ month = 10 ∨ month = 11 := by omega
  rcases this with rfl | rfl | rfl | rfl | rfl | rfl | rfl | rfl | rfl | rfl | rfl <;>
    simp [daysBeforeMonth, commonDaysBefore, daysInMonth, commonDaysIn, monthFromStart] <;>
    split <;> rfl

/-- December ends with the year. -/
theorem daysBeforeMonth_twelve (year : Int) :
    daysBeforeMonth year 12 + daysInMonth year 12 = daysInYear year := by
  simp [daysBeforeMonth, commonDaysBefore, daysInMonth, commonDaysIn, monthFromStart, daysInYear]
  split <;> rfl

theorem lastMonthBefore_mem (year ordinal : Int) (k : Nat) :
    1 ≤ lastMonthBefore year ordinal k ∧ lastMonthBefore year ordinal k ≤ k + 1 := by
  induction k with
  | zero => simp [lastMonthBefore]
  | succ k ih => rw [lastMonthBefore]; split <;> omega

theorem monthOfOrdinal_mem (year ordinal : Int) :
    1 ≤ monthOfOrdinal year ordinal ∧ monthOfOrdinal year ordinal ≤ 12 :=
  lastMonthBefore_mem year ordinal 11

/-- The month of a day starts before the end of the day. -/
theorem daysBeforeMonth_monthOfOrdinal_lt (year : Int) {ordinal : Int} (h : 1 ≤ ordinal) :
    daysBeforeMonth year (monthOfOrdinal year ordinal) < ordinal := by
  suffices ∀ k, daysBeforeMonth year (lastMonthBefore year ordinal k) < ordinal from this 11
  intro k
  induction k with
  | zero =>
    have hfirst := daysBeforeMonth_one year
    rw [lastMonthBefore]
    omega
  | succ k ih => rw [lastMonthBefore]; split <;> assumption

theorem lastMonthBefore_eq_or_le (year ordinal : Int) (k : Nat)
    (h : k < 11 → ordinal ≤ daysBeforeMonth year (k + 2)) (hk : k ≤ 11) :
    lastMonthBefore year ordinal k = 12 ∨
      ordinal ≤ daysBeforeMonth year (lastMonthBefore year ordinal k + 1) := by
  induction k with
  | zero => exact .inr (h (by decide))
  | succ k ih =>
    rw [lastMonthBefore]
    split
    · by_cases hlast : k = 10
      · exact .inl (by omega)
      · have := h (by omega)
        rw [show ((k + 1 : Nat) : Int) + 2 = k + 2 + 1 by omega] at this
        exact .inr this
    · exact ih (fun _ => by omega) (by omega)

/-- A day of the year lies before the end of its month. -/
theorem le_daysBeforeMonth_monthOfOrdinal_add {year ordinal : Int}
    (h : ordinal ≤ daysInYear year) :
    ordinal ≤ daysBeforeMonth year (monthOfOrdinal year ordinal) +
      daysInMonth year (monthOfOrdinal year ordinal) := by
  have hmem := monthOfOrdinal_mem year ordinal
  rcases lastMonthBefore_eq_or_le year ordinal 11 (by omega) (by omega) with h12 | hle
  · rw [monthOfOrdinal, h12, daysBeforeMonth_twelve]
    exact h
  · by_cases h12 : monthOfOrdinal year ordinal = 12
    · rw [h12, daysBeforeMonth_twelve]
      exact h
    · rw [← daysBeforeMonth_succ year (by omega)]
      exact hle

end CivilTime.Calendar
