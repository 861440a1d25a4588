import CivilTime.Calendar
import CivilTime.Delta
import CivilTime.Steps

/-!
# Dates

A `Date` is a day of the calendar by year, month and day of the month. Days are
numbered through from the 1st of January of year 1, which is day 1;
`Date.dayNumber` and `Date.ofDayNumber` go between the two.

Years reach from -262143 to 262142. The days right before and after that range
are dates too: they only arise as local dates of moments at its edges.
-/

namespace CivilTime

open Calendar

/-- A day of the calendar. -/
structure Date where
  year : Int
  month : Int
  day : Int
  deriving DecidableEq, Repr

namespace Date

/-- The first year of the supported range. -/
def minYear : Int := -262143

/-- The last year of the supported range. -/
def maxYear : Int := 262142

/-- The calendar has such a day, in whatever year. -/
def IsReal (d : Date) : Prop :=
  (1 ≤ d.month ∧ d.month ≤ 12) ∧ 1 ≤ d.day ∧ d.day ≤ daysInMonth d.year d.month

instance : DecidablePred IsReal := fun _ => inferInstanceAs (Decidable (_ ∧ _))

/-- The year lies in the supported range. -/
def YearInRange (d : Date) : Prop := minYear ≤ d.year ∧ d.year ≤ maxYear

instance : DecidablePred YearInRange := fun _ => inferInstanceAs (Decidable (_ ∧ _))

/-- A day of the supported range. -/
def InRange (d : Date) : Prop := d.YearInRange ∧ d.IsReal

instance : DecidablePred InRange := fun _ => inferInstanceAs (Decidable (_ ∧ _))

instance : LT Date :=
  ⟨fun a b => a.year < b.year ∨ a.year = b.year ∧
    (a.month < b.month ∨ a.month = b.month ∧ a.day < b.day)⟩

instance (a b : Date) : Decidable (a < b) :=
  inferInstanceAs (Decidable (a.year < b.year ∨ a.year = b.year ∧
    (a.month < b.month ∨ a.month = b.month ∧ a.day < b.day)))

def min : Date := ⟨minYear, 1, 1⟩

def max : Date := ⟨maxYear, 12, 31⟩

/-- The day before the supported range. -/
def beforeMin : Date := ⟨minYear - 1, 12, 31⟩

/-- The day after the supported range. -/
def afterMax : Date := ⟨maxYear + 1, 1, 1⟩

/-- A day of the supported range by year, month and day. -/
def new? (year month day : Int) : Outcome Date := do
  if ¬(minYear ≤ year ∧ year ≤ maxYear) then
    throw (.outOfRange .year)
  require (1 ≤ month ∧ month ≤ 12) .month
  require (1 ≤ day ∧ day ≤ daysInMonth year month) .day
  return ⟨year, month, day⟩

/-! ## Days of the year and day numbers -/

/-- The number of the day within its year, from 1. -/
def ordinal (d : Date) : Int := daysBeforeMonth d.year d.month + d.day

/-- The day of a year with a given number. -/
def ofOrdinal (year ordinal : Int) : Date :=
  let month := monthOfOrdinal year ordinal
  ⟨year, month, ordinal - daysBeforeMonth year month⟩

/-- The number of the day, counted from the 1st of January of year 1 as day 1. -/
def dayNumber (d : Date) : Int := daysBeforeYear d.year + d.ordinal

/-- The day with a given number. A cycle of 400 years has 146097 days. In it the
first three centuries have 36524 days each, in a century each four years have
1461, and in those the first three years have 365. What is left over, a day
more than the others have, belongs to the last century or year. -/
def ofDayNumber (n : Int) : Date :=
  let cycle := (n - 1) / 146097
  let inCycle := (n - 1) % 146097
  let century := Min.min 3 (inCycle / 36524)
  let inCentury := inCycle - century * 36524
  let inFour := inCentury % 1461
  let one := Min.min 3 (inFour / 365)
  ofOrdinal (400 * cycle + 100 * century + 4 * (inCentury / 1461) + one + 1)
    (inFour - 365 * one + 1)

@[simp] theorem ordinal_ofOrdinal (year n : Int) : (ofOrdinal year n).ordinal = n := by
  simp only [ordinal, ofOrdinal]
  omega

theorem isReal_ofOrdinal {year n : Int} (h : 1 ≤ n ∧ n ≤ daysInYear year) :
    (ofOrdinal year n).IsReal := by
  have hlo := daysBeforeMonth_monthOfOrdinal_lt year h.1
  have hhi := le_daysBeforeMonth_monthOfOrdinal_add h.2
  exact ⟨monthOfOrdinal_mem year n, by simp only [ofOrdinal]; omega,
    by simp only [ofOrdinal]; omega⟩

/-- The days before a year, by its place in the cycle of 400 years. -/
theorem daysBeforeYear_of_cycle (cycle century four one : Int) (hc : 0 ≤ century ∧ century ≤ 3)
    (hf : 0 ≤ four ∧ four ≤ 24) (ho : 0 ≤ one ∧ one ≤ 3) :
    daysBeforeYear (400 * cycle + 100 * century + 4 * four + one + 1) =
      146097 * cycle + 36524 * century + 1461 * four + 365 * one := by
  unfold daysBeforeYear
  omega

/-- A day number is that of the day that it stands for. -/
@[simp] theorem dayNumber_ofDayNumber (n : Int) : (ofDayNumber n).dayNumber = n := by
  unfold ofDayNumber
  rw [dayNumber, ordinal_ofOrdinal]
  simp only [ofOrdinal]
  rw [daysBeforeYear_of_cycle _ _ _ _ (by omega) (by omega) (by omega)]
  omega

/-! ## Moving a date -/

/-- The day `n` days later, if it is in the supported range. A date always
reaches itself. -/
def addDays? (d : Date) (n : Int) : Option Date :=
  if n = 0 then some d
  else if min.dayNumber ≤ d.dayNumber + n ∧ d.dayNumber + n ≤ max.dayNumber then
    some (ofDayNumber (d.dayNumber + n))
  else none

/-- The next day. -/
def succ? (d : Date) : Option Date := d.addDays? 1

/-- The day before. -/
def pred? (d : Date) : Option Date := d.addDays? (-1)

/-- The day as many whole days later as the delta has; the rest of the delta
does not count. -/
def addDelta? (d : Date) (x : Delta) : Option Date := d.addDays? x.wholeDays

@[inherit_doc addDelta?]
def subDelta? (d : Date) (x : Delta) : Option Date := d.addDays? (-x.wholeDays)

/-- The date `n` months later. A day that the month does not have becomes its
last day. -/
def shiftMonths (d : Date) (n : Int) : Date :=
  let months := d.month - 1 + n
  let year := d.year + months / 12
  let month := months % 12 + 1
  ⟨year, month, Min.min d.day (daysInMonth year month)⟩

/-- The date `n` months later, if it is in the supported range. -/
def shiftMonths? (d : Date) (n : Int) : Option Date :=
  if (d.shiftMonths n).YearInRange then some (d.shiftMonths n) else none

/-- The date some months later. Steps beyond the signed 32-bit range lead out of
the calendar. -/
def addMonths? (d : Date) (m : Months) : Option Date :=
  if m.count = 0 then some d
  else if m.count > maxI32 then none
  else d.shiftMonths? m.count

@[inherit_doc addMonths?]
def subMonths? (d : Date) (m : Months) : Option Date :=
  if m.count = 0 then some d
  else if m.count > maxI32 then none
  else d.shiftMonths? (-m.count)

/-- The days from `other` to `d`, as a delta. -/
def since (d other : Date) : Delta :=
  ⟨(d.dayNumber - other.dayNumber) * secondsPerDay, 0⟩

/-! ## Replacing a part -/

def withYear (d : Date) (year : Int) : Outcome Date := new? year d.month d.day

def withMonth (d : Date) (month : Int) : Outcome Date := new? d.year month d.day

def withDay (d : Date) (day : Int) : Outcome Date := new? d.year d.month day

/-- The day of the same year with another number. -/
def withOrdinal (d : Date) (ordinal : Int) : Outcome Date := do
  require (1 ≤ ordinal ∧ ordinal ≤ daysInYear d.year) .ordinal
  return ofOrdinal d.year ordinal

end Date

end CivilTime
