import Mathlib.Logic.Basic
import CivilTime.Proofs.DayNumber

/-!
# The days of the calendar in a row

After each real date comes the next day of the month, else the 1st of the next month, else
the 1st of January of the next year. Counting day numbers up goes through the real dates in
just this way, so that integers and real dates are in bijection and in one order.

The date with a given number is found here a second time, by quotients alone: the leap day
is read off the place of the year in its cycle, and the month is an estimate that is late by
one month at most.
-/

namespace CivilTime

namespace Calendar

variable {year month ordinal : Int}

theorem monthFromStart_of_pos (h : 1 ≤ month) : monthFromStart month = month :=
  if_neg (by omega)

/-- The number of leap days of a year. -/
def leapDays (year : Int) : Int := if IsLeap year then 1 else 0

theorem leapDays_bounds (year : Int) : 0 ≤ leapDays year ∧ leapDays year ≤ 1 := by
  rw [leapDays]
  split <;> omega

theorem daysInYear_eq (year : Int) : daysInYear year = 365 + leapDays year := by
  rw [daysInYear, leapDays]
  split <;> rfl

theorem daysBeforeMonth_eq (year : Int) (h : 1 ≤ month) :
    daysBeforeMonth year month =
      commonDaysBefore month + if 2 < month then leapDays year else 0 := by
  rw [daysBeforeMonth, monthFromStart_of_pos h, ite_and, leapDays]

theorem daysInMonth_eq (year : Int) (h : 1 ≤ month) :
    daysInMonth year month = commonDaysIn month + if month = 2 then leapDays year else 0 := by
  rw [daysInMonth, monthFromStart_of_pos h, ite_and, leapDays]

/-- A month and the days before it have the leap day once at most. -/
theorem daysBeforeMonth_bounds (year : Int) (h : 1 ≤ month) :
    commonDaysBefore month ≤ daysBeforeMonth year month ∧
      daysBeforeMonth year month + daysInMonth year month ≤
        commonDaysBefore month + commonDaysIn month + 1 := by
  have hleap := leapDays_bounds year
  rw [daysBeforeMonth_eq year h, daysInMonth_eq year h]
  omega

theorem common_bounds (h : 1 ≤ month ∧ month ≤ 12) :
    32 * month ≤ commonDaysBefore month + 50 ∧ 28 ≤ commonDaysIn month ∧
      commonDaysBefore month + commonDaysIn month + 50 < 32 * Min.min 13 (month + 2) := by
  have : month = 1 ∨ month = 2 ∨ month = 3 ∨ month = 4 ∨ month = 5 ∨ month = 6 ∨ month = 7 ∨
      month = 8 ∨ month = 9 ∨ month = 10 ∨ month = 11 ∨ month = 12 := by omega
  rcases this with rfl | rfl | rfl | rfl | rfl | rfl | rfl | rfl | rfl | rfl | rfl | rfl <;>
    decide

/-- Months have 32 days in an estimate, which gives the month of a day or the one after it. -/
theorem monthOfOrdinal_eq_estimate (hone : 1 ≤ ordinal) (hyear : ordinal ≤ daysInYear year) :
    monthOfOrdinal year ordinal =
      if daysBeforeMonth year ((ordinal + 49) / 32) < ordinal then (ordinal + 49) / 32
      else (ordinal + 49) / 32 - 1 := by
  have hmem := monthOfOrdinal_mem year ordinal
  have hstart := daysBeforeMonth_monthOfOrdinal_lt year hone
  have hend := le_daysBeforeMonth_monthOfOrdinal_add hyear
  have hcommon := common_bounds hmem
  have hbounds := daysBeforeMonth_bounds year hmem.1
  generalize monthOfOrdinal year ordinal = month at *
  obtain hexact | ⟨hlate, hnot⟩ :
      (ordinal + 49) / 32 = month ∨ (ordinal + 49) / 32 = month + 1 ∧ month ≤ 11 := by omega
  · rw [hexact, if_pos hstart]
  · have hnext := daysBeforeMonth_succ year ⟨hmem.1, hnot⟩
    rw [hlate, if_neg (by omega), Int.add_sub_cancel]

theorem one_le_daysInMonth (year : Int) (h : 1 ≤ month ∧ month ≤ 12) :
    1 ≤ daysInMonth year month := by
  have hcommon := common_bounds h
  have hleap := leapDays_bounds year
  rw [daysInMonth_eq year h.1]
  omega

/-- The fourth year of a group of four is a leap year, unless the group ends one of the first
three centuries of the cycle. -/
theorem isLeap_of_cycle (cycle : Int) {century four one : Int} (hc : 0 ≤ century ∧ century ≤ 3)
    (hf : 0 ≤ four ∧ four ≤ 24) (ho : 0 ≤ one ∧ one ≤ 3) :
    IsLeap (400 * cycle + 100 * century + 4 * four + one + 1) ↔
      one = 3 ∧ (four ≠ 24 ∨ century = 3) := by
  rw [IsLeap]
  omega

end Calendar

open Calendar

namespace Date

variable {d : Date}

/-! ## The day after -/

/-- The next day of the calendar. -/
def next (d : Date) : Date :=
  if d.day < daysInMonth d.year d.month then ⟨d.year, d.month, d.day + 1⟩
  else if d.month < 12 then ⟨d.year, d.month + 1, 1⟩
  else ⟨d.year + 1, 1, 1⟩

theorem isReal_mk {year month day : Int} :
    IsReal ⟨year, month, day⟩ ↔
      (1 ≤ month ∧ month ≤ 12) ∧ 1 ≤ day ∧ day ≤ daysInMonth year month :=
  Iff.rfl

theorem isReal_first (year : Int) {month : Int} (h : 1 ≤ month ∧ month ≤ 12) :
    IsReal ⟨year, month, 1⟩ :=
  isReal_mk.mpr ⟨h, Int.le_refl 1, one_le_daysInMonth year h⟩

theorem isReal_last (year : Int) : IsReal ⟨year, 12, 31⟩ :=
  isReal_mk.mpr ⟨by decide, by decide, Int.le_of_eq (daysInMonth_twelve year).symm⟩

theorem ordinal_last (year : Int) : (mk year 12 31).ordinal = daysInYear year := by
  rw [← daysBeforeMonth_twelve, daysInMonth_twelve]
  rfl

theorem isReal_next (h : d.IsReal) : d.next.IsReal := by
  obtain ⟨hmonth, hday⟩ := h
  rw [next]
  split
  case isTrue hinside => exact isReal_mk.mpr ⟨hmonth, by omega, by omega⟩
  case isFalse =>
    split
    case isTrue hnotlast => exact isReal_first _ (by omega)
    case isFalse => exact isReal_first _ (by decide)

theorem dayNumber_next (h : d.IsReal) : d.next.dayNumber = d.dayNumber + 1 := by
  obtain ⟨hmonth, hday⟩ := h
  rw [next]
  split
  case isTrue hinside =>
    simp only [dayNumber, ordinal]
    omega
  case isFalse hend =>
    have hlast : d.day = daysInMonth d.year d.month := by omega
    split
    case isTrue hnotlast =>
      have := daysBeforeMonth_succ d.year (show 1 ≤ d.month ∧ d.month ≤ 11 by omega)
      simp only [dayNumber, ordinal]
      omega
    case isFalse hdec =>
      have hdecember : d.month = 12 := by omega
      have hmonths := daysBeforeMonth_twelve d.year
      have hyears := daysBeforeYear_succ d.year
      have hfirst := daysBeforeMonth_one (d.year + 1)
      rw [hdecember] at hlast
      simp only [dayNumber, ordinal, hdecember]
      omega

theorem ofDayNumber_succ (n : Int) : ofDayNumber (n + 1) = (ofDayNumber n).next := by
  have hreal := isReal_ofDayNumber n
  refine eq_of_dayNumber_eq (isReal_ofDayNumber _) (isReal_next hreal) ?_
  rw [dayNumber_next hreal, dayNumber_ofDayNumber, dayNumber_ofDayNumber]

/-! ## The date by quotients -/

/-- The day `day` of a year, from zero, with the given number of leap days in the year. The
month is an estimate, and the one before it if the estimate only starts after the day. -/
def ofEstimate (year day leap : Int) : Date :=
  let month := (day + 50) / 32
  let before := commonDaysBefore month + if 2 < month then leap else 0
  if day < before then
    let earlier := before - (commonDaysIn (month - 1) + if month - 1 = 2 then leap else 0)
    ⟨year, month - 1, day - earlier + 1⟩
  else ⟨year, month, day - before + 1⟩

/-- The date with a given number, by quotients. A fifth year in a group of four or a fifth
century in a cycle is the last day of the year before. -/
def ofQuotients (n : Int) : Date :=
  let inCycle := (n - 1) % 146097
  let century := inCycle / 36524
  let inCentury := inCycle % 36524
  let four := inCentury / 1461
  let inFour := inCentury % 1461
  let one := inFour / 365
  let year := 400 * ((n - 1) / 146097) + 100 * century + 4 * four + one + 1
  if one = 4 ∨ century = 4 then ⟨year - 1, 12, 31⟩
  else ofEstimate year (inFour % 365) (if one = 3 ∧ (four ≠ 24 ∨ century = 3) then 1 else 0)

theorem ofEstimate_eq {year day : Int} (hday : 0 ≤ day ∧ day < daysInYear year) :
    ofEstimate year day (leapDays year) = ofOrdinal year (day + 1) := by
  have hestimate := monthOfOrdinal_eq_estimate (show 1 ≤ day + 1 by omega)
    (show day + 1 ≤ daysInYear year by omega)
  have hyear := daysInYear_eq year
  have hleap := leapDays_bounds year
  have hmem := monthOfOrdinal_mem year (day + 1)
  rw [show day + 1 + 49 = day + 50 by omega] at hestimate
  have hbefore := daysBeforeMonth_eq year (show 1 ≤ (day + 50) / 32 by omega)
  simp only [ofEstimate, ← hbefore]
  split
  case isTrue hlate =>
    rw [if_neg (by omega)] at hestimate
    rw [hestimate] at hmem
    have hlength := daysInMonth_eq year hmem.1
    have hstep := daysBeforeMonth_succ year (show 1 ≤ (day + 50) / 32 - 1 ∧ _ by omega)
    rw [Int.sub_add_cancel] at hstep
    rw [← hlength]
    simp only [ofOrdinal, hestimate, mk.injEq, true_and]
    omega
  case isFalse hexact =>
    rw [if_pos (by omega)] at hestimate
    simp only [ofOrdinal, hestimate, mk.injEq, true_and]
    omega

/-- A day by its place in the cycle of 400 years. -/
theorem ofDayNumber_of_cycle (cycle : Int) {century four one day : Int}
    (hc : 0 ≤ century ∧ century ≤ 3) (hf : 0 ≤ four ∧ four ≤ 24) (ho : 0 ≤ one ∧ one ≤ 3)
    (hday : 0 ≤ day ∧ day < daysInYear (400 * cycle + 100 * century + 4 * four + one + 1)) :
    ofDayNumber (146097 * cycle + 36524 * century + 1461 * four + 365 * one + day + 1) =
      ofOrdinal (400 * cycle + 100 * century + 4 * four + one + 1) (day + 1) := by
  refine eq_of_dayNumber_eq (isReal_ofDayNumber _) (isReal_ofOrdinal (by omega)) ?_
  rw [dayNumber_ofDayNumber, dayNumber, ordinal_ofOrdinal]
  simp only [ofOrdinal]
  rw [daysBeforeYear_of_cycle _ _ _ _ hc hf ho]
  omega

theorem ofOrdinal_last {year : Int} (h : IsLeap year) : ofOrdinal year 366 = ⟨year, 12, 31⟩ := by
  have hyear : daysInYear year = 366 := if_pos h
  refine eq_of_dayNumber_eq (isReal_ofOrdinal (by omega)) (isReal_last year) ?_
  rw [dayNumber, dayNumber, ordinal_ofOrdinal, ordinal_last, hyear]
  rfl

/-- The last day of a leap year by its place in the cycle of 400 years. -/
theorem ofDayNumber_of_cycle_last (cycle : Int) {century four : Int}
    (hc : 0 ≤ century ∧ century ≤ 3) (hf : 0 ≤ four ∧ four ≤ 24) (hlast : four ≠ 24 ∨ century = 3) :
    ofDayNumber (146097 * cycle + 36524 * century + 1461 * four + 1461) =
      ⟨400 * cycle + 100 * century + 4 * four + 4, 12, 31⟩ := by
  have hleap : IsLeap (400 * cycle + 100 * century + 4 * four + 3 + 1) :=
    (isLeap_of_cycle cycle hc hf (by decide)).mpr ⟨rfl, hlast⟩
  have hyear : daysInYear (400 * cycle + 100 * century + 4 * four + 3 + 1) = 366 := if_pos hleap
  have hday := ofDayNumber_of_cycle cycle hc hf (show 0 ≤ 3 ∧ 3 ≤ 3 by decide)
    (show 0 ≤ 365 ∧ 365 < daysInYear _ by rw [hyear]; decide)
  rw [show (365 : Int) + 1 = 366 from rfl, ofOrdinal_last hleap] at hday
  rw [show 146097 * cycle + 36524 * century + 1461 * four + 1461 =
    146097 * cycle + 36524 * century + 1461 * four + 365 * 3 + 365 + 1 by omega, hday]
  simp only [mk.injEq, and_true]
  omega

/-- Quotients lead to the date with the number. -/
theorem ofQuotients_eq (n : Int) : ofQuotients n = ofDayNumber n := by
  simp only [ofQuotients]
  generalize hcycle : (n - 1) / 146097 = cycle
  generalize hinCycle : (n - 1) % 146097 = inCycle
  generalize hcentury : inCycle / 36524 = century
  generalize hinCentury : inCycle % 36524 = inCentury
  generalize hfour : inCentury / 1461 = four
  generalize hinFour : inCentury % 1461 = inFour
  generalize hone : inFour / 365 = one
  split
  case isTrue hlast =>
    obtain rfl | rfl := hlast
    -- A fifth year in a group of four can only be the last day of the fourth.
    case inl =>
      have hday := ofDayNumber_of_cycle_last cycle (show 0 ≤ century ∧ century ≤ 3 by omega)
        (show 0 ≤ four ∧ four ≤ 24 by omega) (by omega)
      rw [show n = 146097 * cycle + 36524 * century + 1461 * four + 1461 by omega, hday]
      simp only [mk.injEq, and_true]
      omega
    -- So is a fifth century, in the last group of the fourth.
    case inr =>
      have hday := ofDayNumber_of_cycle_last cycle (show 0 ≤ 3 ∧ 3 ≤ 3 by decide)
        (show 0 ≤ 24 ∧ 24 ≤ 24 by decide) (.inr rfl)
      rw [show n = 146097 * cycle + 36524 * 3 + 1461 * 24 + 1461 by omega, hday]
      simp only [mk.injEq, and_true]
      omega
  case isFalse hinside =>
    have hleap := isLeap_of_cycle cycle (show 0 ≤ century ∧ century ≤ 3 by omega)
      (show 0 ≤ four ∧ four ≤ 24 by omega) (show 0 ≤ one ∧ one ≤ 3 by omega)
    have hdays : 0 ≤ inFour % 365 ∧
        inFour % 365 < daysInYear (400 * cycle + 100 * century + 4 * four + one + 1) := by
      have := daysInYear_eq (400 * cycle + 100 * century + 4 * four + one + 1)
      have := leapDays_bounds (400 * cycle + 100 * century + 4 * four + one + 1)
      omega
    simp only [← hleap]
    rw [← leapDays, ofEstimate_eq hdays, ← ofDayNumber_of_cycle cycle (by omega) (by omega)
      (by omega) hdays]
    exact congrArg ofDayNumber (by omega)

/-- Integers and real dates are in bijection, in the order of the calendar, and the next
integer is the number of the next day. -/
theorem dayNumber_bijective :
    (∀ n, (ofDayNumber n).IsReal ∧ (ofDayNumber n).dayNumber = n) ∧
    (∀ d : Date, d.IsReal → ofDayNumber d.dayNumber = d) ∧
    (∀ a b : Date, a.IsReal → b.IsReal → (a < b ↔ a.dayNumber < b.dayNumber)) ∧
    (∀ n, ofDayNumber (n + 1) = (ofDayNumber n).next) ∧
    ∀ n, ofQuotients n = ofDayNumber n := by
  refine ⟨fun n => ⟨isReal_ofDayNumber n, dayNumber_ofDayNumber n⟩, ?_, ?_, ofDayNumber_succ,
    ofQuotients_eq⟩
  · intro d hd
    exact ofDayNumber_dayNumber hd
  · intro a b ha hb
    exact lt_iff_dayNumber_lt ha hb

/-- The leap day of the year -400, and the day before it. -/
theorem dayNumber_bijective_leap_day :
    (⟨-400, 2, 28⟩ : Date).dayNumber < (⟨-400, 2, 29⟩ : Date).dayNumber ∧
      ofDayNumber ((⟨-400, 2, 28⟩ : Date).dayNumber + 1) = ⟨-400, 2, 29⟩ := by
  obtain ⟨-, hback, horder, hnext, -⟩ := dayNumber_bijective
  refine ⟨(horder ⟨-400, 2, 28⟩ ⟨-400, 2, 29⟩ (by decide) (by decide)).mp (by decide), ?_⟩
  rw [hnext, hback _ (by decide)]
  decide

end Date

end CivilTime
