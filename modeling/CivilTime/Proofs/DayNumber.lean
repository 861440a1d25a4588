import CivilTime.Date

/-!
# Day numbers

Real dates and integers are in bijection: every integer is the number of one real
date, and later dates have greater numbers. Adding days to a date of the supported
range is therefore plain addition of day numbers, with the two ends of the range
as its only limits.
-/

namespace CivilTime

namespace Calendar

theorem commonDaysIn_bounds (month : Int) : 0 ≤ commonDaysIn month ∧ commonDaysIn month ≤ 31 := by
  rw [commonDaysIn]
  split
  · decide
  · split
    · decide
    · split <;> decide

theorem daysInMonth_bounds (year month : Int) :
    0 ≤ daysInMonth year month ∧ daysInMonth year month ≤ 31 := by
  have hcommon := commonDaysIn_bounds (monthFromStart month)
  rw [daysInMonth]
  split
  case isTrue hleap =>
    have hfeb : commonDaysIn (monthFromStart 2) = 28 := by decide
    rw [hleap.1] at hcommon ⊢
    omega
  case isFalse => omega

/-- A year has ended when any later one begins. -/
theorem daysBeforeYear_add_le {y z : Int} (h : y < z) :
    daysBeforeYear y + daysInYear y ≤ daysBeforeYear z := by
  rw [← daysBeforeYear_succ]
  simp only [daysBeforeYear]
  omega

/-- A year has a 366th day if it is the fourth of its group of four and this group
does not end one of the first three centuries of the cycle. -/
theorem le_daysInYear_of_cycle {cycle century four one k : Int}
    (hf : 0 ≤ four ∧ four ≤ 24) (ho : 0 ≤ one ∧ one ≤ 3) (hk : k ≤ 366)
    (hlast : k = 366 → one = 3 ∧ (four ≠ 24 ∨ century = 3)) :
    k ≤ daysInYear (400 * cycle + 100 * century + 4 * four + one + 1) := by
  rw [daysInYear]
  split
  case isTrue => exact hk
  case isFalse hcommon =>
    simp only [IsLeap] at hcommon
    omega

/-- A month has ended when any later one of its year begins. -/
theorem daysBeforeMonth_add_le (year : Int) {m n : Int} (hm : 1 ≤ m) (hlt : m < n) (hn : n ≤ 12) :
    daysBeforeMonth year m + daysInMonth year m ≤ daysBeforeMonth year n := by
  obtain ⟨k, rfl⟩ : ∃ k : Nat, n = m + 1 + k := ⟨(n - m - 1).toNat, by omega⟩
  clear hlt
  induction k with
  | zero =>
    have := daysBeforeMonth_succ year (show 1 ≤ m ∧ m ≤ 11 by omega)
    simpa using Int.le_of_eq this.symm
  | succ k ih =>
    have hstep := daysBeforeMonth_succ year (show 1 ≤ m + 1 + k ∧ m + 1 + k ≤ 11 by omega)
    have hpos := daysInMonth_bounds year (m + 1 + k)
    have := ih (by omega)
    rw [show m + 1 + ((k + 1 : Nat) : Int) = m + 1 + k + 1 by omega]
    omega

end Calendar

open Calendar

namespace Date

variable {a b d e : Date}

/-- The days of a real date's year are counted from 1 to the length of the year. -/
theorem IsReal.ordinal_bounds (h : d.IsReal) : 1 ≤ d.ordinal ∧ d.ordinal ≤ daysInYear d.year := by
  obtain ⟨hmonth, hday⟩ := h
  have hfirst : 0 ≤ daysBeforeMonth d.year d.month := by
    have hzero := daysBeforeMonth_one d.year
    by_cases hjan : d.month = 1
    · exact Int.le_of_eq (by rw [hjan, hzero])
    · have hle := daysBeforeMonth_add_le d.year (m := 1) (n := d.month) (by omega) (by omega)
        hmonth.2
      have := daysInMonth_bounds d.year 1
      omega
  have hlast : daysBeforeMonth d.year d.month + daysInMonth d.year d.month ≤ daysInYear d.year := by
    rw [← daysBeforeMonth_twelve]
    by_cases hdec : d.month = 12
    · exact Int.le_of_eq (by rw [hdec])
    · have := daysBeforeMonth_add_le d.year (m := d.month) (n := 12) hmonth.1 (by omega) (by omega)
      have := daysInMonth_bounds d.year 12
      omega
  simp only [ordinal]
  omega

/-- Later dates have greater numbers. -/
theorem dayNumber_lt (ha : a.IsReal) (hb : b.IsReal) (h : a < b) : a.dayNumber < b.dayNumber := by
  simp only [dayNumber]
  rcases h with hyear | ⟨hyear, hmonth | ⟨hmonth, hday⟩⟩
  · have := daysBeforeYear_add_le hyear
    have := ha.ordinal_bounds
    have := hb.ordinal_bounds
    omega
  · have := daysBeforeMonth_add_le a.year ha.1.1 hmonth hb.1.2
    have := ha.2
    have := hb.2
    rw [ordinal, ordinal, ← hyear]
    omega
  · rw [ordinal, ordinal, ← hyear, ← hmonth]
    omega

theorem lt_trichotomy (a b : Date) : a < b ∨ a = b ∨ b < a := by
  obtain ⟨y, m, d⟩ := a
  obtain ⟨y', m', d'⟩ := b
  show (y < y' ∨ y = y' ∧ (m < m' ∨ m = m' ∧ d < d')) ∨ _ ∨
    (y' < y ∨ y' = y ∧ (m' < m ∨ m' = m ∧ d' < d))
  simp only [mk.injEq]
  omega

theorem lt_iff_dayNumber_lt (ha : a.IsReal) (hb : b.IsReal) :
    a < b ↔ a.dayNumber < b.dayNumber := by
  refine ⟨dayNumber_lt ha hb, fun h => ?_⟩
  rcases lt_trichotomy a b with hlt | rfl | hgt
  · exact hlt
  · omega
  · have := dayNumber_lt hb ha hgt
    omega

/-- Two real dates with one number are the same. -/
theorem eq_of_dayNumber_eq (ha : a.IsReal) (hb : b.IsReal) (h : a.dayNumber = b.dayNumber) :
    a = b := by
  rcases lt_trichotomy a b with hlt | heq | hgt
  · have := dayNumber_lt ha hb hlt
    omega
  · exact heq
  · have := dayNumber_lt hb ha hgt
    omega

/-- Every number is that of a real date. -/
theorem isReal_ofDayNumber (n : Int) : (ofDayNumber n).IsReal := by
  rw [ofDayNumber]
  refine isReal_ofOrdinal ⟨by omega, ?_⟩
  exact le_daysInYear_of_cycle (by omega) (by omega) (by omega) (by omega)

theorem ofDayNumber_dayNumber (h : d.IsReal) : ofDayNumber d.dayNumber = d :=
  eq_of_dayNumber_eq (isReal_ofDayNumber _) h (dayNumber_ofDayNumber _)

theorem isReal_min : min.IsReal := by decide

theorem isReal_max : max.IsReal := by decide

theorem dayNumber_min : min.dayNumber = -95746129 := by decide

theorem dayNumber_max : max.dayNumber = 95745399 := by decide

theorem lt_min_iff (h : d.IsReal) : d < min ↔ d.year < minYear := by
  constructor
  · rintro (hyear | ⟨-, hmonth | ⟨hmonth, hday⟩⟩)
    · exact hyear
    · have := h.1.1
      change d.month < 1 at hmonth
      omega
    · have := h.2.1
      change d.day < 1 at hday
      omega
  · exact Or.inl

theorem max_lt_iff (h : d.IsReal) : max < d ↔ maxYear < d.year := by
  constructor
  · rintro (hyear | ⟨-, hmonth | ⟨hmonth, hday⟩⟩)
    · exact hyear
    · have := h.1.2
      change 12 < d.month at hmonth
      omega
    · have := h.2.2
      change 31 < d.day at hday
      change 12 = d.month at hmonth
      rw [← hmonth, daysInMonth_twelve] at this
      omega
  · exact Or.inl

/-- The supported range is an interval of day numbers. -/
theorem yearInRange_iff (h : d.IsReal) :
    d.YearInRange ↔ min.dayNumber ≤ d.dayNumber ∧ d.dayNumber ≤ max.dayNumber := by
  have hmin := lt_min_iff h
  have hmax := max_lt_iff h
  rw [lt_iff_dayNumber_lt h isReal_min] at hmin
  rw [lt_iff_dayNumber_lt isReal_max h] at hmax
  rw [YearInRange]
  omega

theorem InRange.dayNumber_bounds (h : d.InRange) :
    min.dayNumber ≤ d.dayNumber ∧ d.dayNumber ≤ max.dayNumber :=
  (yearInRange_iff h.2).mp h.1

theorem inRange_ofDayNumber {n : Int} (h : min.dayNumber ≤ n ∧ n ≤ max.dayNumber) :
    (ofDayNumber n).InRange := by
  have hreal := isReal_ofDayNumber n
  rw [InRange, yearInRange_iff hreal, dayNumber_ofDayNumber]
  exact ⟨h, hreal⟩

/-- The date some days later is the one with the greater number, and there is one
exactly within the supported range. -/
theorem addDays?_eq_some_iff (hd : d.InRange) {n : Int} :
    d.addDays? n = some e ↔ e.InRange ∧ e.dayNumber = d.dayNumber + n := by
  rw [addDays?]
  split
  case isTrue hzero =>
    subst hzero
    constructor
    · rintro ⟨⟩
      exact ⟨hd, by omega⟩
    · rintro ⟨he, hnum⟩
      rw [eq_of_dayNumber_eq he.2 hd.2 (by omega)]
  case isFalse =>
    split
    case isTrue hin =>
      constructor
      · rintro ⟨⟩
        exact ⟨inRange_ofDayNumber hin, dayNumber_ofDayNumber _⟩
      · rintro ⟨he, hnum⟩
        rw [← hnum, ofDayNumber_dayNumber he.2]
    case isFalse hout =>
      constructor
      · exact nofun
      · rintro ⟨he, hnum⟩
        have := he.dayNumber_bounds
        omega

theorem addDays?_eq_none_iff (hd : d.InRange) {n : Int} :
    d.addDays? n = none ↔
      ¬(min.dayNumber ≤ d.dayNumber + n ∧ d.dayNumber + n ≤ max.dayNumber) := by
  constructor
  · intro hnone hin
    have hsome : d.addDays? n = some (ofDayNumber (d.dayNumber + n)) :=
      (addDays?_eq_some_iff hd).mpr ⟨inRange_ofDayNumber hin, dayNumber_ofDayNumber _⟩
    rw [hnone] at hsome
    cases hsome
  · intro hout
    rw [Option.eq_none_iff_forall_ne_some]
    intro e hsome
    obtain ⟨he, hnum⟩ := (addDays?_eq_some_iff hd).mp hsome
    have := he.dayNumber_bounds
    omega

end Date

end CivilTime
