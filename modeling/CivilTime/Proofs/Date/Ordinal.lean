import CivilTime.Calculator.Operation
import CivilTime.Proofs.Date.Construction

/-!
# Days by their number in the year

The days of a year are numbered from the 1st of January on, in the order of months and days, up to
the length of the year. Each of these numbers is that of one day, which is found among the numbers
of all days too: the leap day that is read off the place of a year in its cycle is the one that the
rule for leap years gives it.
-/

namespace CivilTime

open Calendar

namespace Date

variable {d e : Date} {year k : Int}

/-! ## Numbers of days -/

theorem ordinal_first (year : Int) : (mk year 1 1).ordinal = 1 := by
  rw [ordinal, daysBeforeMonth_one]
  rfl

/-- In a year the numbers are in the order of months and days. -/
theorem ordinal_lt_iff (hd : d.IsReal) (he : e.IsReal) (hyear : e.year = d.year) :
    d.ordinal < e.ordinal ↔ d.month < e.month ∨ d.month = e.month ∧ d.day < e.day := by
  have hlt := lt_iff_dayNumber_lt hd he
  change d.year < e.year ∨ d.year = e.year ∧
    (d.month < e.month ∨ d.month = e.month ∧ d.day < e.day) ↔ _ at hlt
  rw [dayNumber, dayNumber, hyear] at hlt
  omega

/-! ## Days by their number -/

theorem ofOrdinal_eq_ofDayNumber (h : 1 ≤ k ∧ k ≤ daysInYear year) :
    ofOrdinal year k = ofDayNumber (daysBeforeYear year + k) := by
  refine eq_of_dayNumber_eq (isReal_ofOrdinal h) (isReal_ofDayNumber _) ?_
  rw [dayNumber, ordinal_ofOrdinal, dayNumber_ofDayNumber]
  rfl

theorem ofOrdinal_ordinal (h : d.IsReal) : ofOrdinal d.year d.ordinal = d := by
  rw [ofOrdinal_eq_ofDayNumber h.ordinal_bounds]
  exact ofDayNumber_dayNumber h

theorem withOrdinal_of_mem (h : 1 ≤ k ∧ k ≤ daysInYear d.year) :
    d.withOrdinal k = .ok (ofOrdinal d.year k) := by
  rw [withOrdinal, require, if_pos h]
  rfl

theorem withOrdinal_of_not_mem (h : ¬(1 ≤ k ∧ k ≤ daysInYear d.year)) :
    d.withOrdinal k = .error (.invalid .ordinal) := by
  rw [withOrdinal, require, if_neg h]
  rfl

end Date

namespace Value

variable {d : Date}

theorem eval_ordinal (h : d.IsReal) : DateOp.ordinal.eval [date d] = .ok (integer d.ordinal) := by
  rw [DateOp.eval, Date.requirePlace_of_isReal h]
  rfl

theorem eval_withOrdinal (d : Date) (k : Int) :
    DateOp.withOrdinal.eval [date d, integer k] = date <$> d.withOrdinal k := rfl

/-- The day of the year can be replaced by a number exactly if the year has so many days. This
gives the real day of the same year that has the number, and quotients give the same day from the
number among all days. Its own number leads to the day itself. In a year numbers are in the order of
months and days, from 1 to the length of the year. -/
theorem ordinals_number_days (hd : d.InRange) :
    (∀ k, if 1 ≤ k ∧ k ≤ daysInYear d.year then
        ∃ e, DateOp.withOrdinal.eval [date d, integer k] = .ok (date e) ∧
          (e.InRange ∧ e.year = d.year ∧ DateOp.ordinal.eval [date e] = .ok (integer k)) ∧
          Date.ofQuotients (daysBeforeYear d.year + k) = e
      else DateOp.withOrdinal.eval [date d, integer k] = .error (.invalid .ordinal)) ∧
    (DateOp.ordinal.eval [date d] >>= fun k => DateOp.withOrdinal.eval [date d, k]) =
      .ok (date d) ∧
    (∀ e, e.InRange → e.year = d.year → DateOp.ordinal.eval [date e] = .ok (integer e.ordinal) ∧
      (d.ordinal < e.ordinal ↔ d.month < e.month ∨ d.month = e.month ∧ d.day < e.day)) ∧
    DateOp.ordinal.eval [date ⟨d.year, 1, 1⟩] = .ok (integer 1) ∧
    DateOp.ordinal.eval [date ⟨d.year, 12, 31⟩] = .ok (integer (daysInYear d.year)) := by
  refine ⟨fun k => ?replaced, ?same, fun e he hyear => ?ordered, ?first, ?last⟩
  case replaced =>
    split
    case isTrue hk =>
      have hreal := Date.isReal_ofOrdinal hk
      refine ⟨Date.ofOrdinal d.year k, ?_, ⟨⟨hd.1, hreal⟩, rfl, ?_⟩, ?_⟩
      · rw [eval_withOrdinal, Date.withOrdinal_of_mem hk]
        rfl
      · rw [eval_ordinal hreal, Date.ordinal_ofOrdinal]
      · rw [Date.ofQuotients_eq, Date.ofOrdinal_eq_ofDayNumber hk]
    case isFalse hk =>
      rw [eval_withOrdinal, Date.withOrdinal_of_not_mem hk]
      rfl
  case same =>
    rw [eval_ordinal hd.2, ok_bind, eval_withOrdinal,
      Date.withOrdinal_of_mem hd.2.ordinal_bounds, Date.ofOrdinal_ordinal hd.2]
    rfl
  case ordered => exact ⟨eval_ordinal he.2, Date.ordinal_lt_iff hd.2 he.2 hyear⟩
  case first => rw [eval_ordinal (Date.isReal_first d.year (by decide)), Date.ordinal_first]
  case last => rw [eval_ordinal (Date.isReal_last d.year), Date.ordinal_last]

/-- A leap year that is divisible by 400, before the year zero: from the leap day to the last day,
to no day, to itself and on to the 1st of March. -/
theorem ordinals_number_days_leap_day :
    let d : Date := ⟨-400, 2, 29⟩
    ((∃ e, DateOp.withOrdinal.eval [date d, integer 366] = .ok (date e) ∧ e.year = -400 ∧
        DateOp.ordinal.eval [date e] = .ok (integer 366)) ∧
      DateOp.withOrdinal.eval [date d, integer 367] = .error (.invalid .ordinal)) ∧
    (DateOp.ordinal.eval [date d] >>= fun k => DateOp.withOrdinal.eval [date d, k]) =
      .ok (date d) ∧
    d.ordinal < (⟨-400, 3, 1⟩ : Date).ordinal ∧
    DateOp.ordinal.eval [date ⟨-400, 12, 31⟩] = .ok (integer 366) := by
  intro d
  obtain ⟨hreplaced, hsame, hordered, -, hlast⟩ := ordinals_number_days (d := d) (by decide)
  have hday := hreplaced 366
  have hnone := hreplaced 367
  rw [if_pos (by decide)] at hday
  rw [if_neg (by decide)] at hnone
  obtain ⟨e, he, ⟨-, hyear, hnumber⟩, -⟩ := hday
  have hmarch : d.ordinal < (⟨-400, 3, 1⟩ : Date).ordinal :=
    (hordered ⟨-400, 3, 1⟩ (by decide) rfl).2.mpr (by decide)
  exact ⟨⟨⟨e, he, hyear, hnumber⟩, hnone⟩, hsame, hmarch, hlast⟩

end Value

end CivilTime
