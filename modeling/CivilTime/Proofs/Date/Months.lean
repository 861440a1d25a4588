import CivilTime.Proofs.Calculator.Comparison
import CivilTime.Proofs.Date.Construction
import CivilTime.Proofs.Date.Move

/-!
# Moving dates by months

The months of all years are counted through in a row, and a date is moved along them. It keeps its
day of the month, or comes to the last day of a month that is too short for it. A day that was lost
in this way does not come back, neither on a move farther on nor on the way back. Dates keep their
order, though two of them can end up on the same last day.
-/

namespace CivilTime

open Calendar

namespace Date

variable {a b d e f g : Date} {m n : Int}

/-! ## Months in a row -/

/-- The number of the month, counted through all years. -/
def monthNumber (d : Date) : Int := d.year * 12 + d.month

/-- The year of the month with the given number. -/
def yearOfMonth (n : Int) : Int := (n - 1) / 12

/-- The month with the given number lies in a year of the supported range. -/
def MonthInRange (n : Int) : Prop := minYear ≤ yearOfMonth n ∧ yearOfMonth n ≤ maxYear

instance : DecidablePred MonthInRange := fun _ => inferInstanceAs (Decidable (_ ∧ _))

theorem yearOfMonth_monthNumber (h : d.IsReal) : yearOfMonth d.monthNumber = d.year := by
  have hmonth := h.1
  simp only [yearOfMonth, monthNumber]
  omega

theorem monthInRange_monthNumber_iff (h : d.IsReal) :
    MonthInRange d.monthNumber ↔ d.YearInRange := by
  rw [MonthInRange, yearOfMonth_monthNumber h, YearInRange]

theorem monthNumber_eq_iff (ha : a.IsReal) (hb : b.IsReal) :
    a.monthNumber = b.monthNumber ↔ a.year = b.year ∧ a.month = b.month := by
  have hmonths := And.intro ha.1 hb.1
  simp only [monthNumber]
  omega

/-- Dates are in the order of their months, and in a month in that of their days. -/
theorem lt_iff_monthNumber (ha : a.IsReal) (hb : b.IsReal) :
    a < b ↔ a.monthNumber < b.monthNumber ∨ a.monthNumber = b.monthNumber ∧ a.day < b.day := by
  have hmonths := And.intro ha.1 hb.1
  change a.year < b.year ∨ a.year = b.year ∧
    (a.month < b.month ∨ a.month = b.month ∧ a.day < b.day) ↔ _
  simp only [monthNumber]
  omega

/-! ## The date some months later -/

/-- The date `e` lies `n` months after `d`, on the same day of the month or, if the month has no
such day, on its last one. -/
structure MonthsLater (d : Date) (n : Int) (e : Date) : Prop where
  inRange : e.InRange
  month : e.monthNumber = d.monthNumber + n
  day : e.day = Min.min d.day (daysInMonth e.year e.month)

theorem monthNumber_shiftMonths (d : Date) (n : Int) :
    (d.shiftMonths n).monthNumber = d.monthNumber + n := by
  simp only [shiftMonths, monthNumber]
  omega

theorem yearInRange_shiftMonths_iff (d : Date) (n : Int) :
    (d.shiftMonths n).YearInRange ↔ MonthInRange (d.monthNumber + n) := by
  have hyear : (d.shiftMonths n).year = yearOfMonth (d.monthNumber + n) := by
    simp only [shiftMonths, monthNumber, yearOfMonth]
    omega
  rw [YearInRange, MonthInRange, hyear]

theorem monthsLater_shiftMonths (hd : d.IsReal) (h : MonthInRange (d.monthNumber + n)) :
    d.MonthsLater n (d.shiftMonths n) where
  inRange := ⟨(yearInRange_shiftMonths_iff d n).mpr h, isReal_shiftMonths hd n⟩
  month := monthNumber_shiftMonths d n
  day := rfl

namespace MonthsLater

theorem zero (hd : d.InRange) : d.MonthsLater 0 d where
  inRange := hd
  month := (Int.add_zero _).symm
  day := (Int.min_eq_left hd.2.2.2).symm

theorem monthInRange (h : d.MonthsLater n e) : MonthInRange (d.monthNumber + n) := by
  rw [← h.month, monthInRange_monthNumber_iff h.inRange.2]
  exact h.inRange.1

theorem eq (he : d.MonthsLater n e) (hf : d.MonthsLater n f) : e = f := by
  have hmonths := he.month.trans hf.month.symm
  obtain ⟨hyear, hmonth⟩ := (monthNumber_eq_iff he.inRange.2 hf.inRange.2).mp hmonths
  have hday : e.day = f.day := by rw [he.day, hf.day, hyear, hmonth]
  refine eq_of_dayNumber_eq he.inRange.2 hf.inRange.2 ?_
  rw [dayNumber, dayNumber, ordinal, ordinal, hyear, hmonth, hday]

/-- No date overtakes another one, also where the days of both are too late for the month. -/
theorem not_lt (ha : a.IsReal) (hb : b.IsReal) (he : a.MonthsLater n e) (hf : b.MonthsLater n f)
    (h : ¬b < a) : ¬f < e := by
  rw [lt_iff_monthNumber hb ha] at h
  rw [lt_iff_monthNumber hf.inRange.2 he.inRange.2, he.month, hf.month]
  rintro (hmonths | ⟨hmonths, hday⟩)
  · omega
  · -- Both are in one month now, whose last day is the limit for both.
    have hsame : f.monthNumber = e.monthNumber := by rw [he.month, hf.month, hmonths]
    obtain ⟨hyear, hmonth⟩ := (monthNumber_eq_iff hf.inRange.2 he.inRange.2).mp hsame
    rw [he.day, hf.day, hyear, hmonth] at hday
    omega

/-- Going on from a stop is going all the way, but for a day that was lost at the stop. -/
theorem trans (hd : d.IsReal) (he : d.MonthsLater m e) (hf : e.MonthsLater n f) :
    ∃ g, d.MonthsLater (m + n) g ∧ (f.year = g.year ∧ f.month = g.month) ∧
      f.day = Min.min e.day g.day := by
  have hnumber : f.monthNumber = d.monthNumber + (m + n) := by
    rw [hf.month, he.month, Int.add_assoc]
  have hmonth : MonthInRange (d.monthNumber + (m + n)) := by
    rw [← hnumber, monthInRange_monthNumber_iff hf.inRange.2]
    exact hf.inRange.1
  have hg := monthsLater_shiftMonths hd hmonth
  have hsame := (monthNumber_eq_iff hf.inRange.2 hg.inRange.2).mp (hnumber.trans hg.month.symm)
  refine ⟨_, hg, hsame, ?_⟩
  have hlast := hf.day
  rw [hsame.1, hsame.2] at hlast
  have hstop := he.day
  have hdirect := hg.day
  omega

/-- On the way from one month of the range to another there are only months of the range. -/
theorem exists_stop (hd : d.InRange) (hg : d.MonthsLater (m + n) g)
    (hsign : 0 ≤ m ∧ 0 ≤ n ∨ m ≤ 0 ∧ n ≤ 0) : ∃ e f, d.MonthsLater m e ∧ e.MonthsLater n f := by
  have hstart := (monthInRange_monthNumber_iff hd.2).mpr hd.1
  have hgoal := hg.monthInRange
  have hmiddle : MonthInRange (d.monthNumber + m) := by
    simp only [MonthInRange, yearOfMonth] at *
    omega
  have he := monthsLater_shiftMonths hd.2 hmiddle
  refine ⟨_, _, he, monthsLater_shiftMonths he.inRange.2 ?_⟩
  rwa [he.month, Int.add_assoc]

theorem day_le (h : d.MonthsLater n e) : e.day ≤ d.day := by
  rw [h.day]
  exact Int.min_le_left _ _

/-- The day of the month is kept if there is such a day. -/
theorem day_eq_iff (h : d.MonthsLater n e) :
    e.day = d.day ↔ d.day ≤ daysInMonth e.year e.month := by
  rw [h.day]
  omega

/-- The way back leads to the month of the start, and to the day that was kept. -/
theorem back (hd : d.InRange) (h : d.MonthsLater n e) :
    e.MonthsLater (-n) { d with day := e.day } := by
  have hlast : e.day ≤ daysInMonth d.year d.month := Int.le_trans h.day_le hd.2.2.2
  refine ⟨⟨hd.1, hd.2.1, h.inRange.2.2.1, hlast⟩, ?_, (Int.min_eq_left hlast).symm⟩
  have hmonth := h.month
  simp only [monthNumber] at *
  omega

end MonthsLater

theorem shiftMonths?_eq_some_iff (hd : d.IsReal) :
    d.shiftMonths? n = some e ↔ d.MonthsLater n e := by
  rw [shiftMonths?]
  split
  case isTrue hyear =>
    have hshift := monthsLater_shiftMonths hd ((yearInRange_shiftMonths_iff d n).mp hyear)
    exact ⟨fun h => Option.some.inj h ▸ hshift, fun h => congrArg some (hshift.eq h)⟩
  case isFalse hyear =>
    rw [yearInRange_shiftMonths_iff] at hyear
    exact iff_of_false (Option.some_ne_none e).symm fun h => hyear h.monthInRange

theorem shiftMonths?_eq_none_iff :
    d.shiftMonths? n = none ↔ ¬MonthInRange (d.monthNumber + n) := by
  rw [shiftMonths?, ← yearInRange_shiftMonths_iff]
  split
  case isTrue hyear => exact iff_of_false (Option.some_ne_none _) fun h => h hyear
  case isFalse hyear => exact iff_of_true rfl hyear

/-- By no months every date reaches itself, and more months than a signed word holds lead out of
the range. So the checks before a move change nothing. -/
theorem monthSteps_eq {steps : Months} (hd : d.InRange)
    (hn : n = steps.count ∨ n = -steps.count) :
    (if steps.count = 0 then some d
      else if steps.count > maxI32 then none else d.shiftMonths? n) = d.shiftMonths? n := by
  split
  case isTrue hzero =>
    obtain rfl : n = 0 := by omega
    exact ((shiftMonths?_eq_some_iff hd.2).mpr (.zero hd)).symm
  case isFalse =>
    split
    case isTrue hbeyond =>
      refine (shiftMonths?_eq_none_iff.mpr ?_).symm
      have hstart := (monthInRange_monthNumber_iff hd.2).mpr hd.1
      simp only [MonthInRange, yearOfMonth, minYear, maxYear, maxI32] at *
      omega
    case isFalse => rfl

/-! ## Moves -/

/-- The ways to move a date by months. -/
inductive MonthMove where
  | add (steps : Months)
  | sub (steps : Months)

namespace MonthMove

open Value (date months ofOption exceeds)

/-- The number of months that a move adds. -/
def count : MonthMove → Int
  | add steps => steps.count
  | sub steps => -steps.count

/-- The move in the other direction. -/
def reverse : MonthMove → MonthMove
  | add steps => sub steps
  | sub steps => add steps

/-- The operation of the calculator for a move. It gives a date or nothing. -/
def call : MonthMove → Date → Outcome Value
  | add steps, d => DateOp.addMonths.eval [date d, months steps]
  | sub steps, d => DateOp.subMonths.eval [date d, months steps]

/-- The operator for a move. It gives a date or fails. -/
def operate : MonthMove → Date → Outcome Value
  | add steps, d => Value.add (date d) (months steps)
  | sub steps, d => Value.sub (date d) (months steps)

/-- The limit that an operator exceeds where it fails. -/
def limit : MonthMove → Limit
  | add _ => exceeds .add .date .months false
  | sub _ => exceeds .sub .date .months false

@[simp] theorem count_reverse (m : MonthMove) : m.reverse.count = -m.count := by
  cases m with
  | add => rfl
  | sub => exact (Int.neg_neg _).symm

theorem call_eq (hd : d.InRange) (m : MonthMove) :
    m.call d = .ok (ofOption date (d.shiftMonths? m.count)) := by
  cases m with
  | add steps =>
    rw [count, ← monthSteps_eq hd (.inl rfl)]
    rfl
  | sub steps =>
    rw [count, ← monthSteps_eq hd (.inr rfl)]
    rfl

theorem operate_eq (hd : d.InRange) (m : MonthMove) :
    m.operate d = date <$> orExceeds (d.shiftMonths? m.count) m.limit := by
  cases m with
  | add steps =>
    rw [count, ← monthSteps_eq hd (.inl rfl)]
    rfl
  | sub steps =>
    rw [count, ← monthSteps_eq hd (.inr rfl)]
    rfl

theorem call_eq_date_iff (hd : d.InRange) (m : MonthMove) :
    m.call d = .ok (date e) ↔ d.MonthsLater m.count e := by
  rw [call_eq hd, Value.ofOption_eq_date_iff, shiftMonths?_eq_some_iff hd.2]

theorem call_eq_nothing_iff (hd : d.InRange) (m : MonthMove) :
    m.call d = .ok .nothing ↔ ¬MonthInRange (d.monthNumber + m.count) := by
  rw [call_eq hd, Value.ofOption_eq_nothing_iff, shiftMonths?_eq_none_iff]

/-- An operator gives the date that the operation gives, and fails where that gives nothing. -/
theorem operate_eq_iff (hd : d.InRange) (m : MonthMove) :
    (∀ e, m.operate d = .ok (date e) ↔ m.call d = .ok (date e)) ∧
      (m.operate d = .error (.outOfRange m.limit) ↔ m.call d = .ok .nothing) := by
  rw [operate_eq hd, call_eq hd]
  cases d.shiftMonths? m.count with
  | none => exact ⟨fun e => iff_of_false nofun nofun, iff_of_true rfl rfl⟩
  | some r => exact ⟨fun e => ⟨id, id⟩, iff_of_false nofun nofun⟩

end MonthMove

end Date

namespace Value

open Date (MonthMove MonthInRange)

variable {a b d : Date}

theorem compare_le_date_iff (ha : a.IsReal) (hb : b.IsReal) :
    compare .le (date a) (date b) = .ok true ↔ ¬b < a := by
  have hlt := Date.lt_iff_dayNumber_lt ha hb
  have hgt := Date.lt_iff_dayNumber_lt hb ha
  rw [compare_eq_ok .le rfl, compareBy_congr hlt hgt, Except.ok.injEq, holds_le_iff, hgt]
  omega

/-- Dates are moved by months from one month to another and on to the last day at most. There is
nothing exactly if the year is not supported. Dates stay in their order. Going on from a stop ends
in the month that one move by all the months leads to, on the earlier one of the days there and at
the stop, and both ways exist alike in one direction. The way back leads to the start exactly if its
day was not too late for the month, and else to an earlier day of the same month. -/
theorem months_move_dates (hd : d.InRange) :
    (∀ m : MonthMove, (∀ e, m.call d = .ok (date e) ↔ d.MonthsLater m.count e) ∧
      (m.call d = .ok nothing ↔ ¬MonthInRange (d.monthNumber + m.count)) ∧
      (∀ e, m.operate d = .ok (date e) ↔ m.call d = .ok (date e)) ∧
      (m.operate d = .error (.outOfRange m.limit) ↔ m.call d = .ok nothing)) ∧
    (∀ (m : MonthMove) (a e f), a.InRange → compare .le (date d) (date a) = .ok true →
      m.call d = .ok (date e) → m.call a = .ok (date f) →
      compare .le (date e) (date f) = .ok true) ∧
    (∀ m n both : MonthMove, both.count = m.count + n.count →
      (∀ e f, m.call d = .ok (date e) → n.call e = .ok (date f) →
        ∃ g, both.call d = .ok (date g) ∧ (f.year = g.year ∧ f.month = g.month) ∧
          f.day = Min.min e.day g.day) ∧
      ∀ g, 0 ≤ m.count ∧ 0 ≤ n.count ∨ m.count ≤ 0 ∧ n.count ≤ 0 → both.call d = .ok (date g) →
        ∃ e f, m.call d = .ok (date e) ∧ n.call e = .ok (date f)) ∧
    ∀ (m : MonthMove) (e), m.call d = .ok (date e) →
      ∃ f, m.reverse.call e = .ok (date f) ∧
        (f = d ↔ d.day ≤ Calendar.daysInMonth e.year e.month) ∧
        (f ≠ d → (f.year = d.year ∧ f.month = d.month) ∧ f.day < d.day) := by
  refine ⟨fun m => ?moved, ?ordered, ?composed, ?reversed⟩
  case moved =>
    exact ⟨fun e => m.call_eq_date_iff hd, m.call_eq_nothing_iff hd, m.operate_eq_iff hd⟩
  case ordered =>
    intro m a e f ha hle he hf
    rw [m.call_eq_date_iff hd] at he
    rw [m.call_eq_date_iff ha] at hf
    rw [compare_le_date_iff hd.2 ha.2] at hle
    rw [compare_le_date_iff he.inRange.2 hf.inRange.2]
    exact he.not_lt hd.2 ha.2 hf hle
  case composed =>
    intro m n both hboth
    refine ⟨fun e f he hf => ?_, fun g hsign hg => ?_⟩
    · rw [m.call_eq_date_iff hd] at he
      rw [n.call_eq_date_iff he.inRange] at hf
      obtain ⟨g, hg, hsame⟩ := he.trans hd.2 hf
      rw [← hboth] at hg
      exact ⟨g, (both.call_eq_date_iff hd).mpr hg, hsame⟩
    · rw [both.call_eq_date_iff hd, hboth] at hg
      obtain ⟨e, f, he, hf⟩ := Date.MonthsLater.exists_stop hd hg hsign
      exact ⟨e, f, (m.call_eq_date_iff hd).mpr he, (n.call_eq_date_iff he.inRange).mpr hf⟩
  case reversed =>
    intro m e he
    rw [m.call_eq_date_iff hd] at he
    have hback := he.back hd
    rw [← m.count_reverse, ← m.reverse.call_eq_date_iff he.inRange] at hback
    have hsame : { d with day := e.day } = d ↔ e.day = d.day :=
      ⟨congrArg Date.day, fun h => by rw [h]⟩
    refine ⟨_, hback, hsame.trans he.day_eq_iff, fun hne => ⟨⟨rfl, rfl⟩, ?_⟩⟩
    exact Int.lt_iff_le_and_ne.mpr ⟨he.day_le, mt hsame.mpr hne⟩

/-- Back to the leap day of the year -4, farther on by another month, and forward again. A date a
month later comes to the start itself. -/
theorem months_move_dates_leap_day :
    let d : Date := ⟨-4, 3, 30⟩
    let leapDay : Date := ⟨-4, 2, 29⟩
    let m : MonthMove := .sub ⟨1⟩
    (m.call d = .ok (date leapDay) ∧ m.operate d = .ok (date leapDay) ∧
      (MonthMove.add ⟨maxU32⟩).call d = .ok nothing) ∧
    compare .le (date leapDay) (date d) = .ok true ∧
    ((∃ g, (MonthMove.sub ⟨2⟩).call d = .ok (date g) ∧ (-4 = g.year ∧ 1 = g.month) ∧
        29 = Min.min 29 g.day) ∧
      ∃ e f, m.call d = .ok (date e) ∧ m.call e = .ok (date f)) ∧
    ∃ f, (MonthMove.add ⟨1⟩).call leapDay = .ok (date f) ∧ f ≠ d ∧ f.day < d.day := by
  intro d leapDay m
  obtain ⟨hmoved, hordered, hcomposed, hreversed⟩ := months_move_dates (d := d) (by decide)
  have hleap : m.call d = .ok (date leapDay) :=
    ((hmoved m).1 _).mpr ⟨by decide, by decide, by decide⟩
  have hbeyond : (MonthMove.add ⟨maxU32⟩).call d = .ok nothing :=
    ((hmoved _).2.1).mpr (by decide)
  obtain ⟨hstop, hexists⟩ := hcomposed m m (.sub ⟨2⟩) rfl
  obtain ⟨f, hf, hiff, hearlier⟩ := hreversed m _ hleap
  have hne : f ≠ d := mt hiff.mp (by decide)
  exact ⟨⟨hleap, ((hmoved m).2.2.1 _).mpr hleap, hbeyond⟩,
    hordered m ⟨-4, 4, 30⟩ _ _ (by decide) rfl hleap rfl,
    ⟨hstop leapDay ⟨-4, 1, 29⟩ hleap rfl, hexists ⟨-4, 1, 30⟩ (.inr (by decide)) rfl⟩,
    f, hf, hne, (hearlier hne).2⟩

end Value

end CivilTime
