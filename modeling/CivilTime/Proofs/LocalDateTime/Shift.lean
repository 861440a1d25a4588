import CivilTime.OffsetDateTime
import CivilTime.Proofs.DayNumber
import CivilTime.Proofs.TimeOfDay.Shift

/-!
# Shifting a datetime

A shift moves the clock by any number of seconds, but the date by one day at most: a carry
of more days is lost. Away from the ends of the supported range the shifted datetime always
exists, and a shift by at most a day loses nothing.
-/

namespace CivilTime.LocalDateTime

variable {t u : LocalDateTime} {k : Int}

/-! ## Carries -/

/-- The days of a carry that the date does not move by. -/
def lostDays (days : Int) : Int := if -1 ≤ days ∧ days ≤ 1 then 0 else days

theorem carryDate?_eq_addDays? (date : Date) (days : Int) :
    carryDate? date days = date.addDays? (days - lostDays days) := by
  rw [carryDate?, lostDays]
  split
  case isTrue hone =>
    rw [if_pos (by omega), Int.sub_zero, hone, Date.succ?]
  case isFalse hone =>
    split
    case isTrue hminus =>
      rw [if_pos (by omega), Int.sub_zero, hminus, Date.pred?]
    case isFalse hminus =>
      have hnone : (days - if -1 ≤ days ∧ days ≤ 1 then 0 else days) = 0 := by
        split <;> omega
      rw [hnone, Date.addDays?, if_pos rfl]

/-- Nothing of the carry is lost exactly if the shift ends on the day before, the day itself
or the day after. -/
theorem lostDays_shift_eq_zero_iff (time : TimeOfDay) (k : Int) :
    lostDays (time.shift k).2 = 0 ↔
      -secondsPerDay ≤ time.secs + k ∧ time.secs + k < 2 * secondsPerDay := by
  have hsecs := time.shift_secs_add k
  have honday := time.onDay_shift k
  simp only [lostDays, TimeOfDay.OnDay, secondsPerDay] at *
  split <;> omega

/-- A shift by at most a day loses nothing. -/
theorem lostDays_shift_of_le_day {time : TimeOfDay} (ht : time.OnDay)
    (hk : -secondsPerDay ≤ k ∧ k ≤ secondsPerDay) : lostDays (time.shift k).2 = 0 := by
  rw [lostDays_shift_eq_zero_iff]
  simp only [TimeOfDay.OnDay] at ht
  omega

/-! ## Shifted datetimes -/

/-- The datetime is another one moved by so many seconds. -/
structure IsShiftOf (u t : LocalDateTime) (k : Int) : Prop where
  inRange : u.date.InRange
  onDay : u.time.OnDay
  seconds_eq : u.seconds = t.seconds + k
  frac_eq : u.time.frac = t.time.frac

theorem IsShiftOf.trans {v : LocalDateTime} {k' : Int} (h : v.IsShiftOf u k')
    (h' : u.IsShiftOf t k) : v.IsShiftOf t (k + k') where
  inRange := h.inRange
  onDay := h.onDay
  seconds_eq := by rw [h.seconds_eq, h'.seconds_eq, Int.add_assoc]
  frac_eq := h.frac_eq.trans h'.frac_eq

theorem IsShiftOf.eq {k' : Int} (h : u.IsShiftOf t k) (h' : u.IsShiftOf t k') : k = k' := by
  have := h.seconds_eq
  have := h'.seconds_eq
  omega

/-- The day is at least so many days away from both ends of the supported range. -/
def HasRoom (t : LocalDateTime) (days : Int) : Prop :=
  Date.min.dayNumber + days ≤ t.date.dayNumber ∧ t.date.dayNumber + days ≤ Date.max.dayNumber

/-- Away from the ends of the supported range the clock goes on by what is not lost. -/
theorem exists_isShiftOf (room : Int) (hdate : t.date.InRange) (hroom : t.HasRoom (room + 1))
    (hnonneg : 0 ≤ room) (k : Int) :
    ∃ u, t.shifted? (t.time.shift k) = some u ∧ u.HasRoom room ∧
      u.IsShiftOf t (k - lostDays (t.time.shift k).2 * secondsPerDay) := by
  have hsecs := t.time.shift_secs_add k
  have hkept : -1 ≤ (t.time.shift k).2 - lostDays (t.time.shift k).2 ∧
      (t.time.shift k).2 - lostDays (t.time.shift k).2 ≤ 1 := by
    rw [lostDays]
    split <;> omega
  obtain ⟨hlo, hhi⟩ := hroom
  let date := Date.ofDayNumber
    (t.date.dayNumber + ((t.time.shift k).2 - lostDays (t.time.shift k).2))
  have hnumber : date.dayNumber =
      t.date.dayNumber + ((t.time.shift k).2 - lostDays (t.time.shift k).2) :=
    Date.dayNumber_ofDayNumber _
  have hin : date.InRange := Date.inRange_ofDayNumber (by omega)
  have hmoved : carryDate? t.date (t.time.shift k).2 = some date := by
    rw [carryDate?_eq_addDays?, Date.addDays?_eq_some_iff hdate]
    exact ⟨hin, hnumber⟩
  refine ⟨⟨date, (t.time.shift k).1⟩, ?_, ?_, hin, t.time.onDay_shift k, ?_, rfl⟩
  · rw [shifted?, hmoved, Option.map_some]
  · simp only [HasRoom]
    omega
  · simp only [seconds, hnumber]
    simp only [secondsPerDay] at *
    omega

/-! ## There and back -/

/-- The local datetime of a moment is the one that the moment was made for. -/
theorem localDateTime_of_ofLocal? {o : Offset} {r : OffsetDateTime} (hdate : t.date.InRange)
    (htime : t.time.OnDay) (ho : -secondsPerDay ≤ o.secs ∧ o.secs ≤ secondsPerDay)
    (h : OffsetDateTime.ofLocal? t o = some r) : r.localDateTime = t := by
  obtain ⟨utc, hutc, rfl⟩ := Option.map_eq_some_iff.mp h
  obtain ⟨date, hcarry, rfl⟩ := Option.map_eq_some_iff.mp hutc
  rw [TimeOfDay.subOffset] at hcarry ⊢
  have honday := t.time.onDay_shift (-o.secs)
  have htime' : ((t.time.shift (-o.secs)).1.shift o.secs).1 = t.time := by
    rw [TimeOfDay.shift_shift, Int.add_left_neg, TimeOfDay.shift_zero htime]
  have hthere := t.time.shift_secs_add (-o.secs)
  have hback := (t.time.shift (-o.secs)).1.shift_secs_add o.secs
  rw [carryDate?_eq_addDays?, Date.addDays?_eq_some_iff hdate,
    lostDays_shift_of_le_day htime (by omega), Int.sub_zero] at hcarry
  have hdate' : carryDate? date ((t.time.shift (-o.secs)).1.shift o.secs).2 = some t.date := by
    rw [carryDate?_eq_addDays?, Date.addDays?_eq_some_iff hcarry.1,
      lostDays_shift_of_le_day honday ho, Int.sub_zero]
    refine ⟨hdate, ?_⟩
    rw [htime'] at hback
    simp only [secondsPerDay] at hthere hback
    omega
  rw [OffsetDateTime.localDateTime, addOffset, TimeOfDay.addOffset, shifted, carryDate, hdate',
    htime', Option.getD_some]

end CivilTime.LocalDateTime
