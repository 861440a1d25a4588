import CivilTime.Proofs.LocalDateTime.Shift
import CivilTime.Proofs.Outcome
import CivilTime.Zone.Resolve

/-!
# Local datetimes of moments

On the line of seconds the local datetime of a moment lies as far from universal time as the
offset says, also where its date is the day before or after the supported range. It leads back
to the moment. The other way round, a local datetime is that of a moment exactly if universal
time stays within the supported range.
-/

namespace CivilTime

namespace Date

variable {d e : Date} {n : Int}

/-- A date of the supported range is reached from every real date, also from one outside. -/
theorem addDays?_eq_some_of_inRange (hd : d.IsReal) (he : e.InRange)
    (h : e.dayNumber = d.dayNumber + n) : d.addDays? n = some e := by
  rw [addDays?]
  split
  case isTrue hzero =>
    have hsame : d.dayNumber = e.dayNumber := by omega
    rw [eq_of_dayNumber_eq hd he.2 hsame]
  case isFalse =>
    have hbounds := he.dayNumber_bounds
    rw [if_pos (by omega), ← h, ofDayNumber_dayNumber he.2]

/-- A date that a local time shows: one of the supported range, or the day before or after it. -/
def Showable (d : Date) : Prop := d.InRange ∨ d = beforeMin ∨ d = afterMax

theorem Showable.isReal (h : d.Showable) : d.IsReal := by
  rcases h with hin | rfl | rfl
  · exact hin.2
  · decide
  · decide

theorem Showable.year_bounds (h : d.Showable) : minYear - 1 ≤ d.year ∧ d.year ≤ maxYear + 1 := by
  rcases h with hin | rfl | rfl
  · have := hin.1
    simp only [YearInRange] at this
    omega
  · decide
  · decide

end Date

namespace LocalDateTime

variable {t u : LocalDateTime} {k : Int}

/-! ## The line of seconds -/

/-- The datetime is a real date with a time within the day, as many seconds after another one
and with the same fraction. Its date need not be in the supported range. -/
structure MovedBy (u t : LocalDateTime) (k : Int) : Prop where
  isReal : u.date.IsReal
  onDay : u.time.OnDay
  seconds_eq : u.seconds = t.seconds + k
  frac_eq : u.time.frac = t.time.frac

/-- Away from the fraction the number of seconds tells everything. -/
theorem eq_of_seconds_eq (ht : t.date.IsReal) (hu : u.date.IsReal) (htime : t.time.OnDay)
    (hutime : u.time.OnDay) (hseconds : t.seconds = u.seconds)
    (hfrac : t.time.frac = u.time.frac) : t = u := by
  simp only [seconds, TimeOfDay.OnDay, secondsPerDay] at *
  have hdate : t.date = u.date := Date.eq_of_dayNumber_eq ht hu (by omega)
  have hsecs : t.time.secs = u.time.secs := by omega
  have htimes : (⟨t.time.secs, t.time.frac⟩ : TimeOfDay) = ⟨u.time.secs, u.time.frac⟩ := by
    rw [hsecs, hfrac]
  exact congr (congrArg mk hdate) htimes

/-- The supported range is an interval on the line of seconds. -/
theorem inRange_iff_seconds (hreal : t.date.IsReal) (htime : t.time.OnDay) :
    t.date.InRange ↔ min.seconds ≤ t.seconds ∧ t.seconds ≤ max.seconds := by
  rw [Date.InRange, Date.yearInRange_iff hreal, and_iff_left hreal]
  change _ ↔ Date.min.dayNumber * 86400 + 0 ≤ _ ∧ _ ≤ Date.max.dayNumber * 86400 + 86399
  simp only [seconds, TimeOfDay.OnDay, secondsPerDay] at *
  omega

/-! ## Carries at the edges -/

/-- A carry by at most a day is never lost, also where it leads out of the supported range. -/
theorem carryDate_of_inRange {date : Date} {days : Int} (hdate : date.InRange)
    (hdays : -1 ≤ days ∧ days ≤ 1) :
    (carryDate date days).IsReal ∧ (carryDate date days).dayNumber = date.dayNumber + days := by
  have hcarry : carryDate? date days = date.addDays? days := by
    rw [carryDate?_eq_addDays?, lostDays, if_pos hdays, Int.sub_zero]
  rw [carryDate, hcarry]
  cases hmoved : date.addDays? days with
  | some e =>
    obtain ⟨hin, hnumber⟩ := (Date.addDays?_eq_some_iff hdate).mp hmoved
    exact ⟨hin.2, hnumber⟩
  | none =>
    have hout := (Date.addDays?_eq_none_iff hdate).mp hmoved
    have hbounds := hdate.dayNumber_bounds
    rw [Option.getD_none]
    split
    case isTrue hneg =>
      have hedge : Date.beforeMin.dayNumber = Date.min.dayNumber - 1 := by decide
      exact ⟨by decide, by omega⟩
    case isFalse hpos =>
      have hedge : Date.afterMax.dayNumber = Date.max.dayNumber + 1 := by decide
      exact ⟨by decide, by omega⟩

theorem carryDate_showable {date : Date} (hdate : date.InRange) (days : Int) :
    (carryDate date days).Showable := by
  rw [carryDate, carryDate?_eq_addDays?]
  cases hmoved : date.addDays? (days - lostDays days) with
  | some e => exact .inl ((Date.addDays?_eq_some_iff hdate).mp hmoved).1
  | none =>
    rw [Option.getD_none]
    split
    case isTrue hneg => exact .inr (.inl rfl)
    case isFalse hpos => exact .inr (.inr rfl)

theorem shift_carry_bounds {time : TimeOfDay} (ht : time.OnDay)
    (hk : -secondsPerDay ≤ k ∧ k ≤ secondsPerDay) :
    -1 ≤ (time.shift k).2 ∧ (time.shift k).2 ≤ 1 := by
  have hsecs := time.shift_secs_add k
  have honday := time.onDay_shift k
  simp only [TimeOfDay.OnDay, secondsPerDay] at *
  omega

/-- Where both are there, the two ways to shift agree. -/
theorem shifted_of_shifted? {s : TimeOfDay × Int} (h : t.shifted? s = some u) :
    t.shifted s = u := by
  obtain ⟨date, hdate, rfl⟩ := Option.map_eq_some_iff.mp h
  rw [shifted, carryDate, hdate, Option.getD_some]

/-- A shift by at most a day is exact, also where it leads out of the supported range. -/
theorem movedBy_shifted (hdate : t.date.InRange) (htime : t.time.OnDay)
    (hk : -secondsPerDay ≤ k ∧ k ≤ secondsPerDay) :
    (t.shifted (t.time.shift k)).MovedBy t k := by
  have hsecs := t.time.shift_secs_add k
  obtain ⟨hreal, hnumber⟩ := carryDate_of_inRange hdate (shift_carry_bounds htime hk)
  refine ⟨hreal, t.time.onDay_shift k, ?_, rfl⟩
  simp only [seconds, shifted, hnumber]
  simp only [secondsPerDay] at *
  omega

/-- A datetime of the supported range is reached by a shift, also from outside of it. -/
theorem shifted?_of_movedBy (hreal : t.date.IsReal) (htime : t.time.OnDay)
    (hk : -secondsPerDay ≤ k ∧ k ≤ secondsPerDay) (hin : u.date.InRange) (h : u.MovedBy t k) :
    t.shifted? (t.time.shift k) = some u := by
  have hsecs := t.time.shift_secs_add k
  have honday := t.time.onDay_shift k
  have hseconds := h.seconds_eq
  have huday := h.onDay
  have hcarry : carryDate? t.date (t.time.shift k).2 = t.date.addDays? (t.time.shift k).2 := by
    rw [carryDate?_eq_addDays?, lostDays_shift_of_le_day htime hk, Int.sub_zero]
  simp only [seconds, TimeOfDay.OnDay, secondsPerDay] at hsecs honday hseconds huday
  have hdate : t.date.addDays? (t.time.shift k).2 = some u.date :=
    Date.addDays?_eq_some_of_inRange hreal hin (by omega)
  have hclock : (t.time.shift k).1 = u.time := by
    have hsecs' : (t.time.shift k).1.secs = u.time.secs := by omega
    exact congr (congrArg TimeOfDay.mk hsecs') h.frac_eq.symm
  rw [shifted?, hcarry, hdate, hclock, Option.map_some]

/-- A shift by at most a day fails exactly if it leads out of the supported range. -/
theorem shifted?_eq_none_iff (hdate : t.date.InRange) (htime : t.time.OnDay)
    (hk : -secondsPerDay ≤ k ∧ k ≤ secondsPerDay) :
    t.shifted? (t.time.shift k) = none ↔
      ¬(min.seconds ≤ t.seconds + k ∧ t.seconds + k ≤ max.seconds) := by
  have hmoved := movedBy_shifted hdate htime hk
  rw [← hmoved.seconds_eq, ← inRange_iff_seconds hmoved.isReal hmoved.onDay]
  constructor
  · intro hnone hin
    rw [shifted?_of_movedBy hdate.2 htime hk hin hmoved] at hnone
    cases hnone
  · intro hout
    rw [Option.eq_none_iff_forall_ne_some]
    intro u hsome
    obtain ⟨date, hcarry, rfl⟩ := Option.map_eq_some_iff.mp hsome
    rw [carryDate?_eq_addDays?, Date.addDays?_eq_some_iff hdate] at hcarry
    rw [shifted_of_shifted? hsome] at hout
    exact hout hcarry.1

end LocalDateTime

/-! ## Moments -/

theorem orExceeds_eq_error {α : Type} {result : Option α} {limit : Limit} :
    orExceeds result limit = .error (.outOfRange limit) ↔ result = none := by
  cases result with
  | none => exact ⟨fun _ => rfl, fun _ => rfl⟩
  | some a => exact ⟨nofun, nofun⟩

namespace OffsetDateTime

open LocalDateTime

variable {t : OffsetDateTime}

theorem Valid.showable_localDateTime (h : t.Valid) : t.localDateTime.date.Showable :=
  carryDate_showable h.1.1 _

theorem Valid.onClock_localDateTime (h : t.Valid) : t.localDateTime.time.OnClock :=
  h.1.2.onClock.shift t.offset.secs

theorem Valid.valid_localDateTime_time_iff (h : t.Valid) :
    t.localDateTime.time.Valid ↔ t.utc.time.KeepsSecond t.offset.secs :=
  TimeOfDay.shift_valid_iff h.1.2 t.offset.secs

/-- A moment has one local datetime, exactly by the offset away from universal time, and the
local datetime leads back to the moment. A local datetime of the supported range has a moment
exactly if universal time is in that range, and is the local datetime of that moment. -/
theorem localDateTime_exact {o : Offset} (ho : o.InRange) :
    (∀ u : LocalDateTime, u.Valid →
      (mk u o).localDateTime.MovedBy u o.secs ∧
      (∀ v, u.addOffset? o = some v → (mk u o).localDateTime = v) ∧
      (mk u o).localDateTime.withOffset o = .ok ⟨u, o⟩) ∧
    ∀ l : LocalDateTime, l.Valid →
      (l.withOffset o = .error (.outOfRange .localDateTime) ↔
        ¬(min.seconds ≤ l.seconds - o.secs ∧ l.seconds - o.secs ≤ max.seconds)) ∧
      (min.seconds ≤ l.seconds - o.secs ∧ l.seconds - o.secs ≤ max.seconds →
        ∃ r, l.withOffset o = .ok r ∧ r.offset = o ∧ r.localDateTime = l) := by
  have hthere : -secondsPerDay ≤ o.secs ∧ o.secs ≤ secondsPerDay := by
    simp only [Offset.InRange, secondsPerDay] at *
    omega
  have hback : -secondsPerDay ≤ -o.secs ∧ -o.secs ≤ secondsPerDay := by omega
  refine ⟨fun u hu => ?_, fun l hl => ?_⟩
  · have hlocal : (mk u o).localDateTime.MovedBy u o.secs :=
      movedBy_shifted hu.1 hu.2.onDay hthere
    have hutc : u.MovedBy (mk u o).localDateTime (-o.secs) :=
      ⟨hu.1.2, hu.2.onDay, by rw [hlocal.seconds_eq]; omega, hlocal.frac_eq.symm⟩
    have hsub : (mk u o).localDateTime.subOffset? o = some u :=
      shifted?_of_movedBy hlocal.isReal hlocal.onDay hback hu.1 hutc
    refine ⟨hlocal, fun v hv => shifted_of_shifted? hv, ?_⟩
    rw [withOffset, orExceeds_eq_ok, ofLocal?, hsub, Option.map_some]
  · have hnone : l.withOffset o = .error (.outOfRange .localDateTime) ↔
        ¬(min.seconds ≤ l.seconds - o.secs ∧ l.seconds - o.secs ≤ max.seconds) := by
      rw [withOffset, orExceeds_eq_error, ofLocal?, Option.map_eq_none_iff, Int.sub_eq_add_neg]
      exact shifted?_eq_none_iff hl.1 hl.2.onDay hback
    refine ⟨hnone, fun hin => ?_⟩
    cases hutc : l.subOffset? o with
    | none =>
      have herror : l.withOffset o = .error (.outOfRange .localDateTime) := by
        rw [withOffset, orExceeds_eq_error, ofLocal?, hutc, Option.map_none]
      exact absurd hin (hnone.mp herror)
    | some u =>
      have hof : ofLocal? l o = some ⟨u, o⟩ := by rw [ofLocal?, hutc, Option.map_some]
      refine ⟨⟨u, o⟩, ?_, rfl, localDateTime_of_ofLocal? hl.1 hl.2.onDay hthere hof⟩
      rw [withOffset, orExceeds_eq_ok, hof]

/-- In the last leap second of all, seen from a place that is ahead, it is the day after the
supported range already. -/
theorem localDateTime_exact_after_max :
    let l : LocalDateTime := ⟨Date.afterMax, ⟨3599, 1999999999⟩⟩
    (mk LocalDateTime.max ⟨3600⟩).localDateTime = l ∧
      l.withOffset ⟨3600⟩ = .ok ⟨LocalDateTime.max, ⟨3600⟩⟩ ∧
      LocalDateTime.min.withOffset ⟨3600⟩ = .error (.outOfRange .localDateTime) := by
  intro l
  obtain ⟨hmoment, hlocal⟩ := localDateTime_exact (o := ⟨3600⟩) ⟨by decide, by decide⟩
  have hthere : (mk LocalDateTime.max ⟨3600⟩).localDateTime = l := by decide
  obtain ⟨-, -, hback⟩ := hmoment LocalDateTime.max (by decide)
  rw [hthere] at hback
  exact ⟨hthere, hback, (hlocal LocalDateTime.min (by decide)).1.mpr (by decide)⟩

end OffsetDateTime

end CivilTime
