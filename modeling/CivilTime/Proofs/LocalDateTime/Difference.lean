import CivilTime.Calculator.Operator
import CivilTime.Proofs.DayNumber
import CivilTime.Proofs.TimeOfDay.Difference

/-!
# Differences of datetimes

The difference of two datetimes is always there, since the whole supported range fits
into a delta. It has the sign of their order, except at one place: a leap second at
the end of a day is not counted by a difference that crosses midnight, so that late in
it a datetime seems to be past the start of the next day already.
-/

namespace CivilTime

namespace Date

/-- A day of the supported range, or right before or after it. -/
def NearRange (d : Date) : Prop :=
  min.dayNumber - 1 ≤ d.dayNumber ∧ d.dayNumber ≤ max.dayNumber + 1

theorem InRange.nearRange {d : Date} (h : d.InRange) : d.NearRange := by
  have := h.dayNumber_bounds
  simp only [NearRange]
  omega

theorem canonical_since (d other : Date) : (d.since other).Canonical := by
  simp [since, Delta.Canonical, nanosPerSecond]

theorem total_since (d other : Date) :
    (d.since other).total = (d.dayNumber - other.dayNumber) * TimeOfDay.nanosPerDay := by
  simp only [since, Delta.total, TimeOfDay.nanosPerDay, secondsPerDay, nanosPerSecond]
  omega

end Date

namespace LocalDateTime

variable {a b : LocalDateTime}

theorem total_eq (t : LocalDateTime) :
    t.total = t.date.dayNumber * TimeOfDay.nanosPerDay + t.time.total := by
  simp only [total, seconds, TimeOfDay.total, TimeOfDay.nanosPerDay, secondsPerDay, nanosPerSecond]
  omega

/-- The difference is that of the numbers of nanoseconds, with the leap second that the
times of day have between them. -/
theorem exists_since? (ha : a.date.NearRange) (hb : b.date.NearRange) (hat : a.time.OnClock)
    (hbt : b.time.OnClock) :
    ∃ d, a.since? b = some d ∧ d.Canonical ∧
      d.total = a.total - b.total + a.time.leapBetween b.time * nanosPerSecond := by
  have htime := TimeOfDay.total_since_bounds hat hbt
  have hdate := Date.total_since a.date b.date
  simp only [Date.NearRange, Date.dayNumber_min, Date.dayNumber_max] at ha hb
  simp only [TimeOfDay.nanosPerDay, secondsPerDay, nanosPerSecond] at htime hdate
  obtain ⟨d, hsum, hcanonical, htotal⟩ :=
    Delta.add?_of_bounds (Date.canonical_since a.date b.date)
      (TimeOfDay.canonical_since a.time b.time)
      (by simp only [Delta.maxTotal]; omega) (by simp only [Delta.maxTotal]; omega)
  refine ⟨d, hsum, hcanonical, ?_⟩
  rw [htotal, TimeOfDay.total_since, Date.total_since, total_eq, total_eq]
  simp only [TimeOfDay.nanosPerDay, secondsPerDay, nanosPerSecond]
  omega

/-! ## Differences and order -/

/-- `a` is in the leap second at the end of a day, `b` in the first second of the next
day, and at least as much of the leap second has passed as of that second. -/
def RunsPast (a b : LocalDateTime) : Prop :=
  a.date.dayNumber + 1 = b.date.dayNumber ∧ a.time.secs = 86399 ∧ b.time.secs = 0 ∧
    nanosPerSecond + b.time.frac ≤ a.time.frac

instance (a b : LocalDateTime) : Decidable (a.RunsPast b) :=
  inferInstanceAs (Decidable (_ ∧ _))

/-- A delta has the sign that the difference of `a` and `b` should have: negative,
positive or zero as `a` is before, after or equal to `b`. -/
def SignFits (a b : LocalDateTime) (d : Delta) : Prop :=
  (a < b → d < Delta.zero) ∧ (b < a → Delta.zero < d) ∧ (d = Delta.zero → a = b)

theorem lt_iff (ha : a.date.IsReal) (hb : b.date.IsReal) :
    a < b ↔ a.date.dayNumber < b.date.dayNumber ∨
      a.date.dayNumber = b.date.dayNumber ∧ a.time < b.time := by
  change a.date < b.date ∨ a.date = b.date ∧ a.time < b.time ↔ _
  rw [Date.lt_iff_dayNumber_lt ha hb]
  refine or_congr_right (and_congr_left' ?_)
  constructor
  · intro h
    rw [h]
  · exact Date.eq_of_dayNumber_eq ha hb

/-- On the line of seconds the order is that of the numbers of seconds, and within a second that
of the fractions, also if it is a leap second. -/
theorem lt_iff_seconds (ha : a.date.IsReal) (hb : b.date.IsReal) (hat : a.time.OnClock)
    (hbt : b.time.OnClock) :
    a < b ↔ a.seconds < b.seconds ∨ a.seconds = b.seconds ∧ a.time.frac < b.time.frac := by
  rw [lt_iff ha hb]
  change _ ∨ _ ∧ (a.time.secs < b.time.secs ∨ a.time.secs = b.time.secs ∧
    a.time.frac < b.time.frac) ↔ _
  simp only [seconds, TimeOfDay.OnClock, secondsPerDay] at *
  omega

theorem lt_trichotomy (a b : LocalDateTime) : a < b ∨ a = b ∨ b < a := by
  rcases Date.lt_trichotomy a.date b.date with h | h | h
  · exact .inl (.inl h)
  · rcases TimeOfDay.lt_trichotomy a.time b.time with ht | ht | ht
    · exact .inl (.inr ⟨h, ht⟩)
    · exact .inr (.inl (congr (congrArg mk h) ht))
    · exact .inr (.inr (.inr ⟨h.symm, ht⟩))
  · exact .inr (.inr (.inl h))

theorem RunsPast.lt (ha : a.date.IsReal) (hb : b.date.IsReal) (h : a.RunsPast b) : a < b := by
  rw [lt_iff ha hb]
  have := h.1
  omega

/-- Going from a later to an earlier datetime takes negative time, unless the earlier
one runs past the later. -/
theorem total_neg_iff (ha : a.Valid) (hb : b.Valid) (h : a < b) :
    a.total - b.total + a.time.leapBetween b.time * nanosPerSecond < 0 ↔ ¬a.RunsPast b := by
  rw [lt_iff ha.1.2 hb.1.2] at h
  change _ ∨ _ ∧ (a.time.secs < b.time.secs ∨ a.time.secs = b.time.secs ∧
    a.time.frac < b.time.frac) at h
  obtain ⟨hasecs, hafrac, haleap⟩ := ha.2
  obtain ⟨hbsecs, hbfrac, hbleap⟩ := hb.2
  have hleap := TimeOfDay.leapBetween_cases a.time b.time
  rw [total_eq, total_eq, RunsPast]
  simp only [TimeOfDay.InLeapSecond, TimeOfDay.total, TimeOfDay.nanosPerDay, secondsPerDay,
    nanosPerSecond] at *
  omega

/-- The sign of a difference fits the order exactly if neither datetime runs past the
other. -/
theorem signFits_iff (ha : a.Valid) (hb : b.Valid) :
    ∃ d, a.since? b = some d ∧ (a.SignFits b d ↔ ¬a.RunsPast b ∧ ¬b.RunsPast a) := by
  obtain ⟨d, hd, hcanonical, htotal⟩ :=
    exists_since? ha.1.nearRange hb.1.nearRange ha.2.onClock hb.2.onClock
  have hneg := Delta.lt_zero_iff hcanonical
  have hpos := Delta.zero_lt_iff hcanonical
  have hbefore (h : a < b) : d < Delta.zero ↔ ¬a.RunsPast b := by
    rw [hneg, htotal, total_neg_iff ha hb h]
  have hafter (h : b < a) : Delta.zero < d ↔ ¬b.RunsPast a := by
    have hswap := total_neg_iff hb ha h
    rw [TimeOfDay.leapBetween_swap] at hswap
    rw [hpos, htotal, ← hswap]
    simp only [nanosPerSecond]
    omega
  refine ⟨d, hd, ?_⟩
  constructor
  · rintro ⟨hlt, hgt, -⟩
    constructor
    · intro hrun
      have h := hrun.lt ha.1.2 hb.1.2
      exact (hbefore h).mp (hlt h) hrun
    · intro hrun
      have h := hrun.lt hb.1.2 ha.1.2
      exact (hafter h).mp (hgt h) hrun
  · rintro ⟨hab, hba⟩
    refine ⟨fun h => (hbefore h).mpr hab, fun h => (hafter h).mpr hba, fun hzero => ?_⟩
    rcases lt_trichotomy a b with h | h | h
    · have := hneg.mp ((hbefore h).mpr hab)
      rw [hzero, Delta.total_zero] at this
      omega
    · exact h
    · have := hpos.mp ((hafter h).mpr hba)
      rw [hzero, Delta.total_zero] at this
      omega

end LocalDateTime

namespace OffsetDateTime

variable {p q : OffsetDateTime} {d : Delta}

/-- `LocalDateTime.SignFits` for the order and the equality of moments. -/
def SignFits (p q : OffsetDateTime) (d : Delta) : Prop :=
  (p < q → d < Delta.zero) ∧ (q < p → Delta.zero < d) ∧ (d = Delta.zero → p.sameMoment q)

theorem signFits_iff_utc : p.SignFits q d ↔ p.utc.SignFits q.utc d := by
  have hmoment : p.sameMoment q = true ↔ p.utc = q.utc := by
    rw [sameMoment, decide_eq_true_eq]
  rw [SignFits, hmoment]
  rfl

end OffsetDateTime

namespace Value

theorem betweenDates_of_isReal {a b : Date} (ha : a.IsReal) (hb : b.IsReal) :
    betweenDates a b = .ok (delta (a.since b)) := by
  rw [betweenDates, Date.requirePlace_of_isReal ha, Date.requirePlace_of_isReal hb]
  rfl

variable {a b : LocalDateTime}

theorem between_of_isReal {d : Delta} (ha : a.date.IsReal) (hb : b.date.IsReal)
    (hd : a.since? b = some d) : between a b = .ok (delta d) := by
  rw [between, Date.requirePlace_of_isReal ha, Date.requirePlace_of_isReal hb]
  simp only [hd]
  rfl

theorem between_eq_ok {d : Delta} (ha : a.Valid) (hb : b.Valid) (hd : a.since? b = some d) :
    between a b = .ok (delta d) :=
  between_of_isReal ha.1.2 hb.1.2 hd

/-- The difference of two datetimes, and of two moments, has the sign of their order
exactly if neither runs past the other. -/
theorem sub_signFits_iff (ha : a.Valid) (hb : b.Valid) (o o' : Offset) :
    ∃ d, sub (localDateTime a) (localDateTime b) = .ok (delta d) ∧
      sub (offsetDateTime ⟨a, o⟩) (offsetDateTime ⟨b, o'⟩) = .ok (delta d) ∧
      (a.SignFits b d ↔ ¬a.RunsPast b ∧ ¬b.RunsPast a) ∧
      (OffsetDateTime.SignFits ⟨a, o⟩ ⟨b, o'⟩ d ↔ ¬a.RunsPast b ∧ ¬b.RunsPast a) := by
  obtain ⟨d, hd, hsign⟩ := LocalDateTime.signFits_iff ha hb
  have hbetween := between_eq_ok ha hb hd
  refine ⟨d, hbetween, hbetween, hsign, ?_⟩
  rw [OffsetDateTime.signFits_iff_utc]
  exact hsign

/-- Across midnight between two times outside of leap seconds. -/
theorem sub_signFits_iff_new_year :
    ∃ d, sub (localDateTime ⟨⟨2024, 12, 31⟩, ⟨86399, 5⟩⟩) (localDateTime ⟨⟨2025, 1, 1⟩, ⟨0, 4⟩⟩) =
        .ok (delta d) ∧ d < Delta.zero := by
  obtain ⟨d, hd, -, hsign, -⟩ := sub_signFits_iff (a := ⟨⟨2024, 12, 31⟩, ⟨86399, 5⟩⟩)
    (b := ⟨⟨2025, 1, 1⟩, ⟨0, 4⟩⟩) (by decide) (by decide) ⟨0⟩ ⟨3600⟩
  exact ⟨d, hd, (hsign.mpr ⟨by decide, by decide⟩).1 (by decide)⟩

/-- In the middle of the leap second that ended June 2015 the difference to the start of
July is positive already. -/
theorem sub_leap_second_before_midnight :
    let a : LocalDateTime := ⟨⟨2015, 6, 30⟩, ⟨86399, 1500000000⟩⟩
    let b : LocalDateTime := ⟨⟨2015, 7, 1⟩, ⟨0, 0⟩⟩
    (a.Valid ∧ b.Valid) ∧ a < b ∧ a.since? b = some ⟨0, 500000000⟩ ∧
      ¬a.SignFits b ⟨0, 500000000⟩ := by
  refine ⟨by decide, by decide, by decide, fun h => ?_⟩
  exact absurd (h.1 (by decide)) (by decide)

end Value

end CivilTime
