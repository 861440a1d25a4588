import CivilTime.Proofs.TimeOfDay.Difference

/-!
# Sums of times and the way back

The difference from a time to its sum with a delta is the delta, less the days that the sum went
around midnight. Differences only see the two times of day, and count the leap second that the
earlier one is in. This is the leap second that the sum has passed, unless the sum has gone around
midnight: then the later of the two times can be the one that is earlier in its day.
-/

namespace CivilTime.TimeOfDay

variable {t : TimeOfDay} {x : Delta} {r : TimeOfDay × Int} {n : Int}

/-- The leap second, in seconds, that the difference back to a time has beyond the delta. A sum
that goes around midnight to a time no later in its day has passed the leap second, but the
difference does not count it. One that goes back around midnight to a later time of day has not,
and the difference counts it. -/
def leapAround (t : TimeOfDay) (r : TimeOfDay × Int) : Int :=
  if t.InLeapSecond ∧ 0 < r.2 ∧ r.1.secs ≤ t.secs then -1
  else if t.InLeapSecond ∧ r.2 < 0 ∧ t.secs < r.1.secs then 1
  else 0

theorem leapAround_cases (t : TimeOfDay) (r : TimeOfDay × Int) :
    (t.InLeapSecond ∧ 0 < r.2 ∧ r.1.secs ≤ t.secs) ∧ leapAround t r = -1 ∨
    (t.InLeapSecond ∧ r.2 < 0 ∧ t.secs < r.1.secs) ∧ leapAround t r = 1 ∨
    (¬(t.InLeapSecond ∧ 0 < r.2 ∧ r.1.secs ≤ t.secs) ∧
      ¬(t.InLeapSecond ∧ r.2 < 0 ∧ t.secs < r.1.secs)) ∧ leapAround t r = 0 := by
  rw [leapAround]
  split
  case isTrue hforward => exact .inl ⟨hforward, rfl⟩
  case isFalse hforward =>
    split
    case isTrue hback => exact .inr (.inl ⟨hback, rfl⟩)
    case isFalse hback => exact .inr (.inr ⟨⟨hforward, hback⟩, rfl⟩)

theorem leapAround_eq_zero (h : ¬t.InLeapSecond ∨ r.2 = 0) : leapAround t r = 0 := by
  have hcases := leapAround_cases t r
  simp only [InLeapSecond] at *
  omega

theorem Lands.total_since (h : Lands r n) (t : TimeOfDay) :
    (r.1.since t).total =
      n - t.total - r.2 * nanosPerSecond + leapBetween r.1 t * nanosPerSecond := by
  obtain ⟨u, days, rfl, -, htotal⟩ := h
  rw [TimeOfDay.total_since, ← htotal]
  simp only [nanosPerDay, secondsPerDay, nanosPerSecond]
  omega

/-- Past its end, a leap second has taken a second of the delta. The difference counts that second
if the sum is later in its day, and it is later on the same day. -/
theorem leapBetween_of_past (ht : t.OnClock) (hleap : t.InLeapSecond)
    (hend : 2 * nanosPerSecond ≤ t.frac + x.total)
    (h : Lands r (t.total - nanosPerSecond + x.total)) :
    leapBetween r.1 t = 1 + leapAround t r := by
  obtain ⟨u, days, rfl, hplain, htotal⟩ := h
  have hbetween := leapBetween_cases u t
  have haround := leapAround_cases t (u, days * secondsPerDay)
  simp only [OnClock, Plain, InLeapSecond, total, nanosPerDay, secondsPerDay, nanosPerSecond] at *
  omega

/-- Before its start, a leap second has counted for nothing. The difference counts it only if the
sum is later in its day, which takes going back around midnight. -/
theorem leapBetween_of_before (ht : t.OnClock) (hleap : t.InLeapSecond)
    (hback : x.total ≤ -nanosPerSecond) (h : Lands r (t.total + x.total)) :
    leapBetween r.1 t = leapAround t r := by
  obtain ⟨u, days, rfl, hplain, htotal⟩ := h
  have hbetween := leapBetween_cases u t
  have haround := leapAround_cases t (u, days * secondsPerDay)
  simp only [OnClock, Plain, InLeapSecond, total, nanosPerDay, secondsPerDay, nanosPerSecond] at *
  omega

/-- The way back is the delta without the days around midnight, up to a leap second. -/
theorem total_since_addDelta (ht : t.OnClock) (hx : x.Canonical) :
    ((t.addDelta x).1.since t).total =
      x.total - (t.addDelta x).2 * nanosPerSecond +
        leapAround t (t.addDelta x) * nanosPerSecond := by
  by_cases hleap : t.InLeapSecond
  · rcases addDelta_of_inLeapSecond ht hleap hx with
      ⟨hwhole, -, hsum⟩ | ⟨hend, hlands⟩ | ⟨hback, hlands⟩
    · have hsince : (since ⟨t.secs, t.frac + x.subsecNanos⟩ t).total =
          t.frac + x.subsecNanos - t.frac := total_since_of_same_second rfl
      rw [hsum, leapAround_eq_zero (.inr rfl), hsince, Delta.subsecNanos_eq_total hwhole]
      omega
    · rw [hlands.total_since, leapBetween_of_past ht hleap hend hlands]
      simp only [nanosPerSecond]
      omega
    · rw [hlands.total_since, leapBetween_of_before ht hleap hback hlands]
      omega
  · have hplain := ht.plain hleap
    have hlands := addDelta_of_plain hplain hx
    rw [hlands.total_since, leapBetween_of_plain hlands.plain hplain,
      leapAround_eq_zero (.inl hleap)]
    omega

/-- What a sum carries is a number of days. The difference from a time to its sum with a delta is
the delta less that carry, if the time is not in a leap second or there is no carry. From a leap
second around midnight, the difference is a second off exactly if it counts a leap second that was
not passed, or the other way round. -/
theorem since_addDelta_exact (ht : t.OnClock) (hx : x.Canonical) :
    secondsPerDay ∣ (t.addDelta x).2 ∧
    (¬t.InLeapSecond ∨ (t.addDelta x).2 = 0 →
      ((t.addDelta x).1.since t).total = x.total - (t.addDelta x).2 * nanosPerSecond) ∧
    ((t.addDelta x).1.since t).total =
      x.total - (t.addDelta x).2 * nanosPerSecond +
        leapAround t (t.addDelta x) * nanosPerSecond := by
  have htotal := total_since_addDelta ht hx
  have hdays := t.addDelta_snd_dvd x
  refine ⟨⟨_, hdays.trans (Int.mul_comm _ _)⟩, fun h => ?_, htotal⟩
  rw [htotal, leapAround_eq_zero h]
  omega

/-- An hour and a bit less than a second from the middle of a leap second on. -/
theorem since_addDelta_exact_past_leap_second :
    let t : TimeOfDay := ⟨7199, 1500000000⟩
    let x : Delta := ⟨3600, 600000000⟩
    t.addDelta x = (⟨10800, 100000000⟩, 0) ∧
      (TimeOfDay.since ⟨10800, 100000000⟩ t).total = x.total := by
  intro t x
  obtain ⟨-, hexact, -⟩ := since_addDelta_exact (t := t) (x := x) (by decide) (by decide)
  have hsum : t.addDelta x = (⟨10800, 100000000⟩, 0) := by decide
  rw [hsum] at hexact
  exact ⟨hsum, hexact (.inr rfl)⟩

end CivilTime.TimeOfDay
