import CivilTime.Proofs.TimeOfDay.Sum

/-!
# Differences of times of day

The difference of two times counts their nanoseconds, and one second more if the time
with the smaller number of seconds is in a leap second.
-/

namespace CivilTime.TimeOfDay

/-- The leap second, in seconds, that a difference counts on top of the times: that
of the time with the smaller number of seconds. -/
def leapBetween (t other : TimeOfDay) : Int :=
  if t.secs > other.secs ∧ other.InLeapSecond then 1
  else if t.secs < other.secs ∧ t.InLeapSecond then -1
  else 0

variable {t other : TimeOfDay}

theorem leapBetween_cases (t other : TimeOfDay) :
    (other.secs < t.secs ∧ other.InLeapSecond) ∧ leapBetween t other = 1 ∨
    (t.secs < other.secs ∧ t.InLeapSecond) ∧ leapBetween t other = -1 ∨
    (¬(other.secs < t.secs ∧ other.InLeapSecond) ∧ ¬(t.secs < other.secs ∧ t.InLeapSecond)) ∧
      leapBetween t other = 0 := by
  rw [leapBetween]
  split
  case isTrue hother => exact .inl ⟨hother, rfl⟩
  case isFalse hother =>
    split
    case isTrue ht => exact .inr (.inl ⟨ht, rfl⟩)
    case isFalse ht => exact .inr (.inr ⟨⟨hother, ht⟩, rfl⟩)

theorem leapBetween_swap (t other : TimeOfDay) : leapBetween other t = -leapBetween t other := by
  have h := leapBetween_cases t other
  have hswap := leapBetween_cases other t
  simp only [InLeapSecond] at h hswap
  omega

theorem canonical_since (t other : TimeOfDay) : (t.since other).Canonical := by
  simp only [since, Delta.Canonical, nanosPerSecond]
  omega

theorem total_since (t other : TimeOfDay) :
    (t.since other).total = t.total - other.total + leapBetween t other * nanosPerSecond := by
  change (t.secs - other.secs + leapBetween t other + (t.frac - other.frac) / nanosPerSecond) *
    nanosPerSecond + (t.frac - other.frac) % nanosPerSecond = _
  simp only [total, nanosPerSecond]
  omega

/-- Within a second only the fractions count, also if it is a leap second. -/
theorem total_since_of_same_second (h : t.secs = other.secs) :
    (t.since other).total = t.frac - other.frac := by
  have hleap : leapBetween t other = 0 := by
    rw [leapBetween, if_neg (by omega), if_neg (by omega)]
  rw [total_since, hleap]
  simp only [total, h]
  omega

/-- A difference is at most a day and two seconds either way. -/
theorem total_since_bounds (ht : t.OnClock) (ho : other.OnClock) :
    -(nanosPerDay + 2 * nanosPerSecond) ≤ (t.since other).total ∧
      (t.since other).total ≤ nanosPerDay + 2 * nanosPerSecond := by
  have hleap := leapBetween_cases t other
  rw [total_since]
  simp only [OnClock, total, nanosPerDay, secondsPerDay, nanosPerSecond] at *
  omega

theorem lt_trichotomy (t other : TimeOfDay) : t < other ∨ t = other ∨ other < t := by
  obtain ⟨s, f⟩ := t
  obtain ⟨s', f'⟩ := other
  change (s < s' ∨ s = s' ∧ f < f') ∨ _ ∨ (s' < s ∨ s' = s ∧ f' < f)
  rw [mk.injEq]
  omega

theorem leapBetween_of_plain (ht : t.Plain) (ho : other.Plain) : leapBetween t other = 0 := by
  rw [leapBetween, if_neg fun h => ho.not_inLeapSecond h.2, if_neg fun h => ht.not_inLeapSecond h.2]

end CivilTime.TimeOfDay
