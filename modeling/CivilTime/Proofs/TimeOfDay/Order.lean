import CivilTime.Calculator.Operation
import CivilTime.Proofs.Calculator.Comparison
import CivilTime.Proofs.TimeOfDay.Difference

/-!
# The order of times and their differences

A leap second that one of two times of day is in never turns their difference around: it has the
sign of their order, and is zero only between equal times. Taken the other way round it is the
same delta, negated.
-/

namespace CivilTime

namespace TimeOfDay

variable {a b : TimeOfDay}

/-! ## Differences the other way round -/

theorem total_since_swap (a b : TimeOfDay) : (b.since a).total = -(a.since b).total := by
  rw [total_since, total_since, leapBetween_swap]
  simp only [nanosPerSecond]
  omega

theorem since_eq_neg (a b : TimeOfDay) : a.since b = -(b.since a) := by
  refine Delta.eq_of_total_eq (canonical_since a b) (Delta.canonical_neg (canonical_since b a)) ?_
  rw [Delta.total_neg, total_since_swap]

/-! ## The sign of a difference -/

theorem total_since_neg (ha : a.OnClock) (hb : b.OnClock) (h : a < b) : (a.since b).total < 0 := by
  have hleap := leapBetween_cases a b
  change a.secs < b.secs ∨ a.secs = b.secs ∧ a.frac < b.frac at h
  -- A fraction of one second or more cannot make up for the seconds between the two, since the
  -- leap second that it comes from is counted on top of them.
  rw [total_since]
  simp only [OnClock, InLeapSecond, total, nanosPerSecond] at *
  omega

theorem total_since_neg_iff (ha : a.OnClock) (hb : b.OnClock) :
    (a.since b).total < 0 ↔ a < b := by
  refine ⟨fun hneg => ?_, total_since_neg ha hb⟩
  have hswap := total_since_swap a b
  rcases lt_trichotomy a b with hlt | rfl | hgt
  · exact hlt
  · omega
  · have := total_since_neg hb ha hgt
    omega

theorem since_lt_zero_iff (ha : a.OnClock) (hb : b.OnClock) : a.since b < Delta.zero ↔ a < b :=
  (Delta.lt_zero_iff (canonical_since a b)).trans (total_since_neg_iff ha hb)

theorem zero_lt_since_iff (ha : a.OnClock) (hb : b.OnClock) : Delta.zero < a.since b ↔ b < a := by
  have hswap := total_since_swap a b
  rw [Delta.zero_lt_iff (canonical_since a b), ← total_since_neg_iff hb ha]
  omega

theorem since_eq_zero_iff (ha : a.OnClock) (hb : b.OnClock) : a.since b = Delta.zero ↔ a = b := by
  rw [Delta.eq_zero_iff (canonical_since a b)]
  have hswap := total_since_swap a b
  constructor
  · intro hzero
    rcases lt_trichotomy a b with hlt | heq | hgt
    · have := total_since_neg ha hb hlt
      omega
    · exact heq
    · have := total_since_neg hb ha hgt
      omega
  · rintro rfl
    omega

end TimeOfDay

namespace Value

variable {a b : TimeOfDay}

/-- The difference of two times of day has the sign of their order, so that it compares with the
zero delta as they compare with each other, and taken the other way round it is negated. Leap
seconds make no exception, wherever in the minute they are. -/
theorem sub_times_fits_order (ha : a.OnClock) (hb : b.OnClock) :
    (sub (time a) (time b) = .ok (delta (a.since b)) ∧
      TimeOp.since.eval [time a, time b] = .ok (delta (a.since b))) ∧
    ((a.since b < Delta.zero ↔ a < b) ∧ (a.since b = Delta.zero ↔ a = b) ∧
      (Delta.zero < a.since b ↔ b < a)) ∧
    (∀ op, compare op (delta (a.since b)) (delta Delta.zero) = compare op (time a) (time b)) ∧
    same (delta (a.since b)) (delta Delta.zero) = same (time a) (time b) ∧
    a.since b = -(b.since a) := by
  have hneg := TimeOfDay.since_lt_zero_iff ha hb
  have hzero := TimeOfDay.since_eq_zero_iff ha hb
  have hpos := TimeOfDay.zero_lt_since_iff ha hb
  refine ⟨⟨rfl, rfl⟩, ⟨hneg, hzero, hpos⟩, fun op => ?_, ?_, TimeOfDay.since_eq_neg a b⟩
  · rw [compare_eq_ok op rfl, compare_eq_ok op rfl, compareBy_congr hneg hpos]
  · rw [same, same]
    exact decide_eq_decide.mpr hzero

/-- From the first nanosecond after a leap second back to the last one in it. -/
theorem sub_times_fits_order_last_nanosecond :
    let a : TimeOfDay := ⟨7199, 1999999999⟩
    let b : TimeOfDay := ⟨7200, 0⟩
    (a.InLeapSecond ∧ a < b) ∧ a.since b < Delta.zero ∧
      compare .lt (delta (a.since b)) (delta Delta.zero) = .ok true ∧ a.since b = -⟨0, 1⟩ := by
  intro a b
  obtain ⟨-, ⟨hneg, -, -⟩, hcompare, -, hswap⟩ :=
    sub_times_fits_order (a := a) (b := b) (by decide) (by decide)
  have hlt : a < b := by decide
  have hback : b.since a = ⟨0, 1⟩ := by decide
  refine ⟨⟨by decide, hlt⟩, hneg.mpr hlt, ?_, ?_⟩
  · rw [hcompare]
    rfl
  · rw [hswap, hback]

end Value

end CivilTime
