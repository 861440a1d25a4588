import CivilTime.Delta

/-!
# Deltas as integers

A canonical delta is determined by its number of nanoseconds. The order of deltas is
that of these numbers, and carrying, negating and adding change them as the integers
say; the range of deltas is an interval of them.
-/

namespace CivilTime.Delta

variable {a b d : Delta} {s n : Int}

theorem eq_of_total_eq (ha : a.Canonical) (hb : b.Canonical) (h : a.total = b.total) : a = b := by
  obtain ⟨s, n⟩ := a
  obtain ⟨s', n'⟩ := b
  simp only [Canonical, total, nanosPerSecond] at ha hb h
  have hsecs : s = s' := by omega
  have hnanos : n = n' := by omega
  rw [hsecs, hnanos]

theorem lt_iff_total_lt (ha : a.Canonical) (hb : b.Canonical) : a < b ↔ a.total < b.total := by
  change a.secs < b.secs ∨ a.secs = b.secs ∧ a.nanos < b.nanos ↔ _
  simp only [Canonical, total, nanosPerSecond] at ha hb ⊢
  omega

theorem le_iff_total_le (ha : a.Canonical) (hb : b.Canonical) : a ≤ b ↔ a.total ≤ b.total := by
  change a.secs < b.secs ∨ a.secs = b.secs ∧ a.nanos ≤ b.nanos ↔ _
  simp only [Canonical, total, nanosPerSecond] at ha hb ⊢
  omega

theorem canonical_zero : zero.Canonical := by decide

theorem canonical_min : min.Canonical := by decide

theorem canonical_max : max.Canonical := by decide

@[simp] theorem total_zero : zero.total = 0 := rfl

@[simp] theorem total_min : min.total = -maxTotal := rfl

@[simp] theorem total_max : max.total = maxTotal := rfl

theorem lt_zero_iff (h : d.Canonical) : d < zero ↔ d.total < 0 :=
  lt_iff_total_lt h canonical_zero

theorem zero_lt_iff (h : d.Canonical) : zero < d ↔ 0 < d.total :=
  lt_iff_total_lt canonical_zero h

theorem eq_zero_iff (h : d.Canonical) : d = zero ↔ d.total = 0 :=
  ⟨congrArg total, eq_of_total_eq h canonical_zero⟩

/-! ## Carrying -/

/-- Carrying moves a second between the parts, and no time is lost by it. -/
@[simp] theorem total_carry (s n : Int) : (carry s n).total = s * nanosPerSecond + n := by
  rw [carry]
  split
  · simp only [total, nanosPerSecond]
    omega
  · split
    · simp only [total, nanosPerSecond]
      omega
    · rfl

/-- One second is enough if the nanoseconds are off by less than one. -/
theorem canonical_carry (hlo : -nanosPerSecond ≤ n) (hhi : n < 2 * nanosPerSecond) :
    (carry s n).Canonical := by
  simp only [nanosPerSecond] at hlo hhi
  rw [carry]
  split
  · simp only [Canonical, nanosPerSecond]
    omega
  · split <;> simp only [Canonical, nanosPerSecond] at * <;> omega

theorem canonical_carry_add (ha : a.Canonical) (hb : b.Canonical) :
    (carry (a.secs + b.secs) (a.nanos + b.nanos)).Canonical := by
  refine canonical_carry ?_ ?_ <;> simp only [Canonical, nanosPerSecond] at * <;> omega

theorem canonical_carry_sub (ha : a.Canonical) (hb : b.Canonical) :
    (carry (a.secs - b.secs) (a.nanos - b.nanos)).Canonical := by
  refine canonical_carry ?_ ?_ <;> simp only [Canonical, nanosPerSecond] at * <;> omega

theorem total_carry_add (a b : Delta) :
    (carry (a.secs + b.secs) (a.nanos + b.nanos)).total = a.total + b.total := by
  rw [total_carry]
  simp only [total, nanosPerSecond]
  omega

theorem total_carry_sub (a b : Delta) :
    (carry (a.secs - b.secs) (a.nanos - b.nanos)).total = a.total - b.total := by
  rw [total_carry]
  simp only [total, nanosPerSecond]
  omega

/-! ## Negating -/

theorem canonical_neg (h : d.Canonical) : (-d).Canonical := by
  change (neg d).Canonical
  rw [neg]
  split
  · simp [Canonical, nanosPerSecond]
  · simp only [Canonical, nanosPerSecond] at *
    omega

@[simp] theorem total_neg (d : Delta) : (-d).total = -d.total := by
  change (neg d).total = _
  rw [neg]
  split
  case isTrue hzero =>
    simp only [total, nanosPerSecond, hzero]
    omega
  case isFalse =>
    simp only [total, nanosPerSecond]
    omega

/-! ## Whole seconds and the rest -/

/-- The parts that are shown make up the delta. -/
theorem wholeSeconds_add_subsecNanos (d : Delta) :
    d.wholeSeconds * nanosPerSecond + d.subsecNanos = d.total := by
  simp only [wholeSeconds, subsecNanos, total, nanosPerSecond]
  split <;> omega

theorem subsecNanos_eq_total (h : d.wholeSeconds = 0) : d.subsecNanos = d.total := by
  rw [← wholeSeconds_add_subsecNanos, h, Int.zero_mul, Int.zero_add]

/-- The nanoseconds that are shown are less than a second either way. -/
theorem subsecNanos_bounds (h : d.Canonical) :
    -nanosPerSecond < d.subsecNanos ∧ d.subsecNanos < nanosPerSecond := by
  simp only [Canonical, subsecNanos, nanosPerSecond] at *
  split <;> omega

/-- Neither part that is shown goes against the other. -/
theorem parts_same_sign (h : d.Canonical) :
    (0 < d.wholeSeconds → 0 ≤ d.subsecNanos) ∧ (d.wholeSeconds < 0 → d.subsecNanos ≤ 0) := by
  simp only [Canonical, wholeSeconds, subsecNanos, nanosPerSecond] at *
  split <;> omega

/-! ## The range -/

theorem inRange_iff (h : d.Canonical) :
    d.InRange ↔ -maxTotal ≤ d.total ∧ d.total ≤ maxTotal := by
  rw [InRange, le_iff_total_le canonical_min h, le_iff_total_le h canonical_max, total_min,
    total_max]
  exact and_iff_right h

theorem check?_of_bounds (h : d.Canonical) (hlo : -maxTotal ≤ d.total) (hhi : d.total ≤ maxTotal) :
    d.check? = some d :=
  if_pos ((inRange_iff h).mpr ⟨hlo, hhi⟩).2

/-- The sum of two deltas is the sum of their numbers, as long as it is in range. -/
theorem add?_of_bounds (ha : a.Canonical) (hb : b.Canonical)
    (hlo : -maxTotal ≤ a.total + b.total) (hhi : a.total + b.total ≤ maxTotal) :
    ∃ sum, a.add? b = some sum ∧ sum.Canonical ∧ sum.total = a.total + b.total := by
  have hcanonical := canonical_carry_add ha hb
  have htotal := total_carry_add a b
  refine ⟨_, check?_of_bounds hcanonical ?_ ?_, hcanonical, htotal⟩ <;> omega

end CivilTime.Delta
