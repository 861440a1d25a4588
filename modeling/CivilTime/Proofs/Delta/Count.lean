import CivilTime.Delta.Scale
import CivilTime.Proofs.Delta.Division

/-!
# Counting units

The seconds that are shown of a delta are its nanoseconds, divided and rounded toward zero. Rounding
them again for a longer unit is no different from rounding once.
-/

namespace CivilTime.Delta

variable {d : Delta}

/-- Two quotients that are rounded toward zero are one by the product. -/
theorem tdiv_tdiv (n : Int) {j : Int} (hj : 0 ≤ j) (k : Int) :
    (n.tdiv j).tdiv k = n.tdiv (j * k) := by
  have hnonneg {m : Int} (hm : 0 ≤ m) : (m.tdiv j).tdiv k = m.tdiv (j * k) := by
    rw [Int.tdiv_eq_ediv_of_nonneg hm, Int.tdiv_eq_ediv_of_nonneg (Int.ediv_nonneg hm hj),
      Int.tdiv_eq_ediv_of_nonneg hm, Int.ediv_ediv_of_nonneg hj]
  rcases Int.le_total 0 n with hn | hn
  · exact hnonneg hn
  · have hneg := hnonneg (Int.neg_nonneg_of_nonpos hn)
    rwa [Int.neg_tdiv, Int.neg_tdiv, Int.neg_tdiv, Int.neg_inj] at hneg

theorem wholeSeconds_eq_tdiv (h : d.Canonical) : d.wholeSeconds = d.total.tdiv nanosPerSecond := by
  have hparts := d.wholeSeconds_add_subsecNanos
  have hrest := subsecNanos_bounds h
  have hsign := parts_same_sign h
  refine (tdiv_eq_of_remainder (by decide) hparts ?_ ?_ ?_).symm <;>
    simp only [nanosPerSecond] at * <;> omega

/-- Whole units of some seconds each. -/
theorem wholeSeconds_tdiv (h : d.Canonical) (k : Int) :
    d.wholeSeconds.tdiv k = d.total.tdiv (nanosPerSecond * k) := by
  rw [wholeSeconds_eq_tdiv h, tdiv_tdiv _ (by decide)]

theorem wholeDays_eq_tdiv (h : d.Canonical) : d.wholeDays = d.total.tdiv Scale.days.nanos :=
  wholeSeconds_tdiv h secondsPerDay

end CivilTime.Delta
