import CivilTime.Calculator.Operation
import CivilTime.Proofs.Delta.Construction
import CivilTime.Proofs.Delta.Count

/-!
# Reading deltas

A delta stores its seconds rounded down, and shows them rounded toward zero. So are its counts of
all units, although long units are counted in steps, and short ones in the whole seconds and beside
them: each count is one quotient of the nanoseconds. Milliseconds and longer units always fit in 64
bits, and a delta that is made of a number of units counts as many of them.
-/

namespace CivilTime

namespace Delta

variable {d : Delta} {u : Scale} {n : Int}

/-! ## Parts of a second -/

/-- Whole multiples can be taken out of a quotient that is rounded toward zero if the rest does not
go against them. -/
theorem mul_add_tdiv {m r k : Int} (hk : 0 < k) (hsign : 0 ≤ m ∧ 0 ≤ r ∨ m ≤ 0 ∧ r ≤ 0) :
    (m * k + r).tdiv k = m + r.tdiv k := by
  have hnonneg {m r : Int} (hm : 0 ≤ m) (hr : 0 ≤ r) : (m * k + r).tdiv k = m + r.tdiv k := by
    have hsum : 0 ≤ m * k + r := Int.add_nonneg (Int.mul_nonneg hm (Int.le_of_lt hk)) hr
    rw [Int.tdiv_eq_ediv_of_nonneg hsum, Int.tdiv_eq_ediv_of_nonneg hr,
      Int.mul_add_ediv_right _ _ (Int.ne_of_gt hk)]
  rcases hsign with ⟨hm, hr⟩ | ⟨hm, hr⟩
  · exact hnonneg hm hr
  · have hneg := hnonneg (Int.neg_nonneg_of_nonpos hm) (Int.neg_nonneg_of_nonpos hr)
    rwa [Int.neg_mul, ← Int.neg_add, Int.neg_tdiv, Int.neg_tdiv, ← Int.neg_add, Int.neg_inj] at hneg

/-- The parts that are shown have the sign of the delta. -/
theorem parts_sign (h : d.Canonical) :
    (0 ≤ d.total → 0 ≤ d.wholeSeconds ∧ 0 ≤ d.subsecNanos) ∧
      (d.total ≤ 0 → d.wholeSeconds ≤ 0 ∧ d.subsecNanos ≤ 0) := by
  have hparts := d.wholeSeconds_add_subsecNanos
  have hrest := subsecNanos_bounds h
  have hsame := parts_same_sign h
  simp only [nanosPerSecond] at hparts hrest
  omega

/-- Counting the whole seconds and what is beside them in parts of a second is counting the
delta in them. -/
theorem countFine_eq_tdiv (h : d.Canonical) {perSecond k : Int} (hk : 0 < k)
    (hunit : perSecond * k = nanosPerSecond) (hpos : 0 < perSecond) :
    d.countFine perSecond = d.total.tdiv k := by
  have hlength : nanosPerSecond / perSecond = k := by
    rw [← hunit, Int.mul_ediv_cancel_left _ (Int.ne_of_gt hpos)]
  have hsign : 0 ≤ d.wholeSeconds * perSecond ∧ 0 ≤ d.subsecNanos ∨
      d.wholeSeconds * perSecond ≤ 0 ∧ d.subsecNanos ≤ 0 := by
    rcases Int.le_total 0 d.total with htotal | htotal
    · obtain ⟨hsecs, hnanos⟩ := (parts_sign h).1 htotal
      exact .inl ⟨Int.mul_nonneg hsecs (Int.le_of_lt hpos), hnanos⟩
    · obtain ⟨hsecs, hnanos⟩ := (parts_sign h).2 htotal
      exact .inr ⟨Int.mul_nonpos_of_nonpos_of_nonneg hsecs (Int.le_of_lt hpos), hnanos⟩
  rw [countFine, hlength, ← mul_add_tdiv hk hsign, Int.mul_assoc, hunit,
    wholeSeconds_add_subsecNanos]

/-! ## Counts -/

/-- Counts of milliseconds and of longer units fit in 64 bits. -/
theorem count_fits (hd : d.InRange) (hu : Scale.milliseconds.nanos ≤ u.nanos) :
    minI64 ≤ d.total.tdiv u.nanos ∧ d.total.tdiv u.nanos ≤ maxI64 := by
  obtain ⟨hlo, hhi⟩ := (inRange_iff hd.1).mp hd
  have hk : 0 < u.nanos := Int.lt_of_lt_of_le (by decide) hu
  have hlimit : maxTotal ≤ maxI64 * u.nanos := Int.mul_le_mul_of_nonneg_left hu (by decide)
  have hleast : (-maxI64 * u.nanos).tdiv u.nanos ≤ d.total.tdiv u.nanos := by
    refine Int.tdiv_le_tdiv hk ?_
    rw [Int.neg_mul]
    omega
  have hgreatest : d.total.tdiv u.nanos ≤ (maxI64 * u.nanos).tdiv u.nanos :=
    Int.tdiv_le_tdiv hk (by omega)
  rw [Int.mul_tdiv_cancel _ (Int.ne_of_gt hk)] at hleast hgreatest
  exact ⟨Int.le_trans (by decide) hleast, hgreatest⟩

theorem checkCount_of_fits (h : minI64 ≤ n ∧ n ≤ maxI64) : checkCount u n = .ok n := if_pos h

/-- However a unit is counted, its count is the quotient of the nanoseconds, as far as that fits. -/
theorem count_eq (hd : d.InRange) (u : Scale) :
    d.count u = checkCount u (d.total.tdiv u.nanos) := by
  cases u with
  | weeks =>
    rw [checkCount_of_fits (count_fits hd (by decide)), count, wholeDays_eq_tdiv hd.1,
      tdiv_tdiv _ (by decide)]
    rfl
  | days => rw [checkCount_of_fits (count_fits hd (by decide)), count, wholeDays_eq_tdiv hd.1]
  | hours | minutes =>
    rw [checkCount_of_fits (count_fits hd (by decide)), count, wholeSeconds_tdiv hd.1]
    rfl
  | seconds =>
    rw [checkCount_of_fits (count_fits hd (by decide)), count, wholeSeconds_eq_tdiv hd.1]
    rfl
  | milliseconds =>
    rw [checkCount_of_fits (count_fits hd (by decide))]
    exact congrArg Except.ok (countFine_eq_tdiv hd.1 (by decide) rfl (by decide))
  | microseconds =>
    exact congrArg (checkCount .microseconds)
      (countFine_eq_tdiv hd.1 (by decide) rfl (by decide))
  | nanoseconds => rw [count, Scale.nanos, Int.tdiv_one]

/-- What a delta is made of is what it counts. -/
theorem count_ofTotal (h : u.least ≤ n ∧ n ≤ u.greatest) :
    (ofTotal (n * u.nanos)).count u = .ok n := by
  have hrange := gives_ofCount_inRange u n _ (ofCount_of_mem h)
  have hnanos : u.nanos ≠ 0 := by cases u <;> decide
  have hfits : minI64 ≤ n ∧ n ≤ maxI64 := by
    cases u <;>
      simp only [Scale.least, Scale.greatest, minI32, maxI32, minI64, maxI64] at * <;>
      omega
  rw [count_eq hrange, total_ofTotal, Int.mul_tdiv_cancel _ hnanos, checkCount_of_fits hfits]

end Delta

namespace Value

open Delta (Scale)

/-- The whole seconds of a delta and the nanoseconds beside them make up the delta exactly, with
less than a second beside, and neither of them goes against its sign. The count of any unit is the
number of its nanoseconds by the length of the unit, rounded toward zero once, and fails exactly if
this does not fit in 64 bits, which milliseconds and longer units always do. Each number of units
that a delta can be made of is read back. -/
theorem counts_round_toward_zero :
    (∀ d : Delta, d.InRange →
      (∃ s n, (DeltaOp.count .seconds).eval [delta d] = .ok (integer s) ∧
        DeltaOp.subsecNanos.eval [delta d] = .ok (integer n) ∧
        s * nanosPerSecond + n = d.total ∧ (-nanosPerSecond < n ∧ n < nanosPerSecond) ∧
        (0 ≤ d.total → 0 ≤ s ∧ 0 ≤ n) ∧ (d.total ≤ 0 → s ≤ 0 ∧ n ≤ 0)) ∧
      ∀ u : Scale, (DeltaOp.count u).eval [delta d] =
          (if minI64 ≤ d.total.tdiv u.nanos ∧ d.total.tdiv u.nanos ≤ maxI64 then
            .ok (integer (d.total.tdiv u.nanos))
          else .error (.outOfRange (.count u.name))) ∧
        (Scale.milliseconds.nanos ≤ u.nanos →
          minI64 ≤ d.total.tdiv u.nanos ∧ d.total.tdiv u.nanos ≤ maxI64)) ∧
    ∀ (u : Scale) (n : Int), u.least ≤ n ∧ n ≤ u.greatest →
      ((DeltaOp.ofCount u).eval [integer n] >>= fun d => (DeltaOp.count u).eval [d]) =
        .ok (integer n) := by
  refine ⟨fun d hd => ⟨?parts, fun u => ⟨?counted, Delta.count_fits hd⟩⟩, fun u n hn => ?back⟩
  case parts =>
    obtain ⟨hpos, hneg⟩ := Delta.parts_sign hd.1
    exact ⟨_, _, rfl, rfl, d.wholeSeconds_add_subsecNanos, Delta.subsecNanos_bounds hd.1, hpos,
      hneg⟩
  case counted =>
    rw [DeltaOp.eval, Delta.count_eq hd, Delta.checkCount]
    split <;> rfl
  case back =>
    rw [DeltaOp.eval, asNamed, ok_bind, Delta.ofCount_of_mem hn]
    change (DeltaOp.count u).eval [delta (Delta.ofTotal (n * u.nanos))] = _
    rw [DeltaOp.eval, Delta.count_ofTotal hn]
    rfl

/-- Minus one and a half seconds, the least delta, which has too many microseconds, and the least
number of nanoseconds. -/
theorem counts_round_toward_zero_at_ends :
    (∃ s n, (DeltaOp.count .seconds).eval [delta ⟨-2, 500000000⟩] = .ok (integer s) ∧
      DeltaOp.subsecNanos.eval [delta ⟨-2, 500000000⟩] = .ok (integer n) ∧
      s * nanosPerSecond + n = -1500000000 ∧ s ≤ 0 ∧ n ≤ 0) ∧
    (DeltaOp.count .milliseconds).eval [delta Delta.min] = .ok (integer (-maxI64)) ∧
    (DeltaOp.count .microseconds).eval [delta Delta.min] =
      .error (.outOfRange (.count "microseconds")) ∧
    ((DeltaOp.ofCount .nanoseconds).eval [integer minI64] >>= fun d =>
      (DeltaOp.count .nanoseconds).eval [d]) = .ok (integer minI64) := by
  obtain ⟨hcounts, hback⟩ := counts_round_toward_zero
  obtain ⟨⟨s, n, hs, hn, hsum, -, -, hneg⟩, -⟩ := hcounts ⟨-2, 500000000⟩ (by decide)
  obtain ⟨-, hmin⟩ := hcounts Delta.min (by decide)
  have hmillis := (hmin .milliseconds).1
  have hmicros := (hmin .microseconds).1
  rw [if_pos (by decide)] at hmillis
  rw [if_neg (by decide)] at hmicros
  exact ⟨⟨s, n, hs, hn, hsum, hneg (by decide)⟩, hmillis, hmicros, hback _ _ (by decide)⟩

end Value

end CivilTime
