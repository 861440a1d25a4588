import CivilTime.Calculator.Operation
import CivilTime.Proofs.Delta.Arithmetic

/-!
# Quotients of deltas

A delta is divided in two parts, the nanoseconds apart from those that the seconds leave, and
each part is rounded toward zero by itself. The two remainders add up. As long as their sum is a
remainder of the whole delta, the quotient is that of the numbers of nanoseconds, rounded toward
zero. Otherwise it is one nanosecond off. This happens neither to whole seconds nor wherever the
divisor divides the nanoseconds.
-/

namespace CivilTime

namespace Delta

variable {d q m : Delta} {k : Int}

/-! ## Remainders of truncated division -/

/-- A remainder is smaller than the divisor and has the sign of the dividend. -/
theorem tmod_bounds (n : Int) (hk : k ≠ 0) :
    (n.tmod k).natAbs < k.natAbs ∧ (0 ≤ n → 0 ≤ n.tmod k) ∧ (n ≤ 0 → n.tmod k ≤ 0) := by
  refine ⟨natAbs_tmod_lt n hk, Int.tmod_nonneg k, ?_⟩
  intro hn
  have hneg := Int.tmod_nonneg k (Int.neg_nonneg_of_nonpos hn)
  rw [Int.neg_tmod] at hneg
  omega

/-- These bounds on what is left over make a number the quotient. -/
theorem tdiv_eq_of_remainder {n r s : Int} (hk : k ≠ 0) (h : s * k + r = n)
    (hr : r.natAbs < k.natAbs) (hpos : 0 ≤ n → 0 ≤ r) (hneg : n ≤ 0 → r ≤ 0) :
    n.tdiv k = s := by
  have hsum : r + k * s = n := by rw [Int.mul_comm, Int.add_comm, h]
  rcases Int.le_total 0 n with hn | hn
  · have hlo := hpos hn
    exact ((Int.tdiv_tmod_unique hn hk).mpr ⟨hsum, hlo, by omega⟩).1
  · have hhi := hneg hn
    exact ((Int.tdiv_tmod_unique' hn hk).mpr ⟨hsum, by omega, hhi⟩).1

/-! ## What the two parts leave over -/

/-- The remainders of the two parts together. -/
def leftOver (d : Delta) (k : Int) : Int :=
  (d.secs.tmod k * nanosPerSecond).tmod k + d.nanos.tmod k

/-- The remainders together do not go against the sign of the delta, and do not make up
another unit of the quotient. -/
def RemaindersFit (d : Delta) (k : Int) : Prop :=
  (d.secs < 0 → d.leftOver k ≤ 0) ∧ (0 ≤ d.secs → d.leftOver k < k.natAbs)

instance (d : Delta) (k : Int) : Decidable (d.RemaindersFit k) :=
  inferInstanceAs (Decidable (_ ∧ _))

/-- By how much the truncated quotient is greater than the one of the two parts. -/
def shortfall (d : Delta) (k : Int) : Int := if d.RemaindersFit k then 0 else k.sign

theorem shortfall_cases (d : Delta) (k : Int) :
    d.RemaindersFit k ∧ d.shortfall k = 0 ∨ ¬d.RemaindersFit k ∧ d.shortfall k = k.sign := by
  rw [shortfall]
  split
  case isTrue hfit => exact .inl ⟨hfit, rfl⟩
  case isFalse hfit => exact .inr ⟨hfit, rfl⟩

/-- The two quotients and what is left over make up the delta. -/
theorem quotient_mul_add_leftOver (d : Delta) (k : Int) :
    (d.quotient k).total * k + d.leftOver k = d.total := by
  have hsecs := Int.tdiv_mul_add_tmod d.secs k
  have hleft := Int.tdiv_mul_add_tmod (d.secs.tmod k * nanosPerSecond) k
  have hnanos := Int.tdiv_mul_add_tmod d.nanos k
  have hexpand : (d.quotient k).total * k = d.secs.tdiv k * k * nanosPerSecond +
      (d.nanos.tdiv k * k + (d.secs.tmod k * nanosPerSecond).tdiv k * k) := by
    rw [quotient, total_carry, Int.add_mul, Int.add_mul, Int.mul_right_comm]
  rw [hexpand, leftOver, total]
  simp only [nanosPerSecond] at *
  omega

/-- What is left over goes against the sign of the delta, or exceeds the divisor, by less than
the divisor, and never does both. -/
theorem leftOver_bounds (hd : d.Canonical) (hk : k ≠ 0) :
    (0 ≤ d.secs → 0 ≤ d.leftOver k ∧ d.leftOver k < 2 * k.natAbs) ∧
      (d.secs < 0 → (d.leftOver k).natAbs < k.natAbs) ∧ (d.total = 0 → d.leftOver k = 0) := by
  obtain ⟨-, hpos, hneg⟩ := tmod_bounds d.secs hk
  obtain ⟨hsecs, hsecsPos, hsecsNeg⟩ := tmod_bounds (d.secs.tmod k * nanosPerSecond) hk
  obtain ⟨hnanos, hnanosPos, hnanosNeg⟩ := tmod_bounds d.nanos hk
  simp only [Canonical, leftOver, total, nanosPerSecond] at *
  omega

theorem total_quotient (hd : d.Canonical) (hk : k ≠ 0) :
    (d.quotient k).total = d.total.tdiv k - d.shortfall k := by
  have hsum := quotient_mul_add_leftOver d k
  have hbounds := leftOver_bounds hd hk
  have hsign : d.secs < 0 ↔ d.total < 0 := by
    simp only [Canonical, total, nanosPerSecond] at *
    omega
  have hunit : k.sign * k = k.natAbs := by rw [Int.mul_comm, Int.mul_sign_self]
  rcases shortfall_cases d k with ⟨hfit, hshort⟩ | ⟨hfit, hshort⟩
  · have hquotient : d.total.tdiv k = (d.quotient k).total := by
      simp only [RemaindersFit] at hfit
      refine tdiv_eq_of_remainder hk hsum ?_ ?_ ?_ <;> omega
    omega
  · -- One unit more of the quotient leaves a remainder of the whole.
    have hnext : ((d.quotient k).total + k.sign) * k + (d.leftOver k - k.natAbs) = d.total := by
      rw [Int.add_mul, hunit]
      omega
    have hquotient : d.total.tdiv k = (d.quotient k).total + k.sign := by
      simp only [RemaindersFit] at hfit
      refine tdiv_eq_of_remainder hk hnext ?_ ?_ ?_ <;> omega
    omega

theorem shortfall_eq_zero_iff (hk : k ≠ 0) : d.shortfall k = 0 ↔ d.RemaindersFit k := by
  have hsign : k.sign ≠ 0 := fun hzero => hk (Int.sign_eq_zero_iff_zero.mp hzero)
  rcases shortfall_cases d k with ⟨hfit, hshort⟩ | ⟨hfit, hshort⟩
  · exact iff_of_true hshort hfit
  · rw [hshort]
    exact iff_of_false hsign hfit

/-- Nothing is lost where the nanoseconds are divided without remainder. -/
theorem remaindersFit_of_dvd_nanos (hk : k ≠ 0) (h : k ∣ d.nanos) : d.RemaindersFit k := by
  obtain ⟨-, hpos, hneg⟩ := tmod_bounds d.secs hk
  obtain ⟨hsecs, -, hsecsNeg⟩ := tmod_bounds (d.secs.tmod k * nanosPerSecond) hk
  have hnanos : d.nanos.tmod k = 0 := Int.dvd_iff_tmod_eq_zero.mp h
  simp only [RemaindersFit, leftOver, hnanos, nanosPerSecond] at *
  omega

/-! ## Quotients in range -/

/-- By one or minus one nothing is lost, and any other divisor leaves room for a nanosecond. -/
theorem inRange_quotient (hd : d.InRange) (hk : k ≠ 0) : (d.quotient k).InRange := by
  have hfits := (inRange_iff_fits hd.1).mp hd
  have htotal := total_quotient hd.1 hk
  rw [inRange_iff_fits (canonical_quotient hd.1 hk)]
  by_cases hunit : k.natAbs = 1
  · have hdvd : k ∣ d.nanos := Int.natAbs_dvd_natAbs.mp (hunit ▸ Nat.one_dvd _)
    have hshort := (shortfall_eq_zero_iff hk).mpr (remaindersFit_of_dvd_nanos hk hdvd)
    have hle := Int.natAbs_tdiv_le_natAbs d.total k
    simp only [Fits] at *
    omega
  · have hhalf : (d.total.tdiv k).natAbs ≤ d.total.natAbs / 2 := by
      rw [Int.natAbs_tdiv]
      exact Nat.div_le_div_left (by omega) (by decide)
    have hsign : k.sign.natAbs = 1 := Int.natAbs_sign_of_ne_zero hk
    have hshort := shortfall_cases d k
    simp only [Fits, maxTotal] at *
    omega

/-- There is a quotient by every number but zero. -/
theorem div?_eq_some_quotient (hd : d.InRange) (hk : k ≠ 0) : d.div? k = some (d.quotient k) := by
  rw [div?_eq_check?_quotient hk]
  exact if_pos (inRange_quotient hd hk).2

/-! ## When quotients are truncated -/

theorem total_quotient_eq_iff (hd : d.Canonical) (hk : k ≠ 0) :
    (d.quotient k).total = d.total.tdiv k ↔ d.RemaindersFit k := by
  rw [total_quotient hd hk, ← shortfall_eq_zero_iff hk]
  omega

/-- An exact multiple is divided exactly if its remainders fit. -/
theorem total_quotient_mul_eq_iff (hd : d.Canonical) (hk : k ≠ 0) (h : k ∣ d.total) :
    (d.quotient k).total * k = d.total ↔ d.RemaindersFit k := by
  rw [← total_quotient_eq_iff hd hk]
  constructor
  · intro hmul
    rw [← hmul, Int.mul_tdiv_cancel _ hk]
  · intro htdiv
    rw [htdiv, Int.tdiv_mul_cancel h]

/-- Dividing takes a multiple back to the delta if the remainders of the multiple fit. -/
theorem div?_mul?_eq_iff (hd : d.InRange) (hk : k ≠ 0) (h : d.mul? k = some m) :
    m.div? k = some d ↔ m.RemaindersFit k := by
  obtain ⟨hm, htotal⟩ := (computes_mul? d k).of_eq_some h
  have hback : m.total.tdiv k = d.total := by rw [htotal, Int.mul_tdiv_cancel _ hk]
  rw [div?_eq_some_quotient hm hk, Option.some.injEq, ← total_quotient_eq_iff hm.1 hk, hback]
  constructor
  · intro heq
    rw [heq]
  · exact eq_of_total_eq (canonical_quotient hm.1 hk) hd.1

/-- A delta and the negated one have opposite quotients only if both are truncated, since
whatever they fall short of would have the same sign for both. -/
theorem div?_neg_eq_iff (hd : d.InRange) (hk : k ≠ 0) :
    (-d).div? k = some (-d.quotient k) ↔ d.RemaindersFit k ∧ (-d).RemaindersFit k := by
  have hneg := inRange_neg hd
  have hquotient := canonical_quotient hd.1 hk
  have hsign : k.sign ≠ 0 := fun hzero => hk (Int.sign_eq_zero_iff_zero.mp hzero)
  have htotal := total_quotient hd.1 hk
  have htotalNeg := total_quotient hneg.1 hk
  rw [total_neg, Int.neg_tdiv] at htotalNeg
  rw [div?_eq_some_quotient hneg hk, Option.some.injEq]
  have heq : (-d).quotient k = -d.quotient k ↔ d.shortfall k + (-d).shortfall k = 0 := by
    constructor
    · intro h
      have htotals := congrArg total h
      rw [total_neg] at htotals
      omega
    · intro h
      refine eq_of_total_eq (canonical_quotient hneg.1 hk) (canonical_neg hquotient) ?_
      rw [total_neg]
      omega
  have hshort := shortfall_cases d k
  have hshortNeg := shortfall_cases (-d) k
  rw [heq, ← shortfall_eq_zero_iff hk, ← shortfall_eq_zero_iff hk]
  omega

end Delta

namespace Value

variable {d : Delta} {k : Int}

theorem div_eq_ok (hd : d.InRange) (hk : k ≠ 0) (hword : minI32 ≤ k ∧ k ≤ maxI32) :
    div (delta d) (integer k) = .ok (delta (d.quotient k)) := by
  have hcheck : Delta.checkDivisor k = .ok k := if_pos hword
  rw [div, if_neg hk, hcheck]
  simp only [ok_bind, Delta.div?_eq_some_quotient hd hk]
  rfl

theorem eval_div_eq_ok (hd : d.InRange) (hk : k ≠ 0) (hword : minI32 ≤ k ∧ k ≤ maxI32) :
    DeltaOp.div.eval [delta d, integer k] = .ok (delta (d.quotient k)) := by
  have hcheck : Delta.checkDivisor k = .ok k := if_pos hword
  have heval : DeltaOp.div.eval [delta d, integer k] =
      Delta.checkDivisor k >>= fun k => pure (ofOption delta (d.div? k)) := rfl
  rw [heval, hcheck, ok_bind, Delta.div?_eq_some_quotient hd hk]
  rfl

/-- There always is a quotient by a number other than zero, and it is at most one nanosecond away
from the truncated one. It is the truncated one, which makes divisions of multiples exact and the
inverse of multiplying, exactly if the remainders of seconds and nanoseconds fit. Signs can be
taken out of a division exactly if they fit for the delta and for the negated one. -/
theorem div_truncates_iff (hd : d.InRange) (hk : k ≠ 0) (hword : minI32 ≤ k ∧ k ≤ maxI32) :
    ∃ q, (DeltaOp.div.eval [delta d, integer k] = .ok (delta q) ∧
        div (delta d) (integer k) = .ok (delta q) ∧ q.InRange) ∧
      q.total = d.total.tdiv k - d.shortfall k ∧
      (q.total = d.total.tdiv k ↔ d.RemaindersFit k) ∧
      (k ∣ d.total → (q.total * k = d.total ↔ d.RemaindersFit k)) ∧
      (∀ m, d.mul? k = some m → (m.div? k = some d ↔ m.RemaindersFit k)) ∧
      ((-d).div? k = some (-q) ↔ d.RemaindersFit k ∧ (-d).RemaindersFit k) := by
  refine ⟨d.quotient k, ⟨eval_div_eq_ok hd hk hword, div_eq_ok hd hk hword,
    Delta.inRange_quotient hd hk⟩, Delta.total_quotient hd.1 hk,
    Delta.total_quotient_eq_iff hd.1 hk, Delta.total_quotient_mul_eq_iff hd.1 hk, ?_,
    Delta.div?_neg_eq_iff hd hk⟩
  intro m hm
  exact Delta.div?_mul?_eq_iff hd hk hm

/-- Almost one and a half seconds before zero, by a negative number. The remainders fit only for
this delta, and not for the one as long after zero. -/
theorem div_truncates_iff_mixed_signs :
    ∃ q, div (delta ⟨-2, 500000001⟩) (integer (-7)) = .ok (delta q) ∧ q.total = 214285714 ∧
      (-(⟨-2, 500000001⟩ : Delta)).div? (-7) ≠ some (-q) := by
  obtain ⟨q, ⟨-, hdiv, -⟩, -, htruncated, -, -, hneg⟩ :=
    div_truncates_iff (d := ⟨-2, 500000001⟩) (k := -7) (by decide) (by decide) (by decide)
  refine ⟨q, hdiv, htruncated.mpr (by decide), ?_⟩
  intro hopposite
  exact absurd (hneg.mp hopposite).2 (by decide)

/-- A third of three times a delta is a nanosecond short of it: a second leaves one nanosecond and
the two nanoseconds leave two, which are another three. The third of the negated multiple is not
short, so that the two thirds are not opposite. -/
theorem div_multiple_short :
    let d : Delta := ⟨0, 333333334⟩
    let m : Delta := ⟨1, 2⟩
    d.mul? 3 = some m ∧ m.total = 3 * d.total ∧ m.total.tdiv 3 = d.total ∧
      div (delta m) (integer 3) = .ok (delta ⟨0, 333333333⟩) ∧
      (-m).div? 3 = some (-d) ∧ m.div? 3 ≠ some d :=
  ⟨by decide, by decide, by decide, rfl, by decide, by decide⟩

end Value

end CivilTime
