import Mathlib.Algebra.Ring.Int.Defs
import CivilTime.Proofs.Calculator.Comparison
import CivilTime.Proofs.Delta.Closure

/-!
# Calculating with deltas

A sum, a difference or a multiple of deltas has the number of nanoseconds that the integers
give, and there is one exactly if that number is in range. The range reaches equally far
either way, so that the negated delta and the one without its sign always exist. A list is
summed from its front; its sum fails as soon as a first part of the list has none.
-/

namespace CivilTime

namespace Delta

variable {a b d : Delta} {n : Int}

/-- A number of nanoseconds that a delta can have. -/
def Fits (n : Int) : Prop := n.natAbs ≤ maxTotal

instance : DecidablePred Fits := fun _ => inferInstanceAs (Decidable (_ ≤ _))

/-- The result is the delta with the given number of nanoseconds, and is missing exactly if
that number does not fit. -/
def Computes (r : Option Delta) (n : Int) : Prop :=
  (Fits n → ∃ d, r = some d ∧ d.InRange ∧ d.total = n) ∧ (r = none ↔ ¬Fits n)

theorem inRange_iff_fits (h : d.Canonical) : d.InRange ↔ Fits d.total := by
  rw [inRange_iff h, Fits]
  omega

theorem computes_check? (h : d.Canonical) : Computes d.check? d.total := by
  by_cases hfits : Fits d.total
  · have hrange := (inRange_iff_fits h).mpr hfits
    have hsome : d.check? = some d := if_pos hrange.2
    refine ⟨fun _ => ⟨d, hsome, hrange, rfl⟩, ?_⟩
    rw [hsome]
    exact ⟨nofun, fun hout => absurd hfits hout⟩
  · have hnone : d.check? = none := if_neg fun hin => hfits ((inRange_iff_fits h).mp ⟨h, hin⟩)
    exact ⟨fun hin => absurd hin hfits, fun _ => hfits, fun _ => hnone⟩

/-- A result that is there is in range and has the number. -/
theorem Computes.of_eq_some {r : Option Delta} (h : Computes r n) (hr : r = some d) :
    d.InRange ∧ d.total = n := by
  have hfits : Fits n := by
    by_contra hout
    rw [h.2.mpr hout] at hr
    cases hr
  obtain ⟨e, he, hresult⟩ := h.1 hfits
  obtain rfl := Option.some.inj (hr.symm.trans he)
  exact hresult

theorem computes_add? (ha : a.Canonical) (hb : b.Canonical) :
    Computes (a.add? b) (a.total + b.total) := by
  rw [← total_carry_add a b]
  exact computes_check? (canonical_carry_add ha hb)

theorem computes_sub? (ha : a.Canonical) (hb : b.Canonical) :
    Computes (a.sub? b) (a.total - b.total) := by
  rw [← total_carry_sub a b]
  exact computes_check? (canonical_carry_sub ha hb)

/-- Nothing is lost where the nanoseconds of a multiple are split into seconds and a rest. -/
theorem total_split_mul (d : Delta) (k : Int) :
    total ⟨d.secs * k + d.nanos * k / nanosPerSecond, d.nanos * k % nanosPerSecond⟩ =
      d.total * k := by
  have hexpand : (d.secs * nanosPerSecond + d.nanos) * k =
      d.secs * k * nanosPerSecond + d.nanos * k := by
    rw [Int.add_mul, Int.mul_right_comm]
  simp only [total]
  rw [hexpand]
  simp only [nanosPerSecond]
  omega

theorem computes_mul? (d : Delta) (k : Int) : Computes (d.mul? k) (d.total * k) := by
  rw [← total_split_mul]
  exact computes_check? (canonical_split_mul d k)

theorem inRange_zero : zero.InRange := by decide

/-! ## Signs -/

theorem inRange_neg (h : d.InRange) : (-d).InRange := by
  have hfits := (inRange_iff_fits h.1).mp h
  rw [inRange_iff_fits (canonical_neg h.1), total_neg, Fits, Int.natAbs_neg]
  exact hfits

/-- The sign of a delta is that of its seconds. -/
theorem total_abs (h : d.Canonical) : d.abs.total = d.total.natAbs := by
  rw [Delta.abs]
  split
  case isTrue hneg =>
    rw [total_neg]
    simp only [Canonical, total, nanosPerSecond] at *
    omega
  case isFalse hnonneg =>
    simp only [Canonical, total, nanosPerSecond] at *
    omega

theorem inRange_abs (h : d.InRange) : d.abs.InRange := by
  rw [Delta.abs]
  split
  · exact inRange_neg h
  · exact h

/-! ## Sums of lists -/

/-- The number of nanoseconds of some deltas together. -/
def sumTotal (ds : List Delta) : Int := (ds.map total).sum

@[simp] theorem sumTotal_nil : sumTotal [] = 0 := rfl

@[simp] theorem sumTotal_cons (d : Delta) (ds : List Delta) :
    sumTotal (d :: ds) = d.total + sumTotal ds := rfl

end Delta

namespace Value

open Delta (Fits sumTotal)

variable {a b : Delta}

/-- The fault of a sum of deltas that is out of range. -/
def sumOutOfRange : Fault := .outOfRange (exceeds .add .delta .delta true)

theorem add_of_fits (ha : a.InRange) (hb : b.InRange) (h : Fits (a.total + b.total)) :
    ∃ d, add (.delta a) (.delta b) = .ok (.delta d) ∧ d.InRange ∧ d.total = a.total + b.total := by
  obtain ⟨d, hsum, hd⟩ := (Delta.computes_add? ha.1 hb.1).1 h
  refine ⟨d, ?_, hd⟩
  rw [add, hsum]
  rfl

theorem add_of_not_fits (ha : a.InRange) (hb : b.InRange) (h : ¬Fits (a.total + b.total)) :
    add (.delta a) (.delta b) = .error sumOutOfRange := by
  have hnone := (Delta.computes_add? ha.1 hb.1).2.mpr h
  rw [add, hnone]
  rfl

/-- Summing goes on as long as every first part of the list fits on top of what there is. -/
theorem foldlM_add_of_fits {ds : List Delta} (hds : ∀ d ∈ ds, d.InRange) (ha : a.InRange)
    (h : ∀ front, front <+: ds → Fits (a.total + sumTotal front)) :
    ∃ d, (ds.map delta).foldlM add (.delta a) = .ok (.delta d) ∧ d.InRange ∧
      d.total = a.total + sumTotal ds := by
  induction ds generalizing a with
  | nil => exact ⟨a, rfl, ha, by simp⟩
  | cons d ds ih =>
    have hfirst : Fits (a.total + d.total) := by
      simpa using h [d] (List.cons_prefix_cons.mpr ⟨rfl, List.nil_prefix⟩)
    obtain ⟨e, hadd, he, htotal⟩ := add_of_fits ha (hds d List.mem_cons_self) hfirst
    obtain ⟨sum, hsum, hin, hrest⟩ := ih (fun d hd => hds d (List.mem_cons_of_mem _ hd)) he
      (fun front hfront => by
        have := h (d :: front) (List.cons_prefix_cons.mpr ⟨rfl, hfront⟩)
        rw [htotal, Int.add_assoc]
        exact this)
    refine ⟨sum, ?_, hin, ?_⟩
    · rw [List.map_cons, List.foldlM_cons, hadd]
      exact hsum
    · rw [hrest, htotal, Delta.sumTotal_cons, Int.add_assoc]

/-- Summing fails at the first part of the list that does not fit, whatever comes after it. -/
theorem foldlM_add_of_not_fits {ds front : List Delta} (hds : ∀ d ∈ ds, d.InRange)
    (ha : a.InRange) (hfront : front <+: ds) (h : ¬Fits (a.total + sumTotal front)) :
    (ds.map delta).foldlM add (.delta a) = .error sumOutOfRange := by
  have hfits := (Delta.inRange_iff_fits ha.1).mp ha
  induction ds generalizing a front with
  | nil =>
    obtain rfl := List.prefix_nil.mp hfront
    exact absurd (by simpa using hfits) h
  | cons d ds ih =>
    have hd := hds d List.mem_cons_self
    rw [List.map_cons, List.foldlM_cons]
    by_cases hfirst : Fits (a.total + d.total)
    · obtain ⟨e, hadd, he, htotal⟩ := add_of_fits ha hd hfirst
      rw [hadd]
      -- The part that does not fit has the first delta in it, since what there is fits.
      obtain rfl | ⟨rest, rfl, hrest⟩ := List.prefix_cons_iff.mp hfront
      · exact absurd (by simpa using hfits) h
      · refine ih (fun d hd => hds d (List.mem_cons_of_mem _ hd)) he hrest ?_
          ((Delta.inRange_iff_fits he.1).mp he)
        rw [htotal, Int.add_assoc]
        exact h
    · rw [add_of_not_fits ha hd hfirst]
      rfl

theorem sum_of_fits {ds : List Delta} (hds : ∀ d ∈ ds, d.InRange)
    (h : ∀ front, front <+: ds → Fits (sumTotal front)) :
    ∃ d, sum (ds.map delta) = .ok (.delta d) ∧ d.InRange ∧ d.total = sumTotal ds := by
  have hsum := foldlM_add_of_fits hds Delta.inRange_zero fun front hfront => by
    simpa using h front hfront
  simpa [sum] using hsum

theorem sum_eq_error_iff {ds : List Delta} (hds : ∀ d ∈ ds, d.InRange) :
    sum (ds.map delta) = .error sumOutOfRange ↔
      ∃ front, front <+: ds ∧ ¬Fits (sumTotal front) := by
  constructor
  · intro herror
    by_contra hnone
    obtain ⟨d, hsum, -⟩ := sum_of_fits hds fun front hfront =>
      Decidable.byContradiction fun h => hnone ⟨front, hfront, h⟩
    rw [herror] at hsum
    cases hsum
  · rintro ⟨front, hfront, h⟩
    exact foldlM_add_of_not_fits hds Delta.inRange_zero hfront (by simpa using h)

/-! ## Comparing -/

theorem compare_delta (op : Comparison) (a b : Delta) :
    compare op (.delta a) (.delta b) = .ok (holds op (compareBy a b)) :=
  compare_eq_ok op rfl

theorem compareBy_delta (ha : a.Canonical) (hb : b.Canonical) :
    compareBy a b = compareBy a.total b.total :=
  compareBy_congr (Delta.lt_iff_total_lt ha hb) (Delta.lt_iff_total_lt hb ha)

/-- Deltas are added, subtracted, multiplied, negated, compared and summed as their numbers
of nanoseconds are, and a result is missing exactly if its number is out of range. -/
theorem delta_arithmetic_exact {a b : Delta} (ha : a.InRange) (hb : b.InRange) :
    (Delta.Computes (a.add? b) (a.total + b.total) ∧
      Delta.Computes (a.sub? b) (a.total - b.total) ∧
      ∀ k, Delta.Computes (a.mul? k) (a.total * k)) ∧
    ((-a).InRange ∧ (-a).total = -a.total) ∧
    (a.abs.InRange ∧ a.abs.total = a.total.natAbs) ∧
    ((compare .lt (.delta a) (.delta b) = .ok true ↔ a.total < b.total) ∧
      (compare .le (.delta a) (.delta b) = .ok true ↔ a.total ≤ b.total) ∧
      (same (.delta a) (.delta b) = true ↔ a.total = b.total)) ∧
    ∀ ds : List Delta, (∀ d ∈ ds, d.InRange) →
      ((∀ front, front <+: ds → Fits (sumTotal front)) →
        ∃ d, sum (ds.map delta) = .ok (.delta d) ∧ d.InRange ∧ d.total = sumTotal ds) ∧
      (sum (ds.map delta) = .error sumOutOfRange ↔
        ∃ front, front <+: ds ∧ ¬Fits (sumTotal front)) := by
  refine ⟨⟨Delta.computes_add? ha.1 hb.1, Delta.computes_sub? ha.1 hb.1, Delta.computes_mul? a⟩,
    ⟨Delta.inRange_neg ha, Delta.total_neg a⟩, ⟨Delta.inRange_abs ha, Delta.total_abs ha.1⟩,
    ⟨?lt, ?le, ?same⟩, fun ds hds => ⟨sum_of_fits hds, sum_eq_error_iff hds⟩⟩
  case lt => rw [compare_delta, compareBy_delta ha.1 hb.1, Except.ok.injEq, holds_lt_iff]
  case le => rw [compare_delta, compareBy_delta ha.1 hb.1, Except.ok.injEq, holds_le_iff]
  case same =>
    rw [same, decide_eq_true_iff]
    exact ⟨congrArg Delta.total, Delta.eq_of_total_eq ha.1 hb.1⟩

/-- One nanosecond below the shortest delta there is none, not even on the way to a sum that
would be in range again. -/
theorem delta_arithmetic_exact_at_min :
    Delta.min.sub? ⟨0, 1⟩ = none ∧ Delta.min.abs.total = Delta.maxTotal ∧
      sum [delta Delta.min, delta ⟨-1, 999999999⟩, delta Delta.max] = .error sumOutOfRange := by
  obtain ⟨⟨-, hsub, -⟩, -, ⟨-, habs⟩, -, hsum⟩ :=
    delta_arithmetic_exact (a := Delta.min) (b := ⟨0, 1⟩) (by decide) (by decide)
  refine ⟨hsub.2.mpr (by decide), habs, ?_⟩
  refine (hsum [Delta.min, ⟨-1, 999999999⟩, Delta.max] (by decide)).2.mpr ?_
  exact ⟨[Delta.min, ⟨-1, 999999999⟩], by decide, by decide⟩

end Value

end CivilTime
