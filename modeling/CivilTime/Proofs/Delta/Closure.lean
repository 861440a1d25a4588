import CivilTime.Delta.Scale
import CivilTime.Delta.Text
import CivilTime.Packed
import CivilTime.Proofs.Delta.Total
import CivilTime.Proofs.Outcome
import CivilTime.Proofs.Text.Digits

/-!
# How deltas come about

Whatever makes a delta makes a canonical one: the checks of the range only let through
what is canonical already, and none of the calculations before them leaves more than a
second to be carried.
-/

namespace CivilTime.Delta

variable {a b d e : Delta}

theorem check?_eq_some_iff : d.check? = some e ↔ (min ≤ d ∧ d ≤ max) ∧ d = e := by
  rw [check?]
  split
  case isTrue h => exact ⟨fun hsome => ⟨h, Option.some.inj hsome⟩, fun he => congrArg some he.2⟩
  case isFalse h => exact ⟨nofun, fun he => absurd he.1 h⟩

theorem canonical_of_check? (hd : d.Canonical) (h : d.check? = some e) : e.Canonical :=
  (check?_eq_some_iff.mp h).2 ▸ hd

theorem canonical_ofTotal (n : Int) : (ofTotal n).Canonical := by
  simp only [ofTotal, Canonical, nanosPerSecond]
  omega

@[simp] theorem total_ofTotal (n : Int) : (ofTotal n).total = n := by
  simp only [ofTotal, total, nanosPerSecond]
  omega

@[simp] theorem gives_new? (secs nanos : Int) : Gives (new? secs nanos) Canonical := by
  intro d h
  simp only [new?, bind_eq_ok, checkRange_eq_ok, require_eq_ok, orExceeds_eq_ok,
    check?_eq_some_iff] at h
  obtain ⟨-, -, -, ⟨⟨hlo, -⟩, -⟩, -, hhi, -, rfl⟩ := h
  exact ⟨hlo, hhi⟩

@[simp] theorem gives_ofCount (u : Scale) (n : Int) : Gives (ofCount u n) Canonical := by
  rw [ofCount, gives_bind]
  intro n' _
  exact gives_pure.mpr (canonical_ofTotal _)

@[simp] theorem gives_unpack (bs : Bytes) : Gives (Delta.unpack bs) Canonical := by
  simp only [Delta.unpack, gives_bind, gives_new?, gives_true]

/-! ## Arithmetic -/

theorem canonical_add? (ha : a.Canonical) (hb : b.Canonical) (h : a.add? b = some d) :
    d.Canonical :=
  canonical_of_check? (canonical_carry_add ha hb) h

theorem canonical_sub? (ha : a.Canonical) (hb : b.Canonical) (h : a.sub? b = some d) :
    d.Canonical :=
  canonical_of_check? (canonical_carry_sub ha hb) h

theorem canonical_split_mul (d : Delta) (k : Int) :
    Canonical ⟨d.secs * k + d.nanos * k / nanosPerSecond, d.nanos * k % nanosPerSecond⟩ := by
  simp only [Canonical, nanosPerSecond]
  omega

theorem canonical_mul? {k : Int} (h : a.mul? k = some d) : d.Canonical :=
  canonical_of_check? (canonical_split_mul a k) h

/-- What is left of the seconds and the nanoseconds together make up less than a second
for each unit of the divisor. -/
theorem quotients_lt {nanos left m : Int} (hm : 0 < m) (hnanos : 0 ≤ nanos ∧ nanos < nanosPerSecond)
    (hleft : 0 ≤ left ∧ left < m) :
    (0 ≤ nanos / m ∧ 0 ≤ left * nanosPerSecond / m) ∧
      nanos / m + left * nanosPerSecond / m < nanosPerSecond := by
  simp only [nanosPerSecond] at *
  have hfirst := Int.mul_ediv_self_le (x := nanos) (k := m) (by omega)
  have hsecond := Int.mul_ediv_self_le (x := left * 1000000000) (k := m) (by omega)
  refine ⟨⟨Int.ediv_nonneg hnanos.1 (by omega), Int.ediv_nonneg (by omega) (by omega)⟩, ?_⟩
  apply Int.lt_of_mul_lt_mul_left (a := m) _ (by omega)
  rw [Int.mul_add]
  omega

/-- The signs of the divisor and of what is left do not matter for this. -/
theorem quotients_bounds {nanos left k : Int} (hnanos : 0 ≤ nanos ∧ nanos < nanosPerSecond)
    (hleft : left.natAbs < k.natAbs) :
    -nanosPerSecond ≤ nanos.tdiv k + (left * nanosPerSecond).tdiv k ∧
      nanos.tdiv k + (left * nanosPerSecond).tdiv k < 2 * nanosPerSecond := by
  obtain ⟨l, hl | hl⟩ := Int.eq_nat_or_neg left <;>
    obtain ⟨m, hm | hm⟩ := Int.eq_nat_or_neg k <;>
    subst hl hm
  all_goals
    have hquotients := quotients_lt (m := m) (by omega) hnanos
      (show 0 ≤ (l : Int) ∧ (l : Int) < m by omega)
    simp only [Int.tdiv_neg, Int.neg_tdiv, Int.neg_mul, Int.ediv_neg,
      Int.tdiv_eq_ediv_of_nonneg hnanos.1,
      Int.tdiv_eq_ediv_of_nonneg (show 0 ≤ (l : Int) * nanosPerSecond by
        simp only [nanosPerSecond]; omega)]
    simp only [nanosPerSecond] at *
    omega

/-- The quotient before its range is checked. -/
def quotient (d : Delta) (k : Int) : Delta :=
  carry (d.secs.tdiv k) (d.nanos.tdiv k + (d.secs.tmod k * nanosPerSecond).tdiv k)

theorem div?_eq_check?_quotient {k : Int} (hk : k ≠ 0) : d.div? k = (d.quotient k).check? := by
  have hleft : d.secs - d.secs.tdiv k * k = d.secs.tmod k := by rw [Int.tmod_def, Int.mul_comm]
  simp only [div?, if_neg hk, hleft]
  rfl

theorem natAbs_tmod_lt {k : Int} (n : Int) (hk : k ≠ 0) : (n.tmod k).natAbs < k.natAbs := by
  rw [Int.natAbs_tmod]
  exact Nat.mod_lt _ (Int.natAbs_pos.mpr hk)

/-- However the signs of the parts differ, one second is enough to carry. -/
theorem canonical_quotient {k : Int} (hd : d.Canonical) (hk : k ≠ 0) :
    (d.quotient k).Canonical := by
  obtain ⟨hlo, hhi⟩ := quotients_bounds hd (natAbs_tmod_lt d.secs hk)
  exact canonical_carry hlo hhi

theorem canonical_div? {k : Int} (ha : a.Canonical) (h : a.div? k = some d) : d.Canonical := by
  by_cases hk : k = 0
  · rw [div?, if_pos hk] at h
    cases h
  · rw [div?_eq_check?_quotient hk] at h
    exact canonical_of_check? (canonical_quotient ha hk) h

theorem canonical_abs (h : d.Canonical) : d.abs.Canonical := by
  rw [Delta.abs]
  split
  · exact canonical_neg h
  · exact h

/-! ## Reading -/

theorem readMagnitude?_nanos {cs : List Char} {secs nanos : Int}
    (h : readMagnitude? cs = some (secs, nanos)) : 0 ≤ nanos ∧ nanos < nanosPerSecond := by
  simp only [readMagnitude?, bind, Option.bind_eq_some_iff] at h
  obtain ⟨_, -, _, -, ⟨whole, _⟩, -, ⟨frac, _⟩, hfrac, _, -, hread⟩ := h
  split at hread
  · obtain ⟨-, rfl⟩ := Prod.mk.inj (Option.some.inj hread)
    have := Text.readFraction_lt 9 (Text.takeFraction?_isDigit hfrac)
    simp only [nanosPerSecond]
    omega
  · cases hread

theorem readFields?_nanos {cs : List Char} {negative : Bool} {secs nanos : Int}
    (h : readFields? cs = some (negative, secs, nanos)) : 0 ≤ nanos ∧ nanos < nanosPerSecond := by
  rw [readFields?.eq_def] at h
  split at h
  · obtain ⟨-, hparts⟩ := Prod.mk.inj (Option.some.inj h)
    obtain ⟨-, rfl⟩ := Prod.mk.inj hparts
    decide
  · split at h
    all_goals
      obtain ⟨⟨s, n⟩, hread, hparts⟩ := Option.map_eq_some_iff.mp h
      cases hparts
      exact readMagnitude?_nanos hread

theorem parseFields_nanos {s : String} {negative : Bool} {secs nanos : Int}
    (h : parseFields s = .ok (negative, secs, nanos)) : 0 ≤ nanos ∧ nanos < nanosPerSecond := by
  rw [parseFields] at h
  split at h
  case h_1 fields hread =>
    simp only [bind_eq_ok, pure_eq_ok] at h
    obtain ⟨-, -, rfl⟩ := h
    exact readFields?_nanos hread
  case h_2 => cases h

@[simp] theorem gives_parse (s : String) : Gives (Delta.parse s) Canonical := by
  intro d h
  simp only [Delta.parse, bind_eq_ok, pure_eq_ok, orExceeds_eq_ok] at h
  obtain ⟨⟨negative, secs, nanos⟩, hfields, e, hcheck, rfl⟩ := h
  have he : e.Canonical := canonical_of_check? (parseFields_nanos hfields) hcheck
  split
  · exact canonical_neg he
  · exact he

end CivilTime.Delta
