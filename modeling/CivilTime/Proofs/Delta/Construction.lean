import CivilTime.Proofs.Delta.Arithmetic
import CivilTime.Proofs.Micro
import CivilTime.Proofs.Packed.RoundTrip

/-!
# The deltas that can be made

Deltas are made of parts, of a number of units, of durations with microseconds and of texts, and
deltas that were made are calculated with. All ways end at one check of the range, or stay clear
of its ends. So what is made is canonical and in range, and every such delta is made, since its
own parts make it.
-/

namespace CivilTime.Delta

variable {d e : Delta} {u : Scale} {n : Int}

/-- The delta is the result of some calls. -/
inductive Made : Delta → Prop
  | new {secs nanos : Int} {d : Delta} (h : new? secs nanos = .ok d) : Made d
  | ofCount {u : Scale} {n : Int} {d : Delta} (h : Delta.ofCount u n = .ok d) : Made d
  | ofMicro {m : Micro.Delta} {d : Delta} (hm : m.InRange) (h : Delta.ofMicro m = .ok d) : Made d
  | parse {s : String} {d : Delta} (h : Delta.parse s = .ok d) : Made d
  | zero : Made zero
  | min : Made min
  | max : Made max
  | add {a b d : Delta} (ha : Made a) (hb : Made b) (h : a.add? b = some d) : Made d
  | sub {a b d : Delta} (ha : Made a) (hb : Made b) (h : a.sub? b = some d) : Made d
  | mul {a d : Delta} {k : Int} (ha : Made a) (h : a.mul? k = some d) : Made d
  | div {a d : Delta} {k : Int} (ha : Made a) (h : a.div? k = some d) : Made d
  | neg {d : Delta} (hd : Made d) : Made (-d)
  | abs {d : Delta} (hd : Made d) : Made d.abs

/-! ## One check of the range -/

theorem inRange_of_check? (hd : d.Canonical) (h : d.check? = some e) : e.InRange :=
  ⟨canonical_of_check? hd h, (check?_eq_some_iff.mp h).2 ▸ (check?_eq_some_iff.mp h).1⟩

theorem new?_eq_ok {secs nanos : Int} :
    new? secs nanos = .ok d ↔ (mk secs nanos).InRange ∧ mk secs nanos = d := by
  constructor
  · intro h
    have hcanonical := gives_new? secs nanos d h
    simp only [new?, bind_eq_ok, orExceeds_eq_ok, check?_eq_some_iff] at h
    obtain ⟨-, -, -, -, -, -, hbounds, rfl⟩ := h
    exact ⟨⟨hcanonical, hbounds⟩, rfl⟩
  · rintro ⟨hrange, rfl⟩
    exact new?_of_inRange hrange

theorem ofCount_of_mem (h : u.least ≤ n ∧ n ≤ u.greatest) :
    ofCount u n = .ok (ofTotal (n * u.nanos)) := by
  rw [ofCount, checkRange, if_pos h]
  rfl

/-- The counts that are let through are of units so short that no check is needed. -/
theorem gives_ofCount_inRange (u : Scale) (n : Int) : Gives (ofCount u n) InRange := by
  intro d h
  simp only [ofCount, bind_eq_ok, checkRange_eq_ok, pure_eq_ok] at h
  obtain ⟨_, ⟨hcount, rfl⟩, rfl⟩ := h
  rw [inRange_iff (canonical_ofTotal _), total_ofTotal]
  cases u <;>
    simp only [Scale.least, Scale.greatest, Scale.nanos, maxTotal, minI32, maxI32, minI64,
      maxI64] at * <;>
    omega

theorem gives_ofMicro_inRange {m : Micro.Delta} (hm : m.InRange) :
    Gives (ofMicro m) InRange := by
  intro d h
  have hcanonical := gives_ofMicro hm d h
  rw [ofMicro] at h
  split at h
  case isTrue => cases h
  case isFalse =>
    obtain ⟨hbounds, rfl⟩ := check?_eq_some_iff.mp (orExceeds_eq_ok.mp h)
    exact ⟨hcanonical, hbounds⟩

theorem gives_parse_inRange (s : String) : Gives (parse s) InRange := by
  intro d h
  simp only [parse, bind_eq_ok, pure_eq_ok, orExceeds_eq_ok] at h
  obtain ⟨⟨negative, secs, nanos⟩, hfields, e, hcheck, rfl⟩ := h
  have he : e.InRange := inRange_of_check? (parseFields_nanos hfields) hcheck
  split
  · exact inRange_neg he
  · exact he

/-! ## Calculating -/

theorem inRange_add? {a b : Delta} (ha : a.InRange) (hb : b.InRange) (h : a.add? b = some d) :
    d.InRange :=
  inRange_of_check? (canonical_carry_add ha.1 hb.1) h

theorem inRange_sub? {a b : Delta} (ha : a.InRange) (hb : b.InRange) (h : a.sub? b = some d) :
    d.InRange :=
  inRange_of_check? (canonical_carry_sub ha.1 hb.1) h

theorem inRange_mul? {a : Delta} {k : Int} (h : a.mul? k = some d) : d.InRange :=
  inRange_of_check? (canonical_split_mul a k) h

theorem inRange_div? {a : Delta} {k : Int} (ha : a.InRange) (h : a.div? k = some d) :
    d.InRange := by
  by_cases hk : k = 0
  · rw [div?, if_pos hk] at h
    cases h
  · rw [div?_eq_check?_quotient hk] at h
    exact inRange_of_check? (canonical_quotient ha.1 hk) h

/-! ## What is made -/

theorem Made.inRange (h : d.Made) : d.InRange := by
  induction h with
  | new h =>
    obtain ⟨hrange, rfl⟩ := new?_eq_ok.mp h
    exact hrange
  | ofCount h => exact gives_ofCount_inRange _ _ _ h
  | ofMicro hm h => exact gives_ofMicro_inRange hm _ h
  | parse h => exact gives_parse_inRange _ _ h
  | zero => exact inRange_zero
  | min => decide
  | max => decide
  | add _ _ h iha ihb => exact inRange_add? iha ihb h
  | sub _ _ h iha ihb => exact inRange_sub? iha ihb h
  | mul _ h _ => exact inRange_mul? h
  | div _ h iha => exact inRange_div? iha h
  | neg _ ihd => exact inRange_neg ihd
  | abs _ ihd => exact inRange_abs ihd

/-- The deltas that can be made are those in range. -/
theorem made_iff_inRange : d.Made ↔ d.InRange :=
  ⟨Made.inRange, fun h => .new (new?_eq_ok.mpr ⟨h, rfl⟩)⟩

end CivilTime.Delta
