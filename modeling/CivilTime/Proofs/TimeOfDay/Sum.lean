import CivilTime.TimeOfDay
import CivilTime.Proofs.Delta.Total

/-!
# Adding a delta to a time of day

Outside of leap seconds, adding a delta is addition of nanoseconds up to whole days.
From within a leap second there are three ways: the time stays in it, it leaves it
forward, where the leap second takes a second of the delta, or it leaves it backward,
where the leap second counts for nothing. In each of them what does not fit into the
day is a whole number of days.
-/

namespace CivilTime.TimeOfDay

/-- The number of nanoseconds since midnight, a leap second counted on top of second 59. -/
def total (t : TimeOfDay) : Int := t.secs * nanosPerSecond + t.frac

/-- The number of nanoseconds of a day. -/
def nanosPerDay : Int := secondsPerDay * nanosPerSecond

/-- The seconds are those of a day and the fraction is less than two seconds. -/
def OnClock (t : TimeOfDay) : Prop :=
  (0 ≤ t.secs ∧ t.secs < secondsPerDay) ∧ 0 ≤ t.frac ∧ t.frac < 2 * nanosPerSecond

/-- A time of the day outside of leap seconds. -/
def Plain (t : TimeOfDay) : Prop :=
  (0 ≤ t.secs ∧ t.secs < secondsPerDay) ∧ 0 ≤ t.frac ∧ t.frac < nanosPerSecond

instance : DecidablePred OnClock := fun _ => inferInstanceAs (Decidable (_ ∧ _))

instance : DecidablePred Plain := fun _ => inferInstanceAs (Decidable (_ ∧ _))

variable {t u : TimeOfDay} {x : Delta}

theorem Valid.onClock (h : t.Valid) : t.OnClock := ⟨h.1, h.2.1⟩

theorem plain_iff : t.Plain ↔ t.Valid ∧ ¬t.InLeapSecond := by
  simp only [Plain, Valid, InLeapSecond, nanosPerSecond]
  omega

theorem Plain.valid (h : t.Plain) : t.Valid := (plain_iff.mp h).1

theorem Plain.onClock (h : t.Plain) : t.OnClock := h.valid.onClock

theorem Plain.not_inLeapSecond (h : t.Plain) : ¬t.InLeapSecond := (plain_iff.mp h).2

theorem OnClock.plain (h : t.OnClock) (hleap : ¬t.InLeapSecond) : t.Plain := by
  simp only [OnClock, Plain, InLeapSecond] at *
  omega

theorem Plain.total_bounds (h : t.Plain) : 0 ≤ t.total ∧ t.total < nanosPerDay := by
  simp only [Plain, total, nanosPerDay, secondsPerDay, nanosPerSecond] at *
  omega

theorem Plain.eq_of_total_eq (ht : t.Plain) (hu : u.Plain) (h : t.total = u.total) : t = u := by
  obtain ⟨s, f⟩ := t
  obtain ⟨s', f'⟩ := u
  simp only [Plain, total, nanosPerSecond] at ht hu h
  have hsecs : s = s' := by omega
  have hfrac : f = f' := by omega
  rw [hsecs, hfrac]

/-- A sum of a time and a delta, which falls on a time outside of leap seconds some
days away. The number of nanoseconds that were added up is given. -/
def Lands (r : TimeOfDay × Int) (n : Int) : Prop :=
  ∃ u days, r = (u, days * secondsPerDay) ∧ u.Plain ∧ u.total + days * nanosPerDay = n

theorem Lands.plain {r : TimeOfDay × Int} {n : Int} (h : Lands r n) : r.1.Plain := by
  obtain ⟨u, days, rfl, hplain, -⟩ := h
  exact hplain

theorem lands_addParts (secs : Int) {frac : Int} (hf : 0 ≤ frac ∧ frac < nanosPerSecond)
    (hx : x.Canonical) : Lands (addParts secs frac x) (secs * nanosPerSecond + frac + x.total) := by
  have hparts := x.wholeSeconds_add_subsecNanos
  have hrest := Delta.subsecNanos_bounds hx
  let sum := Delta.carry (secs + x.wholeSeconds) (frac + x.subsecNanos)
  have hcanonical : sum.Canonical := by
    refine Delta.canonical_carry ?_ ?_ <;> omega
  have htotal : sum.total = secs * nanosPerSecond + frac + x.total := by
    rw [Delta.total_carry, ← hparts]
    simp only [nanosPerSecond]
    omega
  refine ⟨⟨sum.secs % secondsPerDay, sum.nanos⟩, sum.secs / secondsPerDay, ?_, ?_, ?_⟩
  · refine Prod.ext rfl ?_
    change sum.secs - sum.secs % secondsPerDay = sum.secs / secondsPerDay * secondsPerDay
    simp only [secondsPerDay]
    omega
  · refine ⟨?_, hcanonical⟩
    simp only [secondsPerDay]
    omega
  · rw [← htotal]
    simp only [total, Delta.total, nanosPerDay, secondsPerDay, nanosPerSecond]
    omega

/-- Outside of leap seconds nothing but the sum counts. -/
theorem addDelta_of_plain (ht : t.Plain) (hx : x.Canonical) :
    Lands (t.addDelta x) (t.total + x.total) := by
  rw [addDelta, if_neg ht.not_inLeapSecond]
  exact lands_addParts t.secs ht.2 hx

/-- The three ways in which a sum can go on from a leap second. -/
theorem addDelta_of_inLeapSecond (ht : t.OnClock) (hleap : t.InLeapSecond) (hx : x.Canonical) :
    (x.wholeSeconds = 0 ∧
      (0 ≤ t.frac + x.subsecNanos ∧ t.frac + x.subsecNanos < 2 * nanosPerSecond) ∧
      t.addDelta x = (⟨t.secs, t.frac + x.subsecNanos⟩, 0)) ∨
    (2 * nanosPerSecond ≤ t.frac + x.total ∧
      Lands (t.addDelta x) (t.total - nanosPerSecond + x.total)) ∨
    (x.total ≤ -nanosPerSecond ∧ Lands (t.addDelta x) (t.total + x.total)) := by
  have hparts := x.wholeSeconds_add_subsecNanos
  have hrest := Delta.subsecNanos_bounds hx
  have hsign := Delta.parts_same_sign hx
  have hfrac : 0 ≤ t.frac - nanosPerSecond ∧ t.frac - nanosPerSecond < nanosPerSecond := by
    simp only [OnClock, InLeapSecond] at ht hleap
    omega
  rw [addDelta, if_pos hleap]
  split
  case isTrue hforward =>
    refine .inr (.inl ⟨?_, ?_⟩)
    · simp only [nanosPerSecond] at *
      omega
    · have hlands := lands_addParts t.secs hfrac hx
      rwa [show t.total - nanosPerSecond + x.total =
        t.secs * nanosPerSecond + (t.frac - nanosPerSecond) + x.total by
          simp only [total]
          omega]
  case isFalse hforward =>
    split
    case isTrue hbackward =>
      refine .inr (.inr ⟨?_, ?_⟩)
      · simp only [nanosPerSecond] at *
        omega
      · have hlands := lands_addParts (t.secs + 1) hfrac hx
        rwa [show t.total + x.total =
          (t.secs + 1) * nanosPerSecond + (t.frac - nanosPerSecond) + x.total by
            simp only [total, nanosPerSecond]
            omega]
    case isFalse hbackward =>
      refine .inl ⟨by omega, ?_, rfl⟩
      omega

/-- What does not fit into the day is a whole number of days. -/
theorem addDelta_snd_dvd (t : TimeOfDay) (x : Delta) :
    (t.addDelta x).2 = (t.addDelta x).2 / secondsPerDay * secondsPerDay := by
  have hwrap (secs frac : Int) :
      (wrap secs frac).2 = (wrap secs frac).2 / secondsPerDay * secondsPerDay := by
    simp only [wrap, secondsPerDay]
    omega
  rw [addDelta]
  split
  · split
    · exact hwrap _ _
    · split
      · exact hwrap _ _
      · rfl
  · exact hwrap _ _

end CivilTime.TimeOfDay
