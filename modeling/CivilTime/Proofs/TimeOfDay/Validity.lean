import CivilTime.Proofs.Micro
import CivilTime.Proofs.TimeOfDay.Shift
import CivilTime.TimeOfDay.Text

/-!
# What operations keep of a time of day

Every time that is made is valid, and all operations but shifts keep times valid. A
shift keeps them on the clock, and valid as long as it does not move a leap second to
another second of the minute.
-/

namespace CivilTime.TimeOfDay

/-- A property that holds of every time which operations lead to. A leap second has to
keep it at the same second of any minute, and each time under the shifts that are
allowed for it. -/
structure Kept (p : TimeOfDay → Prop) (allowed : TimeOfDay → Int → Prop) : Prop where
  onClock : ∀ {t : TimeOfDay}, p t → t.OnClock
  of_valid : ∀ {t : TimeOfDay}, t.Valid → p t
  of_second : ∀ {t u : TimeOfDay}, p t → u.OnClock → u.secs % 60 = t.secs % 60 →
    (u.InLeapSecond → t.InLeapSecond) → p u
  shift : ∀ {t : TimeOfDay} {k : Int}, p t → allowed t k → p (t.shift k).1

theorem kept_onClock : Kept OnClock fun _ _ => True where
  onClock h := h
  of_valid h := h.onClock
  of_second _ hu _ _ := hu
  shift h _ := h.shift _

theorem kept_valid : Kept Valid KeepsSecond where
  onClock h := h.onClock
  of_valid h := h
  of_second ht hu hsecond hleap := ⟨hu.1, hu.2, fun hu => hsecond.trans (ht.2.2 (hleap hu))⟩
  shift h hk := (shift_valid_iff h _).mpr hk

/-! ## Making times -/

theorem valid_midnight : midnight.Valid := by decide

theorem gives_new? (hour minute second nanosecond : Int) :
    Gives (new? hour minute second nanosecond) Valid := by
  intro t h
  simp only [new?, bind_eq_ok, require_eq_ok, pure_eq_ok] at h
  obtain ⟨-, hfields, -, hfrac, -, hleap, rfl⟩ := h
  refine ⟨?_, hfrac, ?_⟩
  · simp only [secondsPerDay]
    omega
  · intro h
    have := hleap h
    simp only
    omega

theorem gives_parse (s : String) : Gives (parse s) Valid :=
  gives_then fun _ => gives_mapError.mpr (gives_new? _ _ _ _)

theorem gives_ofMicro {m : Micro.Time} (hm : m.InRange) : Gives (ofMicro m) Valid := by
  rw [ofMicro]
  refine gives_ite (fun _ => gives_error) fun _ => gives_ok.mpr ?_
  simp only [Micro.Time.InRange, Valid, InLeapSecond, secondsPerDay, nanosPerSecond] at *
  omega

theorem gives_withSecond {t : TimeOfDay} (ht : t.OnClock) (second : Int) :
    Gives (t.withSecond second) Valid := by
  intro u h
  simp only [withSecond, bind_eq_ok, require_eq_ok, pure_eq_ok] at h
  obtain ⟨-, hsecond, -, hleap, rfl⟩ := h
  simp only [OnClock, Valid, InLeapSecond, secondsPerDay, nanosPerSecond] at *
  omega

theorem gives_withNanosecond {t : TimeOfDay} (ht : t.OnClock) (nanosecond : Int) :
    Gives (t.withNanosecond nanosecond) Valid := by
  intro u h
  simp only [withNanosecond, bind_eq_ok, require_eq_ok, pure_eq_ok] at h
  obtain ⟨-, hfrac, -, hleap, rfl⟩ := h
  exact ⟨ht.1, hfrac, hleap⟩

namespace Kept

variable {p : TimeOfDay → Prop} {allowed : TimeOfDay → Int → Prop} {t : TimeOfDay} {x : Delta}

theorem addDelta (hp : Kept p allowed) (ht : p t) (hx : x.Canonical) : p (t.addDelta x).1 := by
  have hclock := hp.onClock ht
  by_cases hleap : t.InLeapSecond
  · rcases addDelta_of_inLeapSecond hclock hleap hx with
      ⟨-, hfrac, hsum⟩ | ⟨-, hlands⟩ | ⟨-, hlands⟩
    · rw [hsum]
      exact hp.of_second ht ⟨hclock.1, hfrac⟩ rfl fun _ => hleap
    · exact hp.of_valid hlands.plain.valid
    · exact hp.of_valid hlands.plain.valid
  · exact hp.of_valid (addDelta_of_plain (hclock.plain hleap) hx).plain.valid

theorem subDelta (hp : Kept p allowed) (ht : p t) (hx : x.Canonical) : p (t.subDelta x).1 :=
  hp.addDelta ht (Delta.canonical_neg hx)

theorem gives_withHour (hp : Kept p allowed) (ht : p t) (hour : Int) :
    Gives (t.withHour hour) p := by
  intro u h
  simp only [withHour, bind_eq_ok, require_eq_ok, pure_eq_ok] at h
  obtain ⟨-, hhour, rfl⟩ := h
  obtain ⟨hsecs, hfrac⟩ := hp.onClock ht
  simp only [secondsPerDay] at hsecs
  refine hp.of_second ht ⟨?_, hfrac⟩ ?_ fun h => h
  · simp only [secondsPerDay]
    omega
  · simp only
    omega

theorem gives_withMinute (hp : Kept p allowed) (ht : p t) (minute : Int) :
    Gives (t.withMinute minute) p := by
  intro u h
  simp only [withMinute, bind_eq_ok, require_eq_ok, pure_eq_ok] at h
  obtain ⟨-, hminute, rfl⟩ := h
  obtain ⟨hsecs, hfrac⟩ := hp.onClock ht
  simp only [secondsPerDay] at hsecs
  refine hp.of_second ht ⟨?_, hfrac⟩ ?_ fun h => h
  · simp only [secondsPerDay]
    omega
  · simp only
    omega

theorem gives_withSecond (hp : Kept p allowed) (ht : p t) (second : Int) :
    Gives (t.withSecond second) p :=
  (TimeOfDay.gives_withSecond (hp.onClock ht) second).mono fun _ => hp.of_valid

theorem gives_withNanosecond (hp : Kept p allowed) (ht : p t) (nanosecond : Int) :
    Gives (t.withNanosecond nanosecond) p :=
  (TimeOfDay.gives_withNanosecond (hp.onClock ht) nanosecond).mono fun _ => hp.of_valid

end Kept

end CivilTime.TimeOfDay
