import CivilTime.LocalDateTime.Text
import CivilTime.Micro.Text
import CivilTime.OffsetDateTime
import CivilTime.Proofs.TimeOfDay.Validity

/-!
# What operations keep of the time of a datetime

The time of a datetime is either carried along or treated as the operations on times of
day treat it, whatever happens to the date.
-/

namespace CivilTime

namespace LocalDateTime

variable {t u : LocalDateTime} {x : Delta}

theorem time_addDelta? (h : t.addDelta? x = some u) : u.time = (t.time.addDelta x).1 := by
  obtain ⟨date, -, rfl⟩ := Option.map_eq_some_iff.mp h
  rfl

theorem time_subDelta? (h : t.subDelta? x = some u) : u.time = (t.time.subDelta x).1 := by
  obtain ⟨date, -, rfl⟩ := Option.map_eq_some_iff.mp h
  rfl

theorem setDate?_keeps {p : TimeOfDay → Prop} {date : Option Date} (ht : p t.time)
    (h : t.setDate? date = some u) : p u.time := by
  obtain ⟨d, -, rfl⟩ := Option.map_eq_some_iff.mp h
  exact ht

theorem time_shifted? {s : TimeOfDay × Int} (h : t.shifted? s = some u) : u.time = s.1 := by
  obtain ⟨d, -, rfl⟩ := Option.map_eq_some_iff.mp h
  rfl

theorem gives_mapDate {p : TimeOfDay → Prop} (h : p t.time) (f : Date → Outcome Date) :
    Gives (t.mapDate f) (p ·.time) :=
  gives_then fun _ => gives_pure.mpr h

theorem gives_mapTime {p : TimeOfDay → Prop} {f : TimeOfDay → Outcome TimeOfDay}
    (h : Gives (f t.time) p) : Gives (t.mapTime f) (p ·.time) :=
  h.bind fun _ hu => gives_pure.mpr hu

theorem gives_new? (year month day hour minute second nanosecond : Int) :
    Gives (new? year month day hour minute second nanosecond) (·.time.Valid) :=
  gives_then fun _ => (TimeOfDay.gives_new? _ _ _ _).bind fun _ hu => gives_pure.mpr hu

theorem gives_parse (s : String) : Gives (parse s) (·.time.Valid) :=
  gives_mapError.mpr (gives_then fun _ => gives_new? _ _ _ _ _ _ _)

theorem gives_ofMicro {m : Micro.DateTime} (hm : m.time.InRange) :
    Gives (ofMicro m) (·.time.Valid) := by
  intro t h
  rw [ofMicro] at h
  split at h
  · cases h
  · obtain ⟨time, htime, hpure⟩ := bind_eq_ok.mp h
    obtain rfl := pure_eq_ok.mp hpure
    exact TimeOfDay.gives_ofMicro hm time htime

end LocalDateTime

namespace TimeOfDay.Kept

variable {p : TimeOfDay → Prop} {allowed : TimeOfDay → Int → Prop} {t u : LocalDateTime} {x : Delta}

theorem addDelta? (hp : Kept p allowed) (ht : p t.time) (hx : x.Canonical)
    (h : t.addDelta? x = some u) : p u.time := by
  rw [LocalDateTime.time_addDelta? h]
  exact hp.addDelta ht hx

theorem subDelta? (hp : Kept p allowed) (ht : p t.time) (hx : x.Canonical)
    (h : t.subDelta? x = some u) : p u.time := by
  rw [LocalDateTime.time_subDelta? h]
  exact hp.subDelta ht hx

theorem shifted? (hp : Kept p allowed) {k : Int} (ht : p t.time) (hk : allowed t.time k)
    (h : t.shifted? (t.time.shift k) = some u) : p u.time := by
  rw [LocalDateTime.time_shifted? h]
  exact hp.shift ht hk

theorem utc_addDelta? (hp : Kept p allowed) {t u : OffsetDateTime} (ht : p t.utc.time)
    (hx : x.Canonical) (h : t.addDelta? x = some u) : p u.utc.time := by
  obtain ⟨utc, hutc, rfl⟩ := Option.map_eq_some_iff.mp h
  exact hp.addDelta? ht hx hutc

theorem utc_subDelta? (hp : Kept p allowed) {t u : OffsetDateTime} (ht : p t.utc.time)
    (hx : x.Canonical) (h : t.subDelta? x = some u) : p u.utc.time := by
  obtain ⟨utc, hutc, rfl⟩ := Option.map_eq_some_iff.mp h
  exact hp.subDelta? ht hx hutc

end TimeOfDay.Kept

end CivilTime
