import CivilTime.Micro.Arithmetic
import CivilTime.Proofs.DayNumber
import CivilTime.Proofs.Delta.Closure
import CivilTime.Proofs.Outcome
import CivilTime.Proofs.TimeOfDay.Sum

/-!
# Fields of values with microseconds

Values with microseconds have their fields in range when they are made, converted or
calculated. Dates of the years that they know and times of day can always be converted.
-/

namespace CivilTime

namespace Micro

/-- None of the fields has grown past the next larger one. -/
def Delta.InRange (d : Delta) : Prop :=
  (0 ≤ d.secs ∧ d.secs < secondsPerDay) ∧ 0 ≤ d.micros ∧ d.micros < microsPerSecond

/-- A day of the years 1 to 9999. -/
def Date.InRange (d : Date) : Prop :=
  (1 ≤ d.year ∧ d.year ≤ 9999) ∧ (CivilTime.Date.mk d.year d.month d.day).IsReal

/-- The fields are those that a clock shows. -/
def Time.InRange (t : Time) : Prop :=
  (0 ≤ t.hour ∧ t.hour ≤ 23) ∧ (0 ≤ t.minute ∧ t.minute ≤ 59) ∧
    (0 ≤ t.second ∧ t.second ≤ 59) ∧ 0 ≤ t.micro ∧ t.micro ≤ 999999

@[simp] theorem Delta.gives_ofTotal (n : Int) : Gives (Delta.ofTotal n) Delta.InRange := by
  rw [ofTotal]
  refine gives_ite (fun _ => gives_ok.mpr ?_) fun _ => gives_error
  simp only [InRange, microsPerDay, microsPerSecond, secondsPerDay]
  omega

theorem Delta.inRange_ofDays (days : Int) : (Delta.mk days 0 0).InRange := by
  simp [InRange, secondsPerDay, microsPerSecond]

@[simp] theorem Delta.gives_div (d : Delta) (k : Int) : Gives (d.div k) Delta.InRange := by
  rw [div]
  exact gives_ite (fun _ => gives_error) fun _ => gives_ofTotal _

theorem Date.new?_eq_ok {year month day : Int} {d : Date} :
    Date.new? year month day = .ok d ↔
      (Date.mk year month day).InRange ∧ Date.mk year month day = d := by
  simp only [new?, bind_eq_ok, requireField_eq_ok, pure_eq_ok, exists_const, InRange,
    CivilTime.Date.IsReal, and_assoc]

theorem Time.new?_eq_ok {hour minute second micro : Int} {t : Time} :
    Time.new? hour minute second micro = .ok t ↔
      (Time.mk hour minute second micro none).InRange ∧
        Time.mk hour minute second micro none = t := by
  simp only [new?, bind_eq_ok, requireField_eq_ok, pure_eq_ok, exists_const, InRange, and_assoc]

@[simp] theorem Time.gives_new? (hour minute second micro : Int) :
    Gives (Time.new? hour minute second micro) fun t => ∀ offset, { t with offset }.InRange := by
  intro t h offset
  obtain ⟨hfields, rfl⟩ := Time.new?_eq_ok.mp h
  exact hfields

theorem DateTime.gives_addMicros (t : DateTime) (n : Int) :
    Gives (t.addMicros n) (·.time.InRange) := by
  rw [addMicros, gives_bind]
  intro date _
  refine gives_pure.mpr ?_
  simp only [Time.InRange, microsPerDay, microsPerSecond]
  omega

@[simp] theorem DateTime.gives_since (t other : DateTime) :
    Gives (t.since other) Delta.InRange := by
  rw [since]
  exact gives_ite (fun _ => Delta.gives_ofTotal _) fun _ => gives_error

end Micro

namespace Delta

theorem gives_toMicro {d : Delta} (h : d.Canonical) : Gives d.toMicro Micro.Delta.InRange := by
  rw [toMicro]
  refine gives_ite (fun _ => gives_error) fun _ => gives_ok.mpr ?_
  simp only [Canonical, Micro.Delta.InRange, Micro.microsPerSecond, secondsPerDay,
    nanosPerSecond] at *
  omega

theorem gives_ofMicro {m : Micro.Delta} (h : m.InRange) : Gives (Delta.ofMicro m) Canonical := by
  rw [Delta.ofMicro]
  refine gives_ite (fun _ => gives_error) fun _ => gives_orExceeds.mpr fun d hd => ?_
  refine canonical_of_check? ?_ hd
  simp only [Canonical, Micro.Delta.InRange, Micro.microsPerSecond, nanosPerSecond] at *
  omega

end Delta

namespace Date

variable {d : Date}

theorem toMicro_of_isReal (h : d.IsReal) (hyear : 1 ≤ d.year ∧ d.year ≤ 9999) :
    d.toMicro = .ok ⟨d.year, d.month, d.day⟩ := by
  rw [toMicro, if_pos hyear]
  exact Micro.Date.new?_eq_ok.mpr ⟨⟨hyear, h⟩, rfl⟩

end Date

namespace TimeOfDay

variable {t : TimeOfDay}

/-- The leap second is shown as the second before it. -/
theorem toMicro_of_onClock (h : t.OnClock) :
    t.toMicro = .ok ⟨t.hour, t.minute, t.second, t.frac % nanosPerSecond / 1000, none⟩ := by
  refine Micro.Time.new?_eq_ok.mpr ⟨?_, rfl⟩
  simp only [OnClock, Micro.Time.InRange, hour, minute, second, secondsPerDay, nanosPerSecond] at *
  omega

theorem gives_toMicro (t : TimeOfDay) :
    Gives t.toMicro fun m => ∀ offset, { m with offset }.InRange :=
  Micro.Time.gives_new? _ _ _ _

end TimeOfDay

namespace LocalDateTime

theorem gives_toMicro (t : LocalDateTime) :
    Gives t.toMicro fun m => ∀ offset, { m.time with offset }.InRange :=
  gives_then fun _ => t.time.gives_toMicro.bind fun _ hm => gives_pure.mpr hm

theorem toMicro_of_valid {t : LocalDateTime} (h : t.Valid)
    (hyear : 1 ≤ t.date.year ∧ t.date.year ≤ 9999) : ∃ m, t.toMicro = .ok m := by
  rw [toMicro, Date.toMicro_of_isReal h.1.2 hyear, TimeOfDay.toMicro_of_onClock h.2.onClock]
  exact ⟨_, rfl⟩

end LocalDateTime

end CivilTime
