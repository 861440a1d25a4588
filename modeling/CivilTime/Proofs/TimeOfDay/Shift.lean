import CivilTime.Proofs.TimeOfDay.Sum

/-!
# Shifting a time of day

A shift moves the seconds around the day and keeps the fraction, also that of a leap
second. Only a shift by whole minutes leaves a leap second at the end of a minute.
-/

namespace CivilTime.TimeOfDay

variable {t : TimeOfDay} {k : Int}

/-- The seconds are those of a day. -/
def OnDay (t : TimeOfDay) : Prop := 0 ≤ t.secs ∧ t.secs < secondsPerDay

theorem Valid.onDay (h : t.Valid) : t.OnDay := h.1

theorem onDay_shift (t : TimeOfDay) (k : Int) : (t.shift k).1.OnDay := by
  simp only [OnDay, shift, secondsPerDay]
  omega

theorem OnClock.shift (h : t.OnClock) (k : Int) : (t.shift k).1.OnClock := ⟨t.onDay_shift k, h.2⟩

theorem shift_secs_add (t : TimeOfDay) (k : Int) :
    (t.shift k).1.secs + (t.shift k).2 * secondsPerDay = t.secs + k := by
  simp only [TimeOfDay.shift, secondsPerDay]
  omega

/-- Two shifts are one by both amounts. -/
theorem shift_shift (t : TimeOfDay) (k k' : Int) :
    ((t.shift k).1.shift k').1 = (t.shift (k + k')).1 := by
  have hsecs : ((t.secs + k) % secondsPerDay + k') % secondsPerDay =
      (t.secs + (k + k')) % secondsPerDay := by
    rw [Int.emod_add_emod, Int.add_assoc]
  exact congrArg (mk · t.frac) hsecs

theorem shift_zero (ht : t.OnDay) : (t.shift 0).1 = t := by
  rw [shift, Int.add_zero, Int.emod_eq_of_lt ht.1 ht.2]

/-- The shift does not take a leap second away from the end of a minute. -/
def KeepsSecond (t : TimeOfDay) (k : Int) : Prop := t.InLeapSecond → k % 60 = 0

instance (t : TimeOfDay) (k : Int) : Decidable (t.KeepsSecond k) :=
  inferInstanceAs (Decidable (_ → _))

theorem keepsSecond_neg : t.KeepsSecond (-k) ↔ t.KeepsSecond k := by
  have hneg : -k % 60 = 0 ↔ k % 60 = 0 := by omega
  exact imp_congr_right fun _ => hneg

theorem shift_valid_iff (ht : t.Valid) (k : Int) : (t.shift k).1.Valid ↔ t.KeepsSecond k := by
  simp only [Valid, InLeapSecond, KeepsSecond, TimeOfDay.shift, secondsPerDay, nanosPerSecond] at *
  omega

end CivilTime.TimeOfDay
