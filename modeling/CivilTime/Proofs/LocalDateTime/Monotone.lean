import CivilTime.Proofs.LocalDateTime.Sum

/-!
# Sums in order

From a fixed datetime a greater delta leads to a later datetime. Outside of leap seconds this is
the order of the numbers of nanoseconds. From within a leap second there are three ways on: a
short delta stays in that second, one that goes back by a second or more leaves it as if it were
not there, and one that goes past its end spends a second on it. All three move by the delta on a
line that has room for this one leap second, and datetimes on that line are in order.
-/

namespace CivilTime.LocalDateTime

variable {d a b : LocalDateTime} {x y : Delta}

/-- The ways in which a sum is reached. -/
inductive Reaches (d : LocalDateTime) (x : Delta) : LocalDateTime → Prop
  /-- A leap second is not left. -/
  | within (hleap : d.time.InLeapSecond) (hback : -nanosPerSecond < x.total)
      (hend : d.time.frac + x.total < 2 * nanosPerSecond) :
      Reaches d x ⟨d.date, ⟨d.time.secs, d.time.frac + x.total⟩⟩
  /-- All of the delta counts. From a leap second this leads back only. -/
  | counting {a : LocalDateTime} (hin : a.date.InRange) (hplain : a.time.Plain)
      (htotal : a.total = d.total + x.total)
      (hback : d.time.InLeapSecond → x.total ≤ -nanosPerSecond) : Reaches d x a
  /-- A leap second takes a second of the delta. -/
  | past {a : LocalDateTime} (hleap : d.time.InLeapSecond) (hin : a.date.InRange)
      (hplain : a.time.Plain) (htotal : a.total = d.total - nanosPerSecond + x.total)
      (hend : 2 * nanosPerSecond ≤ d.time.frac + x.total) : Reaches d x a

/-- The number of nanoseconds on the line where the leap second that `d` is in has room of its
own, so that later datetimes are one second further on. -/
def place (d a : LocalDateTime) : Int :=
  if d.time.InLeapSecond ∧ d.seconds < a.seconds then a.total + nanosPerSecond else a.total

theorem place_cases (d a : LocalDateTime) :
    (d.time.InLeapSecond ∧ d.seconds < a.seconds) ∧ d.place a = a.total + nanosPerSecond ∨
      ¬(d.time.InLeapSecond ∧ d.seconds < a.seconds) ∧ d.place a = a.total := by
  rw [place]
  split
  case isTrue h => exact .inl ⟨h, rfl⟩
  case isFalse h => exact .inr ⟨h, rfl⟩

theorem reaches_of_addDelta? (hd : d.Valid) (hx : x.Canonical) (h : d.addDelta? x = some a) :
    d.Reaches x a := by
  have hclock := hd.2.onClock
  by_cases hleap : d.time.InLeapSecond
  · rcases TimeOfDay.addDelta_of_inLeapSecond hclock hleap hx with
      ⟨hwhole, ⟨-, hend⟩, hsum⟩ | ⟨hend, hlands⟩ | ⟨hback, hlands⟩
    · obtain ⟨hback, -⟩ := Delta.subsecNanos_bounds hx
      rw [Delta.subsecNanos_eq_total hwhole] at hback hend hsum
      obtain rfl : ⟨d.date, ⟨d.time.secs, d.time.frac + x.total⟩⟩ = a := by
        simpa [addDelta?, hsum, Date.addDays?] using h
      exact .within hleap hback hend
    · obtain ⟨hin, hplain, htotal⟩ := total_of_lands hd.1 hlands h
      exact .past hleap hin hplain (by omega) hend
    · obtain ⟨hin, hplain, htotal⟩ := total_of_lands hd.1 hlands h
      exact .counting hin hplain (by omega) fun _ => hback
  · have hlands := TimeOfDay.addDelta_of_plain (hclock.plain hleap) hx
    obtain ⟨hin, hplain, htotal⟩ := total_of_lands hd.1 hlands h
    exact .counting hin hplain (by omega) fun h => absurd h hleap

namespace Reaches

theorem isReal (h : d.Reaches x a) (hd : d.Valid) : a.date.IsReal := by
  cases h with
  | within => exact hd.1.2
  | counting hin => exact hin.2
  | past _ hin => exact hin.2

theorem onClock (h : d.Reaches x a) (hd : d.Valid) : a.time.OnClock := by
  cases h with
  | within hleap hback hend =>
    have hclock := hd.2.onClock
    simp only [TimeOfDay.OnClock, TimeOfDay.InLeapSecond] at *
    omega
  | counting _ hplain => exact hplain.onClock
  | past _ _ hplain => exact hplain.onClock

/-- Only a leap second that is not left leads to one. -/
theorem same_second (h : d.Reaches x a) (hleap : a.time.InLeapSecond) :
    d.time.InLeapSecond ∧ a.date = d.date ∧ a.time.secs = d.time.secs := by
  cases h with
  | within hd => exact ⟨hd, rfl, rfl⟩
  | counting _ hplain => exact absurd hleap hplain.not_inLeapSecond
  | past _ _ hplain => exact absurd hleap hplain.not_inLeapSecond

theorem seconds_eq (h : d.Reaches x a) (hleap : a.time.InLeapSecond) :
    d.time.InLeapSecond ∧ a.seconds = d.seconds := by
  obtain ⟨hstart, hdate, hsecs⟩ := h.same_second hleap
  exact ⟨hstart, by rw [seconds, seconds, hdate, hsecs]⟩

/-- All ways move by the delta. -/
theorem place_eq (h : d.Reaches x a) (hd : d.Valid) : d.place a = d.total + x.total := by
  have hclock := hd.2.onClock
  cases h with
  | within =>
    have hplace := place_cases d ⟨d.date, ⟨d.time.secs, d.time.frac + x.total⟩⟩
    simp only [total, seconds] at *
    omega
  | counting _ hplain htotal hback =>
    -- A leap second is left at its front here, and nothing before it has moved.
    have hplace := place_cases d a
    simp only [total, TimeOfDay.Plain, TimeOfDay.OnClock, TimeOfDay.InLeapSecond,
      nanosPerSecond] at *
    omega
  | past hleap _ hplain htotal hend =>
    -- The second that the leap second takes is the one that datetimes after it are further on.
    have hplace := place_cases d a
    simp only [total, TimeOfDay.Plain, TimeOfDay.InLeapSecond, nanosPerSecond] at *
    omega

/-- Sums are in the order of their places. -/
theorem lt_of_place_lt (ha : d.Reaches x a) (hb : d.Reaches y b) (hd : d.Valid)
    (h : d.place a < d.place b) : a < b := by
  have hat := ha.onClock hd
  have hbt := hb.onClock hd
  have hsame := ha.seconds_eq
  have hsame' := hb.seconds_eq
  have hplace := place_cases d a
  have hplace' := place_cases d b
  rw [lt_iff_seconds (ha.isReal hd) (hb.isReal hd) hat hbt]
  simp only [total, TimeOfDay.OnClock, TimeOfDay.InLeapSecond, nanosPerSecond] at *
  omega

end Reaches

/-- Adding to a fixed datetime is strictly increasing, also within a leap second and where it is
left. A sum is in a leap second only if the datetime is, and then in the same one. -/
theorem addDelta?_increasing (hd : d.Valid) :
    (∀ x y a b, x.Canonical → y.Canonical → x < y → d.addDelta? x = some a →
      d.addDelta? y = some b → a < b) ∧
    ∀ x a, x.Canonical → d.addDelta? x = some a → a.time.InLeapSecond →
      d.time.InLeapSecond ∧ a.date = d.date ∧ a.time.secs = d.time.secs := by
  constructor
  · intro x y a b hx hy hlt ha hb
    have hreachesA := reaches_of_addDelta? hd hx ha
    have hreachesB := reaches_of_addDelta? hd hy hb
    have htotals := (Delta.lt_iff_total_lt hx hy).mp hlt
    refine hreachesA.lt_of_place_lt hreachesB hd ?_
    rw [hreachesA.place_eq hd, hreachesB.place_eq hd]
    omega
  · intro x a hx ha hleap
    exact (reaches_of_addDelta? hd hx ha).same_second hleap

/-- The last nanosecond of a leap second and the first one after it, at the end of a year. -/
theorem addDelta?_increasing_new_year :
    let d : LocalDateTime := ⟨⟨2016, 12, 31⟩, ⟨86399, 1300000000⟩⟩
    let a : LocalDateTime := ⟨⟨2016, 12, 31⟩, ⟨86399, 1999999999⟩⟩
    let b : LocalDateTime := ⟨⟨2017, 1, 1⟩, ⟨0, 0⟩⟩
    (d.addDelta? ⟨0, 699999999⟩ = some a ∧ d.addDelta? ⟨0, 700000000⟩ = some b ∧ a < b) ∧
      a.time.InLeapSecond ∧ a.date = d.date ∧ a.time.secs = d.time.secs := by
  intro d a b
  obtain ⟨hlt, hsame⟩ := addDelta?_increasing (d := d) (by decide)
  have ha : d.addDelta? ⟨0, 699999999⟩ = some a := by decide
  have hb : d.addDelta? ⟨0, 700000000⟩ = some b := by decide
  have hleap : a.time.InLeapSecond := by decide
  exact ⟨⟨ha, hb, hlt _ _ a b (by decide) (by decide) (by decide) ha hb⟩, hleap,
    (hsame _ a (by decide) ha hleap).2⟩

end CivilTime.LocalDateTime
