import CivilTime.Delta
import CivilTime.Offset

/-!
# Times of day

A `TimeOfDay` is a number of seconds since midnight and a fraction in
nanoseconds. A leap second has no seconds of its own: it is second 59 of a
minute with a fraction of one second or more. An offset with seconds moves it to
another second, where it keeps that fraction.
-/

namespace CivilTime

/-- A time of day: whole seconds since midnight, and nanoseconds on top of them. -/
structure TimeOfDay where
  secs : Int
  frac : Int
  deriving DecidableEq, Repr

namespace TimeOfDay

/-- The time is in a leap second. -/
def InLeapSecond (t : TimeOfDay) : Prop := nanosPerSecond ≤ t.frac

instance : DecidablePred InLeapSecond := fun _ => inferInstanceAs (Decidable (_ ≤ _))

/-- A time that can be made of fields: within the day, the fraction less than two
seconds, and a leap second only at second 59. Of the operations on times only a
shift can lead out of these. -/
def Valid (t : TimeOfDay) : Prop :=
  (0 ≤ t.secs ∧ t.secs < secondsPerDay) ∧ (0 ≤ t.frac ∧ t.frac < 2 * nanosPerSecond) ∧
    (t.InLeapSecond → t.secs % 60 = 59)

instance : DecidablePred Valid := fun _ => inferInstanceAs (Decidable (_ ∧ _))

instance : LT TimeOfDay :=
  ⟨fun a b => a.secs < b.secs ∨ a.secs = b.secs ∧ a.frac < b.frac⟩

instance (a b : TimeOfDay) : Decidable (a < b) :=
  inferInstanceAs (Decidable (a.secs < b.secs ∨ a.secs = b.secs ∧ a.frac < b.frac))

def midnight : TimeOfDay := ⟨0, 0⟩

/-- The end of a leap second right before midnight. -/
def max : TimeOfDay := ⟨86399, 1999999999⟩

def hour (t : TimeOfDay) : Int := t.secs / 3600

def minute (t : TimeOfDay) : Int := t.secs / 60 % 60

def second (t : TimeOfDay) : Int := t.secs % 60

/-- A time by hour, minute, second and nanosecond. -/
def new? (hour minute second nanosecond : Int) : Outcome TimeOfDay := do
  require ((0 ≤ hour ∧ hour < 24) ∧ (0 ≤ minute ∧ minute < 60) ∧ (0 ≤ second ∧ second < 60))
    .time
  require (0 ≤ nanosecond ∧ nanosecond < 2 * nanosPerSecond) .nanosecond
  require (nanosecond ≥ nanosPerSecond → second = 59) .leapSecond
  return ⟨hour * 3600 + minute * 60 + second, nanosecond⟩

/-! ## Adding a delta -/

/-- Wraps a number of seconds around midnight. The second part is what does not
fit into the day. -/
def wrap (secs frac : Int) : TimeOfDay × Int :=
  (⟨secs % secondsPerDay, frac⟩, secs - secs % secondsPerDay)

/-- Adds seconds and a part of a second, both of one sign, to a time outside of
leap seconds. -/
def addParts (secs frac : Int) (x : Delta) : TimeOfDay × Int :=
  let sum := Delta.carry (secs + x.wholeSeconds) (frac + x.subsecNanos)
  wrap sum.secs sum.nanos

/-- Adds a delta, wrapping around midnight. The second part is the number of
seconds that do not fit into the day, a multiple of a day.

From within a leap second, a delta that goes past its end counts from its end,
which is where the fraction starts again; one that goes back by a second or more
counts from the second after it, and one that does neither stays in it. -/
def addDelta (t : TimeOfDay) (x : Delta) : TimeOfDay × Int :=
  if t.InLeapSecond then
    if 0 < x.wholeSeconds ∨
        0 < x.subsecNanos ∧ 2 * nanosPerSecond - x.subsecNanos ≤ t.frac then
      addParts t.secs (t.frac - nanosPerSecond) x
    else if x.wholeSeconds < 0 then
      addParts (t.secs + 1) (t.frac - nanosPerSecond) x
    else (⟨t.secs, t.frac + x.subsecNanos⟩, 0)
  else addParts t.secs t.frac x

/-- Subtracts a delta, wrapping around midnight. The second part is the number
of seconds that were borrowed for it. -/
def subDelta (t : TimeOfDay) (x : Delta) : TimeOfDay × Int :=
  ((t.addDelta (-x)).1, -(t.addDelta (-x)).2)

/-! ## Adding an offset -/

/-- Moves a time by some seconds. A leap second is kept, at whatever second it ends
up. The second part is the number of days that are carried. -/
def shift (t : TimeOfDay) (secs : Int) : TimeOfDay × Int :=
  (⟨(t.secs + secs) % secondsPerDay, t.frac⟩, (t.secs + secs) / secondsPerDay)

/-- Goes from universal to local time. -/
def addOffset (t : TimeOfDay) (o : Offset) : TimeOfDay × Int := t.shift o.secs

/-- Goes from local to universal time. -/
def subOffset (t : TimeOfDay) (o : Offset) : TimeOfDay × Int := t.shift (-o.secs)

/-! ## Differences -/

/-- The delta from `other` to `t`. A leap second that the earlier of the two is
in counts as a second of its own if the seconds of the two differ. -/
def since (t other : TimeOfDay) : Delta :=
  let leap : Int :=
    if t.secs > other.secs ∧ other.InLeapSecond then 1
    else if t.secs < other.secs ∧ t.InLeapSecond then -1
    else 0
  let frac := t.frac - other.frac
  ⟨t.secs - other.secs + leap + frac / nanosPerSecond, frac % nanosPerSecond⟩

/-! ## Replacing a part -/

def withHour (t : TimeOfDay) (hour : Int) : Outcome TimeOfDay := do
  require (0 ≤ hour ∧ hour < 24) .hour
  return ⟨hour * 3600 + t.secs % 3600, t.frac⟩

def withMinute (t : TimeOfDay) (minute : Int) : Outcome TimeOfDay := do
  require (0 ≤ minute ∧ minute < 60) .minute
  return ⟨t.secs - t.secs % 3600 + minute * 60 + t.secs % 60, t.frac⟩

/-- Replaces the second. A leap second cannot leave second 59. -/
def withSecond (t : TimeOfDay) (second : Int) : Outcome TimeOfDay := do
  require (0 ≤ second ∧ second < 60) .second
  require (t.InLeapSecond → second = 59) .leapSecond
  return ⟨t.secs - t.secs % 60 + second, t.frac⟩

/-- Replaces the fraction. One second or more makes a leap second. -/
def withNanosecond (t : TimeOfDay) (nanosecond : Int) : Outcome TimeOfDay := do
  require (0 ≤ nanosecond ∧ nanosecond < 2 * nanosPerSecond) .nanosecond
  require (nanosecond ≥ nanosPerSecond → t.secs % 60 = 59) .leapSecond
  return ⟨t.secs, nanosecond⟩

end TimeOfDay

end CivilTime
