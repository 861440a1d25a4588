import CivilTime.Date
import CivilTime.TimeOfDay

/-!
# Local datetimes

A `LocalDateTime` is a date and a time of day, as a calendar and a clock on a
wall show them. It does not say where the wall is.
-/

namespace CivilTime

/-- A date and a time of day. -/
structure LocalDateTime where
  date : Date
  time : TimeOfDay
  deriving DecidableEq, Repr

namespace LocalDateTime

/-- A datetime that can be made of fields: the date in the supported range, and the
time valid. -/
def Valid (t : LocalDateTime) : Prop := t.date.InRange ∧ t.time.Valid

instance : DecidablePred Valid := fun _ => inferInstanceAs (Decidable (_ ∧ _))

instance : LT LocalDateTime :=
  ⟨fun a b => a.date < b.date ∨ a.date = b.date ∧ a.time < b.time⟩

instance (a b : LocalDateTime) : Decidable (a < b) :=
  inferInstanceAs (Decidable (a.date < b.date ∨ a.date = b.date ∧ a.time < b.time))

/-- The number of seconds from midnight of day 0, leap seconds aside. -/
def seconds (t : LocalDateTime) : Int := t.date.dayNumber * secondsPerDay + t.time.secs

/-- The number of nanoseconds from midnight of day 0, leap seconds aside. -/
def total (t : LocalDateTime) : Int := t.seconds * nanosPerSecond + t.time.frac

def min : LocalDateTime := ⟨Date.min, TimeOfDay.midnight⟩

def max : LocalDateTime := ⟨Date.max, TimeOfDay.max⟩

/-- The start of the year 1970. -/
def epoch : LocalDateTime := ⟨⟨1970, 1, 1⟩, TimeOfDay.midnight⟩

/-- A datetime by its fields. The date is checked before the time. -/
def new? (year month day hour minute second nanosecond : Int) : Outcome LocalDateTime := do
  let date ← Date.new? year month day
  let time ← TimeOfDay.new? hour minute second nanosecond
  return ⟨date, time⟩

/-! ## Moving a datetime -/

/-- The datetime with another date, if there is one. -/
def setDate? (t : LocalDateTime) (date : Option Date) : Option LocalDateTime :=
  date.map fun d => ⟨d, t.time⟩

/-- The datetime a delta later, if it is in the supported range. Leap seconds are
treated as times of day treat them. -/
def addDelta? (t : LocalDateTime) (x : Delta) : Option LocalDateTime :=
  let (time, overflow) := t.time.addDelta x
  (t.date.addDays? (overflow / secondsPerDay)).map fun date => ⟨date, time⟩

/-- The datetime a delta earlier, if it is in the supported range. -/
def subDelta? (t : LocalDateTime) (x : Delta) : Option LocalDateTime :=
  let (time, borrowed) := t.time.subDelta x
  (t.date.addDays? (-(borrowed / secondsPerDay))).map fun date => ⟨date, time⟩

def addMonths? (t : LocalDateTime) (m : Months) : Option LocalDateTime :=
  t.setDate? (t.date.addMonths? m)

def subMonths? (t : LocalDateTime) (m : Months) : Option LocalDateTime :=
  t.setDate? (t.date.subMonths? m)

def addDays? (t : LocalDateTime) (d : Days) : Option LocalDateTime :=
  t.setDate? (t.date.addDays? d.count)

def subDays? (t : LocalDateTime) (d : Days) : Option LocalDateTime :=
  t.setDate? (t.date.addDays? (-d.count))

/-! ## Moving between local and universal time -/

/-- The date after a carry of one day or none. Any other carry is none. -/
def carryDate? (date : Date) (days : Int) : Option Date :=
  if days = 1 then date.succ? else if days = -1 then date.pred? else some date

/-- The date after a carry of one day or none, also just outside of the supported
range. -/
def carryDate (date : Date) (days : Int) : Date :=
  (carryDate? date days).getD (if days < 0 then Date.beforeMin else Date.afterMax)

/-- The datetime for a shifted time of day, if it is in the supported range. -/
def shifted? (t : LocalDateTime) (s : TimeOfDay × Int) : Option LocalDateTime :=
  (carryDate? t.date s.2).map fun date => ⟨date, s.1⟩

/-- The datetime for a shifted time of day, also just outside of the supported range. -/
def shifted (t : LocalDateTime) (s : TimeOfDay × Int) : LocalDateTime :=
  ⟨carryDate t.date s.2, s.1⟩

/-- From universal to local time, if that is in the supported range. -/
def addOffset? (t : LocalDateTime) (o : Offset) : Option LocalDateTime :=
  t.shifted? (t.time.addOffset o)

/-- From local to universal time, if that is in the supported range. -/
def subOffset? (t : LocalDateTime) (o : Offset) : Option LocalDateTime :=
  t.shifted? (t.time.subOffset o)

/-- From universal to local time, which may be just outside of the supported range. -/
def addOffset (t : LocalDateTime) (o : Offset) : LocalDateTime :=
  t.shifted (t.time.addOffset o)

/-- From local to universal time, which may be just outside of the supported range. -/
def subOffset (t : LocalDateTime) (o : Offset) : LocalDateTime :=
  t.shifted (t.time.subOffset o)

/-! ## Differences -/

/-- The delta from `other` to `t`: that between the dates and that between the
times of day, together. Their sum is in range for all supported datetimes. -/
def since? (t other : LocalDateTime) : Option Delta :=
  (t.date.since other.date).add? (t.time.since other.time)

@[inherit_doc since?]
def since (t other : LocalDateTime) : Delta := (t.since? other).getD Delta.zero

/-! ## Replacing a part -/

/-- Replaces the date by an outcome. -/
def mapDate (t : LocalDateTime) (f : Date → Outcome Date) : Outcome LocalDateTime := do
  return ⟨← f t.date, t.time⟩

/-- Replaces the time of day by an outcome. -/
def mapTime (t : LocalDateTime) (f : TimeOfDay → Outcome TimeOfDay) : Outcome LocalDateTime := do
  return ⟨t.date, ← f t.time⟩

def withYear (t : LocalDateTime) (year : Int) : Outcome LocalDateTime :=
  t.mapDate (·.withYear year)

def withMonth (t : LocalDateTime) (month : Int) : Outcome LocalDateTime :=
  t.mapDate (·.withMonth month)

def withDay (t : LocalDateTime) (day : Int) : Outcome LocalDateTime :=
  t.mapDate (·.withDay day)

def withOrdinal (t : LocalDateTime) (ordinal : Int) : Outcome LocalDateTime :=
  t.mapDate (·.withOrdinal ordinal)

def withHour (t : LocalDateTime) (hour : Int) : Outcome LocalDateTime :=
  t.mapTime (·.withHour hour)

def withMinute (t : LocalDateTime) (minute : Int) : Outcome LocalDateTime :=
  t.mapTime (·.withMinute minute)

def withSecond (t : LocalDateTime) (second : Int) : Outcome LocalDateTime :=
  t.mapTime (·.withSecond second)

def withNanosecond (t : LocalDateTime) (nanosecond : Int) : Outcome LocalDateTime :=
  t.mapTime (·.withNanosecond nanosecond)

end LocalDateTime

end CivilTime
