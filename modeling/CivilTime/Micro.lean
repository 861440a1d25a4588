import CivilTime.OffsetDateTime

/-!
# Values with microseconds

Many programs keep dates and times in a coarser form: microseconds, years 1 to
9999 and no leap seconds. This module has these forms and the ways to and from
them. Nanoseconds are cut off to microseconds, and a leap second becomes the
second before it.
-/

namespace CivilTime

namespace Micro

/-- A duration of days, seconds of a day and microseconds. The days carry the sign. -/
structure Delta where
  days : Int
  secs : Int
  micros : Int
  deriving DecidableEq, Repr

/-- A date in the years 1 to 9999. -/
structure Date where
  year : Int
  month : Int
  day : Int
  deriving DecidableEq, Repr

/-- A time of day, with the offset of its place in seconds if that is known. -/
structure Time where
  hour : Int
  minute : Int
  second : Int
  micro : Int
  offset : Option Int
  deriving DecidableEq, Repr

/-- A date and a time of day. -/
structure DateTime where
  date : Date
  time : Time
  deriving DecidableEq, Repr

/-- The duration of some seconds. -/
def Delta.ofSeconds (secs : Int) : Delta := ⟨secs / secondsPerDay, secs % secondsPerDay, 0⟩

/-- Fails because of a field unless the condition holds. -/
def requireField (condition : Prop) [Decidable condition] (field : MicroField) : Outcome Unit :=
  if condition then .ok () else .error (.microField field)

def Date.new? (year month day : Int) : Outcome Date := do
  requireField (1 ≤ year ∧ year ≤ 9999) (.year year)
  requireField (1 ≤ month ∧ month ≤ 12) .month
  requireField (1 ≤ day ∧ day ≤ Calendar.daysInMonth year month) .day
  return ⟨year, month, day⟩

/-- A time of day by its fields, without an offset. -/
def Time.new? (hour minute second micro : Int) : Outcome Time := do
  requireField (0 ≤ hour ∧ hour ≤ 23) .hour
  requireField (0 ≤ minute ∧ minute ≤ 59) .minute
  requireField (0 ≤ second ∧ second ≤ 59) .second
  requireField (0 ≤ micro ∧ micro ≤ 999999) .microsecond
  return ⟨hour, minute, second, micro, none⟩

end Micro

namespace Delta

/-- The greatest number of days of a duration with microseconds. -/
def maxMicroDays : Int := 999999999

/-- Only a delta that is not negative and has at most `maxMicroDays` days can be converted. -/
def toMicro (d : Delta) : Outcome Micro.Delta :=
  if d.secs < 0 ∨ maxMicroDays < d.secs / secondsPerDay then
    .error (.outOfRange .deltaConversion)
  else .ok ⟨d.secs / secondsPerDay, d.secs % secondsPerDay, d.nanos / 1000⟩

/-- Only a duration that is not negative can be converted. -/
def ofMicro (m : Micro.Delta) : Outcome Delta :=
  if m.days < 0 then .error (.outOfRange .deltaConversion)
  else orExceeds (check? ⟨m.days * secondsPerDay + m.secs, m.micros * 1000⟩) .deltaConversion

end Delta

namespace Date

/-- Only a date in the years 1 to 9999 can be converted. -/
def toMicro (d : Date) : Outcome Micro.Date :=
  if 1 ≤ d.year ∧ d.year ≤ 9999 then Micro.Date.new? d.year d.month d.day
  else .error (.outOfRange .dateConversion)

def ofMicro (m : Micro.Date) : Date := ⟨m.year, m.month, m.day⟩

end Date

namespace TimeOfDay

def toMicro (t : TimeOfDay) : Outcome Micro.Time :=
  Micro.Time.new? t.hour t.minute t.second (t.frac % nanosPerSecond / 1000)

/-- Only a time without an offset can be converted. -/
def ofMicro (m : Micro.Time) : Outcome TimeOfDay :=
  if m.offset.isSome then .error .timeHasOffset
  else .ok ⟨m.hour * 3600 + m.minute * 60 + m.second, m.micro * 1000⟩

end TimeOfDay

namespace LocalDateTime

def toMicro (t : LocalDateTime) : Outcome Micro.DateTime := do
  let date ← t.date.toMicro
  let time ← t.time.toMicro
  return ⟨date, time⟩

end LocalDateTime

end CivilTime
