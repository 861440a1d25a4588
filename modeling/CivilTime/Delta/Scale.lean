import CivilTime.Delta

/-!
# Units of deltas

A delta can be made from a number of weeks, days, hours and so on down to
nanoseconds, and be counted in each of them. Counts round toward zero.
-/

namespace CivilTime.Delta

/-- The units that deltas are made of and counted in. -/
inductive Scale where
  | weeks | days | hours | minutes | seconds | milliseconds | microseconds | nanoseconds
  deriving DecidableEq, Repr

namespace Scale

/-- The name of a unit. -/
def name : Scale → String
  | weeks => "weeks"
  | days => "days"
  | hours => "hours"
  | minutes => "minutes"
  | seconds => "seconds"
  | milliseconds => "milliseconds"
  | microseconds => "microseconds"
  | nanoseconds => "nanoseconds"

/-- The length of a unit in nanoseconds. -/
def nanos : Scale → Int
  | weeks => 604800000000000
  | days => 86400000000000
  | hours => 3600000000000
  | minutes => 60000000000
  | seconds => 1000000000
  | milliseconds => 1000000
  | microseconds => 1000
  | nanoseconds => 1

/-- The least count of a unit that a delta can be made of. -/
def least : Scale → Int
  | weeks | days | hours | minutes | seconds => minI32
  | milliseconds => -maxI64
  | microseconds | nanoseconds => minI64

/-- The greatest count of a unit that a delta can be made of. -/
def greatest : Scale → Int
  | weeks | days | hours | minutes | seconds => maxI32
  | milliseconds | microseconds | nanoseconds => maxI64

end Scale

/-- The delta of `n` units. -/
def ofCount (u : Scale) (n : Int) : Outcome Delta := do
  return ofTotal ((← checkRange n u.least u.greatest u.name) * u.nanos)

/-- The number of whole parts of a second, of which there are `perSecond`. -/
def countFine (d : Delta) (perSecond : Int) : Int :=
  d.wholeSeconds * perSecond + d.subsecNanos.tdiv (nanosPerSecond / perSecond)

/-- A count that has to fit in 64 bits. -/
def checkCount (u : Scale) (n : Int) : Outcome Int :=
  if minI64 ≤ n ∧ n ≤ maxI64 then .ok n else .error (.outOfRange (.count u.name))

/-- The number of whole units in a delta, rounded toward zero. Microseconds and
nanoseconds can be too many for 64 bits. -/
def count (d : Delta) : Scale → Outcome Int
  | .weeks => .ok (d.wholeDays.tdiv 7)
  | .days => .ok d.wholeDays
  | .hours => .ok (d.wholeSeconds.tdiv 3600)
  | .minutes => .ok (d.wholeSeconds.tdiv 60)
  | .seconds => .ok d.wholeSeconds
  | .milliseconds => .ok (d.countFine 1000)
  | .microseconds => checkCount .microseconds (d.countFine 1000000)
  | .nanoseconds => checkCount .nanoseconds d.total

end CivilTime.Delta
