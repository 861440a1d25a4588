import CivilTime.Micro

/-!
# Calculating with microseconds

Durations with microseconds are exact numbers of microseconds of less than a
billion days either way. They can be added, multiplied and divided, they move dates
and datetimes within the years 1 to 9999, and they are the differences of these.
A moved datetime keeps its offset. Dates, times and datetimes are ordered in time;
where offsets are known, that is in universal time.
-/

namespace CivilTime.Micro

/-- The number of microseconds of a second. -/
def microsPerSecond : Int := 1000000

/-- The number of microseconds of a day. -/
def microsPerDay : Int := 86400000000

/-- The quotient of two integers, rounded to the nearest. Halfway between two
integers it is the even one. -/
def nearestQuotient (n k : Int) : Int :=
  let below := Int.fdiv n k
  let rest := 2 * (n - below * k).natAbs
  if rest < k.natAbs ∨ rest = k.natAbs ∧ below % 2 = 0 then below else below + 1

namespace Delta

/-- The number of microseconds of a duration. -/
def total (d : Delta) : Int := d.days * microsPerDay + d.secs * microsPerSecond + d.micros

/-- The duration of some microseconds. -/
def ofTotal (n : Int) : Outcome Delta :=
  if (n / microsPerDay).natAbs ≤ 999999999 then
    .ok ⟨n / microsPerDay, n % microsPerDay / microsPerSecond, n % microsPerSecond⟩
  else .error (.excess (.microDays (n / microsPerDay)))

def add (a b : Delta) : Outcome Delta := ofTotal (a.total + b.total)

def sub (a b : Delta) : Outcome Delta := ofTotal (a.total - b.total)

def neg (d : Delta) : Outcome Delta := ofTotal (-d.total)

def abs (d : Delta) : Outcome Delta := ofTotal d.total.natAbs

def mul (d : Delta) (k : Int) : Outcome Delta := ofTotal (d.total * k)

/-- A fraction of a duration, rounded to the nearest microsecond. -/
def div (d : Delta) (k : Int) : Outcome Delta :=
  if k = 0 then .error .integerByZero else ofTotal (nearestQuotient d.total k)

instance : LT Delta := ⟨fun a b => a.total < b.total⟩

instance (a b : Delta) : Decidable (a < b) := inferInstanceAs (Decidable (a.total < b.total))

end Delta

namespace Date

/-- The number of the day, counted from the 1st of January of year 1 as day 1. -/
def dayNumber (d : Date) : Int := (CivilTime.Date.mk d.year d.month d.day).dayNumber

/-- The date some days later. -/
def addDays (d : Date) (n : Int) : Outcome Date :=
  let date := CivilTime.Date.ofDayNumber (d.dayNumber + n)
  if 1 ≤ date.year ∧ date.year ≤ 9999 then .ok ⟨date.year, date.month, date.day⟩
  else .error (.excess .microDate)

/-- The days from `other` to `d`. -/
def since (d other : Date) : Delta := ⟨d.dayNumber - other.dayNumber, 0, 0⟩

instance : LT Date := ⟨fun a b => a.dayNumber < b.dayNumber⟩

instance (a b : Date) : Decidable (a < b) :=
  inferInstanceAs (Decidable (a.dayNumber < b.dayNumber))

end Date

namespace Time

/-- The microseconds since midnight in local time. -/
def localMicros (t : Time) : Int :=
  (t.hour * 3600 + t.minute * 60 + t.second) * microsPerSecond + t.micro

/-- The microseconds since midnight in universal time, if the offset is known. -/
def utcMicros (t : Time) : Int := t.localMicros - t.offset.getD 0 * microsPerSecond

/-- How two times compare, if the offsets of both are known or of neither. -/
def compare? (a b : Time) : Option Ordering :=
  if a.offset.isSome = b.offset.isSome then some (compare a.utcMicros b.utcMicros) else none

/-- Whether two times are the same moment of a day. One with an offset is never
the same as one without. -/
def sameMoment (a b : Time) : Bool := a.compare? b = some .eq

end Time

namespace DateTime

/-- The microseconds since midnight of day 0 in universal time, if the offset is known. -/
def utcMicros (t : DateTime) : Int := t.date.dayNumber * microsPerDay + t.time.utcMicros

/-- How two datetimes compare, if the offsets of both are known or of neither. -/
def compare? (a b : DateTime) : Option Ordering :=
  if a.time.offset.isSome = b.time.offset.isSome then some (compare a.utcMicros b.utcMicros)
  else none

/-- Whether two datetimes are the same moment. One with an offset is never the
same as one without. -/
def sameMoment (a b : DateTime) : Bool := a.compare? b = some .eq

/-- The datetime some microseconds later, with the same offset. -/
def addMicros (t : DateTime) (n : Int) : Outcome DateTime := do
  let moved := t.time.localMicros + n
  let date ← t.date.addDays (moved / microsPerDay)
  let secs := moved % microsPerDay / microsPerSecond
  return ⟨date, ⟨secs / 3600, secs / 60 % 60, secs % 60, moved % microsPerSecond, t.time.offset⟩⟩

/-- The duration from `other` to `t`, if the offsets of both are known or of neither. -/
def since (t other : DateTime) : Outcome Delta :=
  if t.time.offset.isSome = other.time.offset.isSome then
    Delta.ofTotal (t.utcMicros - other.utcMicros)
  else .error (.mismatch .mixedOffsetsApart)

end DateTime

end CivilTime.Micro
