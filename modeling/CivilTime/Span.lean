import CivilTime.Delta
import CivilTime.Text.Digits

/-!
# Calendar spans

A `Span` has calendar components, months and days, and a clock component of
minutes, seconds and nanoseconds. Months and days have no fixed length, and
neither has a minute when leap seconds count; so nothing is carried from one
component to another.

Minutes and seconds share one 64-bit word. Its two lowest bits say how the rest
is to be read: with `10` all of it is seconds, with `11` the six bits above are at
most 60 seconds and the rest is a number of minutes, which is not zero. Other
words are not used, so that equal components always have equal words.
-/

namespace CivilTime

/-- A duration of calendar components. -/
structure Span where
  months : Int
  days : Int
  word : Int
  nanos : Int
  deriving DecidableEq, Repr

namespace Span

/-- The word for a number of seconds alone. -/
def packSeconds (secs : Int) : Int := secs * 4 + 2

/-- The word for minutes and seconds. Without minutes it is that for the seconds alone. -/
def packClock (mins secs : Int) : Int := mins * 256 + secs * 4 + if 0 < mins then 3 else 2

/-- The minutes and seconds in a word. -/
def unpackClock (word : Int) : Int × Int :=
  if word % 2 = 0 then (0, word / 4) else (word / 256, word / 4 % 64)

/-- The words that stand for minutes and seconds. -/
def IsClockWord (word : Int) : Prop :=
  word / 2 % 2 = 1 ∧
    (word % 2 = 1 → 0 < (unpackClock word).1 ∧ (unpackClock word).2 ≤ 60)

instance : DecidablePred IsClockWord := fun _ => inferInstanceAs (Decidable (_ ∧ _))

/-- The span without any components. -/
def empty : Span := ⟨0, 0, packSeconds 0, 0⟩

/-- A span of given components. -/
def ofParts (months days word nanos : Int) : Outcome Span := do
  require (IsClockWord word ∧ nanos < nanosPerSecond) .packedSpan
  return ⟨months, days, word, nanos⟩

/-- The minutes and seconds of a span. -/
def minsAndSecs (s : Span) : Int × Int := unpackClock s.word

def withMonths (s : Span) (months : Int) : Outcome Span := do
  return { s with months := ← checkRange months 0 maxU32 "months" }

def withDays (s : Span) (days : Int) : Outcome Span := do
  return { s with days := ← checkRange days 0 maxU32 "days" }

/-- Bounds of the arguments of `withHms`. -/
def checkHours (hours : Int) : Outcome Int := checkRange hours 0 maxU64 "hours"

@[inherit_doc checkHours]
def checkMinutes (minutes : Int) : Outcome Int := checkRange minutes 0 maxU64 "minutes"

@[inherit_doc checkHours]
def checkSeconds (seconds : Int) : Outcome Int := checkRange seconds 0 maxU8 "seconds"

/-- The first number of minutes that does not fit beside seconds, 2^56. -/
def minutesLimit : Int := 72057594037927936

/-- The first number of seconds that does not fit without minutes, 2^62. -/
def secondsLimit : Int := 4611686018427387904

/-- Sets the clock component to hours, minutes and at most 60 seconds. Hours are
kept as minutes, of which there can be fewer than `minutesLimit`. -/
def withHms (s : Span) (hours minutes seconds : Int) : Outcome Span := do
  let hours ← checkHours hours
  let minutes ← checkMinutes minutes
  let seconds ← checkSeconds seconds
  if hours * 60 + minutes ≥ minutesLimit then
    throw (.outOfRange (.argument "minutes"))
  require (seconds ≤ 60) .secondsBesideMinutes
  return { s with word := packClock (hours * 60 + minutes) seconds }

/-- Sets the clock component to a number of seconds, of which there can be fewer
than `secondsLimit`. -/
def withSeconds (s : Span) (seconds : Int) : Outcome Span := do
  let seconds ← checkRange seconds 0 maxU64 "seconds"
  if seconds ≥ secondsLimit then
    throw (.outOfRange (.argument "seconds"))
  return { s with word := packSeconds seconds }

def withNanos (s : Span) (nanos : Int) : Outcome Span := do
  let nanos ← checkRange nanos 0 maxU32 "nanos"
  require (nanos < nanosPerSecond) .nanosBelowSecond
  return { s with nanos := nanos }

/-- Whether no component is set. -/
def isZero (s : Span) : Bool :=
  s.months = 0 && s.days = 0 && s.minsAndSecs = (0, 0) && s.nanos = 0

/-- The components that are not zero, by name. -/
def components (s : Span) : List (String × Int) :=
  [("months", s.months), ("days", s.days), ("minutes", s.minsAndSecs.1),
    ("seconds", s.minsAndSecs.2), ("nanos", s.nanos)].filter (·.2 ≠ 0)

/-- A span as text: its components by name. -/
def format (s : Span) : String :=
  "CalendarDuration(" ++
    ", ".intercalate (s.components.map fun (name, value) =>
      name ++ "=" ++ String.ofList (Text.integer value)) ++ ")"

end Span

end CivilTime
