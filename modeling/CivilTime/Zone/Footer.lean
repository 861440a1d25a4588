import CivilTime.Date
import CivilTime.Text.Reader
import CivilTime.Text.Digits

/-!
# Rules for the years to come

A zone file ends with a rule for all times after those it lists: either one
offset for ever, or a standard offset and one for summer together with the two
days of each year on which summer time starts and ends. The rule is a line of
text such as `CET-1CEST,M3.5.0,M10.5.0/3`.

Offsets in this text count westward: those of places ahead of universal time are
negative. A text that cannot be read is refused with the first part that is wrong.
-/

namespace CivilTime.Zone

open Text

/-- A day of the year, in the three ways in which a rule can name it. -/
inductive RuleDay where
  /-- The weekday, with Sunday as 0, in the given week of a month. Week 5 is the last. -/
  | weekday (month week day : Int)
  /-- The day of the year from 1, not counting the 29th of February. -/
  | common (day : Int)
  /-- The day of the year, with January 1st as 1. -/
  | ordinal (day : Int)
  deriving DecidableEq, Repr

/-- A day of the year and the seconds from its start, in local time. -/
structure Rule where
  day : RuleDay
  time : Int
  deriving DecidableEq, Repr

/-- What holds after the listed transitions. -/
inductive Footer where
  | fixed (offset : Int)
  | summer (standard daylight : Int) (start stop : Rule)
  deriving DecidableEq, Repr

/-- The day number of the 1st of January 1970. -/
def epochDay : Int := 719163

/-- The day number that a rule's day has in a year. -/
def RuleDay.dayNumber (year : Int) : RuleDay → Int
  | weekday month week day =>
    let first := (Date.mk year month 1).dayNumber
    let inMonth := (day - first) % 7 + 1 + (week - 1) * 7
    first - 1 + if inMonth > Calendar.daysInMonth year month then inMonth - 7 else inMonth
  | common day =>
    Calendar.daysBeforeYear year + if 59 ≤ day ∧ Calendar.IsLeap year then day + 1 else day
  | ordinal day => Calendar.daysBeforeYear year + day

/-- The local time of a rule in a year, in seconds since the start of 1970. -/
def Rule.seconds (r : Rule) (year : Int) : Int :=
  (r.day.dayNumber year - epochDay) * secondsPerDay + r.time

namespace Footer

/-- Whether it is summer at a local time, given as its year and its seconds since
the start of 1970. Around each of the two changes a stretch of local times as
long as the difference of the offsets is skipped or repeated. Its end is the
change for a first reading of the clock, its start for the second (`fold`). -/
def isSummer (standard daylight : Int) (start stop : Rule) (fold : Bool) (year t : Int) : Bool :=
  let diff := daylight - standard
  let ahead := fold = decide (0 ≤ diff)
  let start := if ahead then start.seconds year else start.seconds year + diff
  let stop := if ahead then stop.seconds year - diff else stop.seconds year
  if start < stop then start ≤ t && t < stop else !(stop ≤ t && t < start)

/-- The offset at a local time. -/
def offsetAt (f : Footer) (fold : Bool) (year t : Int) : Int :=
  match f with
  | fixed offset => offset
  | summer standard daylight start stop =>
    if isSummer standard daylight start stop fold year t then daylight else standard

/-! ## Reading the text -/

/-- Skips a name: letters, or letters, digits and signs in angle brackets. -/
def skipName? : List Char → Option (List Char)
  | '<' :: rest =>
    expect? '>' (rest.dropWhile fun c => c.isAlphanum || c = '+' || c = '-')
  | cs => if cs.takeWhile Char.isAlpha = [] then none else some (cs.dropWhile Char.isAlpha)

/-- A colon and two digits, or nothing if the text does not go on with a colon. -/
def readSixtieths? : List Char → Option (Int × List Char)
  | ':' :: rest =>
    ((takeFewDigits? 2 rest).filter fun (ds, _) => ds.length = 2).map fun (ds, rest) =>
      (readDigits ds, rest)
  | cs => some (0, cs)

/-- A sign, if there is one, and what follows. -/
def readSign : List Char → Int × List Char
  | '-' :: rest => (-1, rest)
  | '+' :: rest => (1, rest)
  | cs => (1, cs)

/-- Reads hours of one or two digits, and minutes and seconds if there are any, as
seconds. A sign goes for all of them. -/
def readClock? (maxHours : Nat) (cs : List Char) : Option (Int × List Char) := do
  let (sign, cs) := readSign cs
  let (hours, cs) ← takeFewDigits? 2 cs
  if readDigits hours > maxHours then none
  let (minutes, cs) ← readSixtieths? cs
  let (seconds, cs) ← readSixtieths? cs
  return (sign * (readDigits hours * 3600 + minutes * 60 + seconds), cs)

/-- Reads an offset, which the text counts westward. -/
def readOffset? (cs : List Char) : Option (Int × List Char) :=
  (readClock? 24 cs).map fun (secs, rest) => (-secs, rest)

/-- Reads a number of at most `most` digits between two bounds. -/
def readNumber? (most lo hi : Nat) (cs : List Char) : Option (Int × List Char) := do
  let (ds, cs) ← takeFewDigits? most cs
  if lo ≤ readDigits ds ∧ readDigits ds ≤ hi then some (readDigits ds, cs) else none

/-- Reads a day of the year. -/
def readDay? : List Char → Option (RuleDay × List Char)
  | 'M' :: cs => do
    let (month, cs) ← readNumber? 2 1 12 cs
    let (week, cs) ← readNumber? 1 1 5 (← expect? '.' cs)
    let (day, cs) ← readNumber? 1 0 6 (← expect? '.' cs)
    return (.weekday month week day, cs)
  | 'J' :: cs => (readNumber? 3 1 365 cs).map fun (day, cs) => (.common day, cs)
  | cs => (readNumber? 3 0 365 cs).map fun (day, cs) => (.ordinal day, cs)

/-- Reads a day and a time of that day if there is one; else it is two o'clock. The
hours of that time can be up to 99. -/
def readRule? (cs : List Char) : Option (Rule × List Char) := do
  let (day, cs) ← readDay? cs
  match cs with
  | '/' :: cs =>
    let (time, cs) ← readClock? 99 cs
    return (⟨day, time⟩, cs)
  | cs => return (⟨day, 7200⟩, cs)

/-- What a reader found, or a flaw. -/
def orFlaw {α : Type} (found : Option α) (flaw : RuleFlaw) : Except RuleFlaw α :=
  match found with
  | some a => .ok a
  | none => .error flaw

/-- Reads a comma and the day and time of a change. -/
def readChange (cs : List Char) : Except RuleFlaw (Rule × List Char) := do
  let cs ← orFlaw (expect? ',' cs) .noChange
  orFlaw (readRule? cs) .change

/-- Reads a rule. Summer time is an hour ahead of standard time unless it says
otherwise. -/
def readChars (cs : List Char) : Except RuleFlaw Footer := do
  let cs ← orFlaw (skipName? cs) .standardName
  let (standard, cs) ← orFlaw (readOffset? cs) .standardOffset
  if cs = [] then
    return .fixed standard
  let cs ← orFlaw (skipName? cs) .daylightName
  let (daylight, cs) ←
    if cs.head? = some ',' then .ok (standard + 3600, cs)
    else orFlaw (readOffset? cs) .daylightOffset
  let (start, cs) ← readChange cs
  let (stop, cs) ← readChange cs
  if cs = [] then
    return .summer standard daylight start stop
  throw .surplus

/-- Reads the line with the rule. Its text ends before the first zero byte. -/
def read (line : Bytes) : Outcome Footer :=
  (readChars ((line.takeWhile (· ≠ 0)).map fun b => Char.ofNat b.toNat)).mapError fun flaw =>
    .malformedZone (.rule flaw line)

end Footer

end CivilTime.Zone
