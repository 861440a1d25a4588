import CivilTime.LocalDateTime
import CivilTime.Date.Text
import CivilTime.TimeOfDay.Text

/-!
# Local datetimes as text

A datetime is written as its date and its time with a `T` between them, and, for
readers rather than programs, with a space. Reading takes the first form.
-/

namespace CivilTime.LocalDateTime

open Text

/-- A datetime as a list of characters, with a given character between date and time. -/
def toCharsWith (separator : Char) (t : LocalDateTime) : List Char :=
  t.date.toChars ++ separator :: t.time.toChars

/-- A datetime as text in the standard format. -/
def format (t : LocalDateTime) : String := String.ofList (t.toCharsWith 'T')

/-- A datetime as text with a space between date and time. -/
def display (t : LocalDateTime) : String := String.ofList (t.toCharsWith ' ')

/-- Reads the numbers of a date and of a time off the front of a text. -/
def readFields? (cs : List Char) :
    Option (((Int × Int × Int) × (Int × Int × Int × Int)) × List Char) := do
  let (date, cs) ← Date.readFields? cs
  let (time, cs) ← TimeOfDay.readFields? (← expect? 'T' cs)
  return ((date, time), cs)

/-- The numbers of a datetime, or the fault that the text is not in the format or
has a year with too many digits. -/
def parseFields (s : String) : Outcome ((Int × Int × Int) × (Int × Int × Int × Int)) :=
  match readFields? s.toList with
  | some (fields, []) => do
    requireReadable s.toList
    return fields
  | _ => .error (.badText s)

/-- Reads a datetime. One that there is not and a year that is too long count as
faults of the format. -/
def parse (s : String) : Outcome LocalDateTime :=
  (do
    let ((year, month, day), (hour, minute, second, nanosecond)) ← parseFields s
    new? year month day hour minute second nanosecond).mapError fun _ => .badText s

end CivilTime.LocalDateTime
