import CivilTime.TimeOfDay
import CivilTime.Text.Reader

/-!
# Times of day as text

A time is written as hours, minutes and seconds of two digits each with colons
between them, and as many decimals as it needs of 0, 3, 6 and 9. A leap second
is written as the second after its own: as second 60, unless it has been moved away
from the end of the minute.

Reading takes one or two digits for each field, white space after a field, and
any number of decimals right after the seconds, of which nine count. Second 60,
written like that, is a leap second in any minute.
-/

namespace CivilTime.TimeOfDay

open Text

/-- The decimals of a second, with the point, or nothing. -/
def fractionChars (nanos : Int) : List Char :=
  if nanos = 0 then []
  else if nanos % 1000000 = 0 then '.' :: padded 3 (nanos / 1000000).toNat
  else if nanos % 1000 = 0 then '.' :: padded 6 (nanos / 1000).toNat
  else '.' :: padded 9 nanos.toNat

/-- A time as a list of characters. -/
def toChars (t : TimeOfDay) : List Char :=
  let second := if t.InLeapSecond then t.second + 1 else t.second
  let nanos := if t.InLeapSecond then t.frac - nanosPerSecond else t.frac
  padded 2 t.hour.toNat ++ ':' :: padded 2 t.minute.toNat ++ ':' :: padded 2 second.toNat ++
    fractionChars nanos

/-- A time as text. -/
def format (t : TimeOfDay) : String := String.ofList t.toChars

/-- Reads the numbers of a time off the front of a text: hour, minute, second and
nanosecond. They need not be those of a time that there is. -/
def readFields? (cs : List Char) : Option ((Int × Int × Int × Int) × List Char) := do
  let (hour, cs) ← takeDigitsUpTo? 2 cs
  let cs ← expect? ':' (skipBlank cs)
  let (minute, cs) ← takeDigitsUpTo? 2 cs
  let cs ← expect? ':' (skipBlank cs)
  let (second, cs) ← takeDigitsUpTo? 2 cs
  let (frac, cs) ← takeFraction? cs
  let nanos : Int := readFraction 9 frac
  let seconds : Int × Int :=
    if second = ['6', '0'] then (59, nanos + nanosPerSecond) else (readDigits second, nanos)
  return ((readDigits hour, readDigits minute, seconds), skipBlank cs)

/-- The numbers of a time, or the fault that the text is not in the format. -/
def parseFields (s : String) : Outcome (Int × Int × Int × Int) :=
  match readFields? s.toList with
  | some (fields, []) => .ok fields
  | _ => .error (.badText s)

/-- Reads a time. A time that there is not counts as a fault of the format. -/
def parse (s : String) : Outcome TimeOfDay := do
  let (hour, minute, second, nanosecond) ← parseFields s
  (new? hour minute second nanosecond).mapError fun _ => .badText s

end CivilTime.TimeOfDay
