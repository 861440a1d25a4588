import CivilTime.Delta
import CivilTime.Text.Digits
import CivilTime.Text.Reader

/-!
# Deltas as text

A delta is written as a duration in seconds: a minus sign if it is negative,
`PT`, the whole seconds, a point and the decimals if there are any, and `S`. The
decimals do not end in zeros. The zero delta is `P0D`.

Reading takes any such text with one to nine decimals, also with zeros at
either end, as long as the seconds have at most `mostDigits` digits.
-/

namespace CivilTime.Delta

open Text

/-- The decimals of a second, with the point, or nothing. -/
def fractionChars (nanos : Int) : List Char :=
  if nanos = 0 then [] else '.' :: dropTrailingZeros (padded 9 nanos.toNat)

/-- A delta as a list of characters. -/
def toChars (d : Delta) : List Char :=
  if d.isZero then ['P', '0', 'D']
  else
    (if d.secs < 0 then ['-'] else []) ++ 'P' :: 'T' :: integer d.abs.secs ++
      fractionChars d.abs.nanos ++ ['S']

/-- A delta as text. -/
def format (d : Delta) : String := String.ofList d.toChars

/-- The seconds and decimals between `PT` and `S`, as seconds and nanoseconds. -/
def readMagnitude? (cs : List Char) : Option (Int × Int) := do
  let cs ← expect? 'T' (← expect? 'P' cs)
  let (whole, cs) ← takeDigits? cs
  let (frac, cs) ← takeFraction? cs
  let cs ← expect? 'S' cs
  if frac.length ≤ 9 ∧ cs = [] then some (readDigits whole, readFraction 9 frac) else none

/-- The sign and the magnitude of a text in the format of deltas. -/
def readFields? (cs : List Char) : Option (Bool × Int × Int) :=
  if cs = ['P', '0', 'D'] then some (false, 0, 0)
  else match cs with
    | '-' :: rest => (readMagnitude? rest).map (true, ·)
    | _ => (readMagnitude? cs).map (false, ·)

/-- The sign and the magnitude of a text, or the fault of not being one or of
having too many digits. -/
def parseFields (s : String) : Outcome (Bool × Int × Int) :=
  match readFields? s.toList with
  | some fields => do
    requireReadable s.toList
    return fields
  | none => .error (.badText s)

/-- Reads a delta. A text in the right format can still exceed the range. -/
def parse (s : String) : Outcome Delta := do
  let (negative, secs, nanos) ← parseFields s
  let d ← orExceeds (check? ⟨secs, nanos⟩) .delta
  return if negative then -d else d

end CivilTime.Delta
