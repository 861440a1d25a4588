import CivilTime.Date
import CivilTime.Text.Reader

/-!
# Dates as text

A date is written as year, month and day with hyphens between them. A year from
0 to 9999 has four digits and no sign; any other has a sign and at least four.
Month and day have two digits.

Reading takes one or two digits for month and day, one to four for a year without
a sign and any number up to `mostDigits` for a year with one, and white space after
each number.
-/

namespace CivilTime.Date

open Text

/-- A year as a list of characters. -/
def yearChars (year : Int) : List Char :=
  if 0 ≤ year ∧ year ≤ 9999 then padded 4 year.toNat
  else (if year < 0 then '-' else '+') :: padded 4 year.natAbs

/-- A date as a list of characters. -/
def toChars (d : Date) : List Char :=
  yearChars d.year ++ '-' :: padded 2 d.month.toNat ++ '-' :: padded 2 d.day.toNat

/-- A date as text. -/
def format (d : Date) : String := String.ofList d.toChars

/-- Reads a year: a sign and digits, or up to four digits. -/
def readYear? : List Char → Option (Int × List Char)
  | '-' :: rest => (takeDigits? rest).map fun (ds, rest) => (-(readDigits ds : Int), rest)
  | '+' :: rest => (takeDigits? rest).map fun (ds, rest) => ((readDigits ds : Int), rest)
  | cs => (takeDigitsUpTo? 4 cs).map fun (ds, rest) => ((readDigits ds : Int), rest)

/-- Reads the numbers of a date off the front of a text. They need not be those
of a day that there is. -/
def readFields? (cs : List Char) : Option ((Int × Int × Int) × List Char) := do
  let (year, cs) ← readYear? cs
  let cs ← expect? '-' (skipBlank cs)
  let (month, cs) ← takeDigitsUpTo? 2 cs
  let cs ← expect? '-' (skipBlank cs)
  let (day, cs) ← takeDigitsUpTo? 2 cs
  return ((year, readDigits month, readDigits day), skipBlank cs)

/-- The numbers of a date, or the fault that the text is not in the format or has
a year with too many digits. -/
def parseFields (s : String) : Outcome (Int × Int × Int) :=
  match readFields? s.toList with
  | some (fields, []) => do
    requireReadable s.toList
    return fields
  | _ => .error (.badText s)

/-- Reads a date. A day that there is not and a year that is too long count as
faults of the format. -/
def parse (s : String) : Outcome Date :=
  (do
    let (year, month, day) ← parseFields s
    new? year month day).mapError fun _ => .badText s

end CivilTime.Date
