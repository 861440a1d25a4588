import CivilTime.Micro

/-!
# Values with microseconds as text

Each kind has two texts: a plain one for readers, and one that shows the kind and
the fields, of which those at the end that are zero are left out.
-/

namespace CivilTime.Micro

open Text

/-- An integer as text. -/
def number (n : Int) : String := String.ofList (integer n)

/-- A number that is not negative, with at least `width` digits. -/
def digitsOf (width : Nat) (n : Int) : String := String.ofList (padded width n.toNat)

namespace Delta

/-- The text that shows the fields. -/
def shown (d : Delta) : String :=
  let fields := [("days", d.days), ("seconds", d.secs), ("microseconds", d.micros)].filter
    (·.2 ≠ 0)
  "datetime.timedelta(" ++
    (if fields = [] then "0"
      else ", ".intercalate (fields.map fun (name, value) => name ++ "=" ++ number value)) ++ ")"

/-- The plain text. -/
def format (d : Delta) : String :=
  (if d.days = 0 then ""
    else number d.days ++ (if d.days.natAbs = 1 then " day, " else " days, ")) ++
    number (d.secs / 3600) ++ ":" ++ digitsOf 2 (d.secs / 60 % 60) ++ ":" ++
    digitsOf 2 (d.secs % 60) ++
    if d.micros = 0 then "" else "." ++ digitsOf 6 d.micros

end Delta

/-- An offset in seconds as the text that shows it. -/
def shownOffset (secs : Int) : String :=
  if secs = 0 then "datetime.timezone.utc"
  else "datetime.timezone(" ++ (Delta.ofSeconds secs).shown ++ ")"

/-- The end of a text that shows fields, with the offset if there is one. -/
def shownEnd : Option Int → String
  | none => ")"
  | some secs => ", tzinfo=" ++ shownOffset secs ++ ")"

namespace Date

/-- The text that shows the fields. -/
def shown (d : Date) : String :=
  "datetime.date(" ++ number d.year ++ ", " ++ number d.month ++ ", " ++ number d.day ++ ")"

/-- The plain text. -/
def format (d : Date) : String :=
  digitsOf 4 d.year ++ "-" ++ digitsOf 2 d.month ++ "-" ++ digitsOf 2 d.day

end Date

namespace Time

/-- The fields that are shown: always hour and minute. -/
def shownFields (t : Time) : String :=
  number t.hour ++ ", " ++ number t.minute ++
    if t.micro ≠ 0 then ", " ++ number t.second ++ ", " ++ number t.micro
    else if t.second ≠ 0 then ", " ++ number t.second
    else ""

/-- The text that shows the fields. -/
def shown (t : Time) : String := "datetime.time(" ++ t.shownFields ++ shownEnd t.offset

/-- The plain text. -/
def format (t : Time) : String :=
  digitsOf 2 t.hour ++ ":" ++ digitsOf 2 t.minute ++ ":" ++ digitsOf 2 t.second ++
    (if t.micro = 0 then "" else "." ++ digitsOf 6 t.micro) ++
    match t.offset with
    | none => ""
    | some secs => (Offset.mk secs).format

end Time

namespace DateTime

/-- The text that shows the fields. -/
def shown (t : DateTime) : String :=
  "datetime.datetime(" ++ number t.date.year ++ ", " ++ number t.date.month ++ ", " ++
    number t.date.day ++ ", " ++ t.time.shownFields ++ shownEnd t.time.offset

/-- The plain text. -/
def format (t : DateTime) : String := t.date.format ++ " " ++ t.time.format

end DateTime

/-- The offset of a place, which is less than a day either way. -/
def checkOffset (secs : Int) : Outcome Int :=
  if -86400 < secs ∧ secs < 86400 then .ok secs
  else .error (.offsetOfDay (some (Delta.ofSeconds secs).shown))

end CivilTime.Micro

namespace CivilTime

/-- Only a datetime without an offset can be converted. -/
def LocalDateTime.ofMicro (m : Micro.DateTime) : Outcome LocalDateTime := do
  if let some secs := m.time.offset then
    throw (.dateTimeHasOffset (Micro.shownOffset secs))
  return ⟨Date.ofMicro m.date, ← TimeOfDay.ofMicro m.time⟩

/-- The local datetime, together with the offset. -/
def OffsetDateTime.toMicro (t : OffsetDateTime) : Outcome Micro.DateTime := do
  let m ← t.localDateTime.toMicro
  let secs ← Micro.checkOffset t.offset.secs
  return { m with time := { m.time with offset := some secs } }

end CivilTime
