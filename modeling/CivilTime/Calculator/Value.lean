import CivilTime.Delta.Text
import CivilTime.Micro.Text
import CivilTime.Packed
import CivilTime.Place
import CivilTime.Zone.Store

/-!
# Values

A calculator for dates and times works on `Value`s of all kinds: those of this
library, and the numbers, texts and lists that go in and out with them.
-/

namespace CivilTime

/-- A value of any kind. -/
inductive Value where
  | nothing
  | truth (b : Bool)
  | integer (n : Int)
  /-- A number that is not an integer, by its text. There is no arithmetic on these. -/
  | real (shape : String)
  | text (s : String)
  | bytes (bs : Bytes)
  | list (vs : List Value)
  /-- A group of values that belong together, such as a result of several parts. -/
  | tuple (vs : List Value)
  | delta (d : Delta)
  | span (s : Span)
  | offset (o : Offset)
  | months (m : Months)
  | days (d : Days)
  | date (d : Date)
  | time (t : TimeOfDay)
  | localDateTime (t : LocalDateTime)
  | offsetDateTime (t : OffsetDateTime)
  | microDelta (d : Micro.Delta)
  | microDate (d : Micro.Date)
  | microTime (t : Micro.Time)
  | microDateTime (t : Micro.DateTime)
  | zone (z : Zone.Loaded)
  deriving Repr, Inhabited

namespace Value

/-- The kind of a value. -/
def kind : Value → Kind
  | nothing => .nothing
  | truth _ => .truth
  | integer _ => .integer
  | real _ => .real
  | text _ => .text
  | bytes _ => .bytes
  | list _ => .list
  | tuple _ => .tuple
  | delta _ => .delta
  | span _ => .span
  | offset _ => .offset
  | months _ => .months
  | days _ => .days
  | date _ => .date
  | time _ => .time
  | localDateTime _ => .localDateTime
  | offsetDateTime _ => .offsetDateTime
  | microDelta _ => .microDelta
  | microDate _ => .microDate
  | microTime _ => .microTime
  | microDateTime _ => .microDateTime
  | zone _ => .zone

/-- A pair of values. -/
def pair (a b : Value) : Value := tuple [a, b]

/-- A tuple of integers. -/
def integers (ns : List Int) : Value := tuple (ns.map integer)

/-- A value that may be missing. -/
def ofOption {α : Type} (make : α → Value) : Option α → Value
  | some a => make a
  | none => nothing

/-! ## Values that consist of values -/

/-- The values in a list or a tuple, the characters of a text and the numbers of bytes. -/
def elements : Value → Outcome (List Value)
  | list vs | tuple vs => .ok vs
  | text s => .ok (s.toList.map fun c => text (String.ofList [c]))
  | bytes bs => .ok (bs.map fun b => integer b.toNat)
  | v => .error (.mismatch (.collection v.kind))

mutual

/-- What keeps a value from being a key: it is a list, or a tuple with a list in it. -/
def keyObstacle? : Value → Option Kind
  | list _ => some .list
  | tuple vs => firstObstacle? vs
  | _ => none

/-- The first of some values that cannot be a key. -/
def firstObstacle? : List Value → Option Kind
  | [] => none
  | v :: vs => (keyObstacle? v).or (firstObstacle? vs)

end

/-! ## Integers and texts among the arguments -/

/-- An argument that has to be a text to read. -/
def asText : Value → Outcome String
  | text s => .ok s
  | v => .error (.mismatch (.readable v.kind))

/-- An argument that has to be an integer. -/
def asInteger : Value → Outcome Int
  | integer n => .ok n
  | v => .error (.mismatch (.expected "an integer" v.kind))

/-- An argument that has to be an integer, with its name. -/
def asNamed (name : String) : Value → Outcome Int
  | integer n => .ok n
  | v => .error (.mismatch (.integer name v.kind))

/-- An argument that has to be an integer between two bounds. -/
def asBounded (lo hi : Int) (name : String) (v : Value) : Outcome Int := do
  checkRange (← v.asNamed name) lo hi name

/-! ## Texts -/

mutual

/-- Goes on only with a value that can be shown. A moment is shown by its local datetime. -/
def requireShown : Value → Outcome Unit
  | offsetDateTime t => t.requireLocal
  | list vs | tuple vs => requireAllShown vs
  | _ => .ok ()

/-- Goes on only with values that all can be shown. -/
def requireAllShown : List Value → Outcome Unit
  | [] => .ok ()
  | v :: vs => do
    v.requireShown
    requireAllShown vs

end

mutual

/-- The text that shows what a value is. -/
def shown : Value → String
  | nothing => "None"
  | truth b => if b then "True" else "False"
  | integer n => Micro.number n
  | real shape => shape
  | text s => Text.quote s
  | bytes bs => Text.quoteBytes bs
  | list vs => "[" ++ ", ".intercalate (shownAll vs) ++ "]"
  | tuple [v] => "(" ++ v.shown ++ ",)"
  | tuple vs => "(" ++ ", ".intercalate (shownAll vs) ++ ")"
  | delta d => "TimeDelta(" ++ d.format ++ ")"
  | span s => s.format
  | offset o => "FixedOffset(" ++ o.format ++ ")"
  | months m => "Months(" ++ Micro.number m.count ++ ")"
  | days d => "Days(" ++ Micro.number d.count ++ ")"
  | date d => "NaiveDate(" ++ d.format ++ ")"
  | time t => "NaiveTime(" ++ t.format ++ ")"
  | localDateTime t => "NaiveDateTime(" ++ t.format ++ ")"
  | offsetDateTime t => "DateTime(" ++ t.format ++ ")"
  | microDelta d => d.shown
  | microDate d => d.shown
  | microTime t => t.shown
  | microDateTime t => t.shown
  | zone z => Kind.zone.name ++ "(key=" ++ Text.quote z.key ++ ")"

/-- The texts that show what some values are. -/
def shownAll : List Value → List String
  | [] => []
  | v :: vs => v.shown :: shownAll vs

end

/-- The plain text of a value. Where there is no special one, it shows what the
value is. -/
def display : Value → String
  | text s => s
  | delta d => d.format
  | offset o => o.format
  | date d => d.format
  | time t => t.format
  | localDateTime t => t.display
  | offsetDateTime t => t.format
  | microDelta d => d.format
  | microDate d => d.format
  | microTime t => t.format
  | microDateTime t => t.format
  | zone z => z.key
  | v => v.shown

/-! ## Packed forms -/

/-- The packed form of a value, with its layout. For months and days it is the count. -/
def pack : Value → Outcome (Layout × Value)
  | delta d => .ok (.delta, bytes d.pack)
  | span s => .ok (.span, bytes s.pack)
  | offset o => .ok (.offset, bytes o.pack)
  | months m => .ok (.months, integer m.count)
  | days d => .ok (.days, integer d.count)
  | date d => .ok (.date, bytes d.pack)
  | time t => do return (.time, bytes (← t.pack))
  | localDateTime t => do return (.localDateTime, bytes (← t.pack))
  | offsetDateTime t => do return (.offsetDateTime, bytes (← t.pack))
  | zone _ => .error .zoneFromFile
  | _ => .error .arguments

/-- Why a value cannot be unpacked: a moment is packed in two parts, and what is a
sequence can at least be cut. -/
def notPacked (layout : Layout) (k : Kind) : Mismatch :=
  if layout = .offsetDateTime ∧ ¬k.isSequence then .packedParts k else .packedData k

/-- The value of a packed form. -/
def unpack : Layout → Value → Outcome Value
  | .delta, bytes bs => delta <$> Delta.unpack bs
  | .span, bytes bs => span <$> Span.unpack bs
  | .offset, bytes bs => offset <$> Offset.unpack bs
  | .date, bytes bs => date <$> Date.unpack bs
  | .time, bytes bs => time <$> TimeOfDay.unpack bs
  | .localDateTime, bytes bs => localDateTime <$> LocalDateTime.unpack bs
  | .offsetDateTime, bytes bs => offsetDateTime <$> OffsetDateTime.unpack bs
  | .months, v => do return months (← Months.new? (← v.asNamed "months"))
  | .days, v => do return days (← Days.new? (← v.asNamed "days"))
  | layout, v => .error (.mismatch (notPacked layout v.kind))

/-- The value that a value becomes by being packed and unpacked. -/
def repack (v : Value) : Outcome Value := do
  let (layout, payload) ← v.pack
  unpack layout payload

/-! ## Copies -/

/-- Whether a copy of a value is the value itself. Lists and values with microseconds
are made anew. -/
def isOwnCopy : Value → Outcome Bool
  | list _ | microDelta _ | microDate _ | microTime _ | microDateTime _ => .ok false
  | zone _ => .error .zoneFromFile
  | _ => .ok true

mutual

/-- Whether a copy of a value and of all its parts is the value itself. -/
def isOwnDeepCopy : Value → Outcome Bool
  | list vs => do
    let _ ← areOwnDeepCopies vs
    return false
  | tuple vs => areOwnDeepCopies vs
  | v => v.isOwnCopy

/-- Whether copies of some values and of all their parts are the values themselves. -/
def areOwnDeepCopies : List Value → Outcome Bool
  | [] => .ok true
  | v :: vs => do
    let first ← v.isOwnDeepCopy
    let rest ← areOwnDeepCopies vs
    return first && rest

end

end Value

end CivilTime
