import CivilTime.LocalDateTime.Text

/-!
# Datetimes with an offset

An `OffsetDateTime` is a moment, given by the datetime in universal time, and the
offset of the place it is looked at from. Two of them are the same moment if
their datetimes in universal time are equal, whatever the offsets, and moments
are ordered by these datetimes alone.
-/

namespace CivilTime

/-- A moment in universal time, and the offset of the local time. -/
structure OffsetDateTime where
  utc : LocalDateTime
  offset : Offset
  deriving DecidableEq, Repr

namespace OffsetDateTime

/-- The moment is in the supported range, and so is the offset. -/
def Valid (t : OffsetDateTime) : Prop := t.utc.Valid ∧ t.offset.InRange

instance : DecidablePred Valid := fun _ => inferInstanceAs (Decidable (_ ∧ _))

/-- Whether two values are the same moment. -/
def sameMoment (a b : OffsetDateTime) : Bool := a.utc = b.utc

instance : LT OffsetDateTime := ⟨fun a b => a.utc < b.utc⟩

instance (a b : OffsetDateTime) : Decidable (a < b) := inferInstanceAs (Decidable (a.utc < b.utc))

/-- The local datetime. At the edges of the supported range its date can lie one
day outside of it. -/
def localDateTime (t : OffsetDateTime) : LocalDateTime := t.utc.addOffset t.offset

/-- The number of seconds since the start of 1970, leap seconds aside. -/
def timestamp (t : OffsetDateTime) : Int :=
  (t.utc.date.dayNumber - LocalDateTime.epoch.date.dayNumber) * secondsPerDay + t.utc.time.secs

/-- The nanoseconds past the timestamp, one second or more in a leap second. -/
def timestampNanos (t : OffsetDateTime) : Int := t.utc.time.frac

def addDelta? (t : OffsetDateTime) (x : Delta) : Option OffsetDateTime :=
  (t.utc.addDelta? x).map fun utc => ⟨utc, t.offset⟩

def subDelta? (t : OffsetDateTime) (x : Delta) : Option OffsetDateTime :=
  (t.utc.subDelta? x).map fun utc => ⟨utc, t.offset⟩

/-- The delta from one moment to another. -/
def since (t other : OffsetDateTime) : Delta := t.utc.since other.utc

/-- The local datetime as text, followed by the offset, or by `Z` if it is zero. -/
def toChars (t : OffsetDateTime) : List Char :=
  t.localDateTime.toCharsWith 'T' ++ if t.offset.secs = 0 then ['Z'] else t.offset.toChars

/-- A moment as text. -/
def format (t : OffsetDateTime) : String := String.ofList t.toChars

/-- The moment at which it is `t` in the local time with a given offset. -/
def ofLocal? (t : LocalDateTime) (o : Offset) : Option OffsetDateTime :=
  (t.subOffset? o).map fun utc => ⟨utc, o⟩

end OffsetDateTime

end CivilTime
