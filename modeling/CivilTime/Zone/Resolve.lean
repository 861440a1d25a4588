import CivilTime.Micro
import CivilTime.Zone.Table

/-!
# Local times in a zone

A local time in a zone is a moment, unless the zone skips it or has it twice. What
to do then is up to a `Policy`. Between the offset before and the one after the
change nearby, a skipped time is moved by their difference: forward out of the gap
or backward out of it. Like any move by an offset this carries the date by one day
or none; where a gap is so long that it takes more, these days are lost. A repeated
time stays, and one of the offsets is chosen.
-/

namespace CivilTime

namespace Zone

/-- How to treat local times that are skipped or repeated. -/
inductive Policy where
  /-- The first of two repeated times; skipped times are moved forward. -/
  | compatible
  /-- The earlier moment. -/
  | earlier
  /-- The later moment. -/
  | later
  /-- Neither is accepted. -/
  | refuse
  deriving DecidableEq, Repr

/-- The policy of a given name. -/
def Policy.ofName? : String → Option Policy
  | "compatible" => some compatible
  | "earlier" => some earlier
  | "later" => some later
  | "raise" => some refuse
  | _ => none

/-- The offset to use for a local time whose offsets for a first and a second
reading are `before` and `after`, and the seconds by which it is moved. -/
def resolve (policy : Policy) (before after : Int) (shown key : String) : Outcome (Int × Int) :=
  if before = after then .ok (before, 0)
  else if before > after then
    match policy with
    | .refuse => .error (.repeatedTime shown key)
    | .later => .ok (after, 0)
    | .compatible | .earlier => .ok (before, 0)
  else
    match policy with
    | .refuse => .error (.skippedTime shown key)
    | .earlier => .ok (before, before - after)
    | .compatible | .later => .ok (after, after - before)

/-- The offset of a zone at a local time, which has to be less than a day. -/
def Table.offsetFor (z : Table) (fold : Bool) (t : LocalDateTime) : Outcome Int :=
  let offset := z.offsetAt fold t.date.year (t.seconds - epochDay * secondsPerDay)
  if -secondsPerDay < offset ∧ offset < secondsPerDay then .ok offset
  else .error (.offsetOfDay none)

end Zone

open Zone

/-- The moment at which it is `t` in the local time with a given offset. -/
def LocalDateTime.withOffset (t : LocalDateTime) (o : Offset) : Outcome OffsetDateTime :=
  orExceeds (OffsetDateTime.ofLocal? t o) .localDateTime

/-- The moment at which it is `t` in a zone whose offsets for a first and a second
reading of that time are `before` and `after`. -/
def LocalDateTime.withOffsets (t : LocalDateTime) (policy : Policy) (before after : Int)
    (key : String) : Outcome OffsetDateTime := do
  let (offset, shift) ← resolve policy before after t.display key
  let moved ← orExceeds (t.addOffset? ⟨shift⟩) .localDateTime
  moved.withOffset ⟨offset⟩

/-- The moment at which it is `t` in a zone. Zones can be asked in the years 1 to
9999 only, and the time has to be one that clocks show. -/
def LocalDateTime.inZone (t : LocalDateTime) (policy : Option Policy) (zone : Table)
    (key : String) : Outcome OffsetDateTime := do
  if ¬(1 ≤ t.date.year ∧ t.date.year ≤ 9999) then
    throw (.outOfRange .zoneYear)
  let _ ← t.toMicro
  let some policy := policy | throw .unknownPolicy
  let before ← zone.offsetFor false t
  let after ← zone.offsetFor true t
  t.withOffsets policy before after key

end CivilTime
