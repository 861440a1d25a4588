import CivilTime.Bytes
import CivilTime.OffsetDateTime
import CivilTime.Span

/-!
# Packed forms

Each kind of value has a compact form of a few words, least significant byte
first. Reading checks the length. For deltas, spans, offsets and dates it also
checks the value, as if it were made anew. The parts of a time or a datetime are
taken as they are, so such a time need not be one of a day, nor its date one of
the calendar. It can be packed again unless its seconds have outgrown their word.
-/

namespace CivilTime

/-- The packed forms that there are. -/
inductive Layout where
  | delta | span | offset | months | days | date | time | localDateTime | offsetDateTime
  deriving DecidableEq, Repr

/-- The name that a packed form goes by. -/
def Layout.name : Layout → String
  | delta => "_unpkl_tdelta"
  | span => "_unpkl_caldelta"
  | offset => "_unpkl_fixed"
  | months => "_unpkl_months"
  | days => "_unpkl_days"
  | date => "_unpkl_date"
  | time => "_unpkl_time"
  | localDateTime => "_unpkl_naive"
  | offsetDateTime => "_unpkl_dt"

namespace Bytes

/-- A number as four bytes, if they can hold it. -/
def ofWord (n : Int) : Outcome Bytes :=
  if 0 ≤ n ∧ n ≤ maxU32 then .ok (ofInt 4 n) else .error .packedNumber

/-- Goes on only with data of a given length. -/
def requireLength (bs : Bytes) (length : Nat) : Outcome Unit :=
  if bs.length = length then .ok () else .error (.packedLength length)

/-- The number in the `width` bytes from `start` on. -/
def natAt (bs : Bytes) (start width : Nat) : Int := toNat ((bs.drop start).take width)

/-- The integer in two's complement in the `width` bytes from `start` on. -/
def intAt (bs : Bytes) (start width : Nat) : Int := toInt ((bs.drop start).take width)

end Bytes

open Bytes

/-- Seconds in 8 bytes and nanoseconds in 4. -/
def Delta.pack (d : Delta) : Bytes := ofInt 8 d.secs ++ ofInt 4 d.nanos

@[inherit_doc Delta.pack]
def Delta.unpack (bs : Bytes) : Outcome Delta := do
  bs.requireLength 12
  Delta.new? (bs.intAt 0 8) (bs.natAt 8 4)

/-- Months and days in 4 bytes each, the clock word in 8 and nanoseconds in 4. -/
def Span.pack (s : Span) : Bytes :=
  ofInt 4 s.months ++ ofInt 4 s.days ++ ofInt 8 s.word ++ ofInt 4 s.nanos

@[inherit_doc Span.pack]
def Span.unpack (bs : Bytes) : Outcome Span := do
  bs.requireLength 20
  Span.ofParts (bs.natAt 0 4) (bs.natAt 4 4) (bs.natAt 8 8) (bs.natAt 16 4)

/-- Seconds in 4 bytes. -/
def Offset.pack (o : Offset) : Bytes := ofInt 4 o.secs

@[inherit_doc Offset.pack]
def Offset.unpack (bs : Bytes) : Outcome Offset := do
  bs.requireLength 4
  Offset.east (bs.intAt 0 4)

/-- The year in 4 bytes, month and day in one each. -/
def Date.pack (d : Date) : Bytes := ofInt 4 d.year ++ ofInt 1 d.month ++ ofInt 1 d.day

@[inherit_doc Date.pack]
def Date.unpack (bs : Bytes) : Outcome Date := do
  bs.requireLength 6
  Date.new? (bs.intAt 0 4) (bs.natAt 4 1) (bs.natAt 5 1)

/-- Seconds and fraction in 4 bytes each. -/
def TimeOfDay.pack (t : TimeOfDay) : Outcome Bytes := do
  return (← ofWord t.secs) ++ (← ofWord t.frac)

@[inherit_doc TimeOfDay.pack]
def TimeOfDay.unpack (bs : Bytes) : Outcome TimeOfDay := do
  bs.requireLength 8
  return ⟨bs.natAt 0 4, bs.natAt 4 4⟩

/-- The date and the time, one after the other. -/
def LocalDateTime.pack (t : LocalDateTime) : Outcome Bytes := do
  return t.date.pack ++ (← t.time.pack)

@[inherit_doc LocalDateTime.pack]
def LocalDateTime.unpack (bs : Bytes) : Outcome LocalDateTime := do
  bs.requireLength 14
  return ⟨⟨bs.intAt 0 4, bs.natAt 4 1, bs.natAt 5 1⟩, ⟨bs.natAt 6 4, bs.natAt 10 4⟩⟩

/-- The datetime in universal time, and the offset. -/
def OffsetDateTime.pack (t : OffsetDateTime) : Outcome Bytes := do
  return (← t.utc.pack) ++ t.offset.pack

/-- The offset is read off the end first, and is taken as it is. -/
def OffsetDateTime.unpack (bs : Bytes) : Outcome OffsetDateTime := do
  let last := bs.drop (bs.length - 4)
  requireLength last 4
  let utc ← LocalDateTime.unpack (bs.take (bs.length - 4))
  return ⟨utc, ⟨intAt last 0 4⟩⟩

end CivilTime
