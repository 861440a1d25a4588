import CivilTime.Fault
import CivilTime.Text.Digits

/-!
# Offsets from universal time

An `Offset` says by how many seconds the local time is ahead of universal time.
It is less than a day either way. Its text is a sign, hours and minutes, and the
seconds if there are any.
-/

namespace CivilTime

/-- Local time minus universal time, in seconds. -/
structure Offset where
  secs : Int
  deriving DecidableEq, Repr

namespace Offset

/-- The offset of universal time itself. -/
def utc : Offset := ⟨0⟩

/-- An offset is less than a day either way. -/
def InRange (o : Offset) : Prop := -86399 ≤ o.secs ∧ o.secs ≤ 86399

instance : DecidablePred InRange := fun _ => inferInstanceAs (Decidable (_ ∧ _))

/-- The offset with local time ahead by the given number of seconds. -/
def east (secs : Int) : Outcome Offset := do
  return ⟨← checkRange secs (-86399) 86399 "offset"⟩

/-- The offset with local time behind by the given number of seconds. -/
def west (secs : Int) : Outcome Offset := do
  return ⟨-(← checkRange secs (-86399) 86399 "offset")⟩

instance : LT Offset := ⟨fun a b => a.secs < b.secs⟩

instance (a b : Offset) : Decidable (a < b) := inferInstanceAs (Decidable (a.secs < b.secs))

/-- An offset as a list of characters. -/
def toChars (o : Offset) : List Char :=
  let s := o.secs.natAbs
  (if o.secs < 0 then '-' else '+') :: Text.padded 2 (s / 3600) ++
    ':' :: Text.padded 2 (s / 60 % 60) ++
    if s % 60 = 0 then [] else ':' :: Text.padded 2 (s % 60)

/-- An offset as text. -/
def format (o : Offset) : String := String.ofList o.toChars

end Offset

end CivilTime
