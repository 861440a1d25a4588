import CivilTime.Fault

/-!
# Calendar steps

A number of months or of days by which a date is moved. The length of such a
step in seconds is not fixed; only the calendar gives it one. The direction is
not part of the step.
-/

namespace CivilTime

/-- A number of calendar months. -/
structure Months where
  count : Int
  deriving DecidableEq, Repr

/-- A number of calendar days. -/
structure Days where
  count : Int
  deriving DecidableEq, Repr

namespace Months

/-- The counts of months that there are. -/
def InRange (m : Months) : Prop := 0 ≤ m.count ∧ m.count ≤ maxU32

/-- A number of months that fits in 32 bits. -/
def new? (count : Int) : Outcome Months := do
  return ⟨← checkRange count 0 maxU32 "months"⟩

instance : LT Months := ⟨fun a b => a.count < b.count⟩

instance (a b : Months) : Decidable (a < b) := inferInstanceAs (Decidable (a.count < b.count))

end Months

namespace Days

/-- The counts of days that there are. -/
def InRange (d : Days) : Prop := 0 ≤ d.count ∧ d.count ≤ maxU64

/-- A number of days that fits in 64 bits. -/
def new? (count : Int) : Outcome Days := do
  return ⟨← checkRange count 0 maxU64 "days"⟩

instance : LT Days := ⟨fun a b => a.count < b.count⟩

instance (a b : Days) : Decidable (a < b) := inferInstanceAs (Decidable (a.count < b.count))

end Days

end CivilTime
