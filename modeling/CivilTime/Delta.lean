import CivilTime.Fault

/-!
# Deltas

A `Delta` is a signed amount of time, exact to the nanosecond. It is stored as
whole seconds, rounded down, and the nanoseconds left over, which are never
negative: minus one and a half seconds is -2 seconds and 500000000 nanoseconds.
`Delta.total` is the exact number of nanoseconds behind the two parts.

The range is symmetric, 2^63 - 1 milliseconds either way, so that negating a
delta never leaves it.
-/

namespace CivilTime

/-- A signed amount of time: whole seconds, and nanoseconds on top of them. -/
structure Delta where
  secs : Int
  nanos : Int
  deriving DecidableEq, Repr

/-- The number of nanoseconds of a second. -/
def nanosPerSecond : Int := 1000000000

/-- The number of seconds of a day, leap seconds aside. -/
def secondsPerDay : Int := 86400

namespace Delta

/-- The exact number of nanoseconds. -/
def total (d : Delta) : Int := d.secs * nanosPerSecond + d.nanos

/-- The delta with the given number of nanoseconds. -/
def ofTotal (n : Int) : Delta := ⟨n / nanosPerSecond, n % nanosPerSecond⟩

/-- The seconds are rounded down: the nanoseconds make up less than one more. -/
def Canonical (d : Delta) : Prop := 0 ≤ d.nanos ∧ d.nanos < nanosPerSecond

instance : DecidablePred Canonical := fun _ => inferInstanceAs (Decidable (_ ∧ _))

instance : LT Delta :=
  ⟨fun a b => a.secs < b.secs ∨ a.secs = b.secs ∧ a.nanos < b.nanos⟩

instance (a b : Delta) : Decidable (a < b) :=
  inferInstanceAs (Decidable (a.secs < b.secs ∨ a.secs = b.secs ∧ a.nanos < b.nanos))

instance : LE Delta :=
  ⟨fun a b => a.secs < b.secs ∨ a.secs = b.secs ∧ a.nanos ≤ b.nanos⟩

instance (a b : Delta) : Decidable (a ≤ b) :=
  inferInstanceAs (Decidable (a.secs < b.secs ∨ a.secs = b.secs ∧ a.nanos ≤ b.nanos))

def zero : Delta := ⟨0, 0⟩

/-- The longest delta: 2^63 - 1 milliseconds. -/
def max : Delta := ⟨9223372036854775, 807000000⟩

/-- The negated longest delta. -/
def min : Delta := ⟨-9223372036854776, 193000000⟩

/-- The bound on the number of nanoseconds, either way. -/
def maxTotal : Int := 9223372036854775807 * 1000000

/-- A delta as operations make it: canonical, and between `min` and `max`. -/
def InRange (d : Delta) : Prop := d.Canonical ∧ min ≤ d ∧ d ≤ max

instance : DecidablePred InRange := fun _ => inferInstanceAs (Decidable (_ ∧ _))

/-- A delta of the given parts, if it lies between `min` and `max`. -/
def check? (d : Delta) : Option Delta := if min ≤ d ∧ d ≤ max then some d else none

/-- Moves one second between the parts where the nanoseconds are off by less
than a second. -/
def carry (secs nanos : Int) : Delta :=
  if nanos < 0 then ⟨secs - 1, nanos + nanosPerSecond⟩
  else if nanos ≥ nanosPerSecond then ⟨secs + 1, nanos - nanosPerSecond⟩
  else ⟨secs, nanos⟩

/-- A delta of the given parts. -/
def new? (secs nanos : Int) : Outcome Delta := do
  let _ ← checkRange secs minI64 maxI64 "secs"
  let _ ← checkRange nanos 0 maxU32 "nanos"
  require (nanos < nanosPerSecond) .nanosBelowSecond
  orExceeds (check? ⟨secs, nanos⟩) .delta

/-! ## Arithmetic -/

def add? (a b : Delta) : Option Delta := check? (carry (a.secs + b.secs) (a.nanos + b.nanos))

def sub? (a b : Delta) : Option Delta := check? (carry (a.secs - b.secs) (a.nanos - b.nanos))

/-- An integer multiple. -/
def mul? (d : Delta) (k : Int) : Option Delta :=
  check? ⟨d.secs * k + d.nanos * k / nanosPerSecond, d.nanos * k % nanosPerSecond⟩

/-- The quotient by an integer. There is none by zero. The seconds are divided
first, and then what they leave and the nanoseconds, each rounded toward zero by
itself. The sum of these is not always the whole quotient rounded toward zero: it
can be one nanosecond off. -/
def div? (d : Delta) (k : Int) : Option Delta :=
  if k = 0 then none
  else
    let secs := d.secs.tdiv k
    let left := d.secs - secs * k
    check? (carry secs (d.nanos.tdiv k + (left * nanosPerSecond).tdiv k))

/-- The negated delta. -/
def neg (d : Delta) : Delta :=
  if d.nanos = 0 then ⟨-d.secs, 0⟩ else ⟨-d.secs - 1, nanosPerSecond - d.nanos⟩

instance : Neg Delta := ⟨neg⟩

/-- The delta without its sign. -/
def abs (d : Delta) : Delta := if d.secs < 0 then -d else d

def isZero (d : Delta) : Bool := d.secs = 0 && d.nanos = 0

/-- The bounds that the argument of a multiplication or division has to keep. -/
def checkMultiplier (k : Int) : Outcome Int := checkRange k minI32 maxI32 "multiplier"

@[inherit_doc checkMultiplier]
def checkDivisor (k : Int) : Outcome Int := checkRange k minI32 maxI32 "divisor"

/-! ## Reading the parts

The parts that are shown round toward zero and have the sign of the delta. -/

/-- The number of whole seconds, rounded toward zero. -/
def wholeSeconds (d : Delta) : Int := if d.secs < 0 ∧ 0 < d.nanos then d.secs + 1 else d.secs

/-- The nanoseconds beside the whole seconds, with the sign of the delta. -/
def subsecNanos (d : Delta) : Int :=
  if d.secs < 0 ∧ 0 < d.nanos then d.nanos - nanosPerSecond else d.nanos

/-- The number of whole days, rounded toward zero. -/
def wholeDays (d : Delta) : Int := d.wholeSeconds.tdiv secondsPerDay

end Delta

end CivilTime
