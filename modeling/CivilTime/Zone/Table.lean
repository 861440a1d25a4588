import CivilTime.Zone.Footer

/-!
# Offset tables

A zone's `Table` lists the moments at which its offset changed, and has a rule for
the time after them. It is asked with local times, which is harder than asking
with moments: around a change some local times do not occur and some occur twice.
Therefore each question comes with a `fold`, which is false for a first and true
for a second reading of the clock. The two answers differ exactly where the local
time is skipped or repeated: they are the offsets before and after the change.
-/

namespace CivilTime.Zone

/-- A change of the offset. -/
structure Transition where
  /-- The moment, in seconds since the start of 1970. -/
  moment : Int
  /-- The offset from then on. -/
  offset : Int
  deriving DecidableEq, Repr

/-- The offsets of a zone through time. -/
structure Table where
  /-- The offset that the first transition changes. -/
  initial : Int
  /-- The offset that local times before the first transition have. -/
  early : Int
  transitions : List Transition
  footer : Footer
  deriving DecidableEq, Repr

namespace Table

/-- The local times at which transitions take effect, each given the offset that
it changes: the later of the two readings of the clock for a first reading, the
earlier one for a second. -/
def localTimes (fold : Bool) : Int → List Transition → List Int
  | _, [] => []
  | before, tr :: rest =>
    (tr.moment + if fold then min before tr.offset else max before tr.offset) ::
      localTimes fold tr.offset rest

/-- How many of the ascending numbers in `a` from `lo` up to `hi`, together with
all before `lo`, are at most `x`: by halving the stretch. -/
def countUpTo (a : Array Int) (x : Int) (lo hi : Nat) : Nat :=
  if lo < hi then
    let mid := (lo + hi) / 2
    if a.getD mid 0 > x then countUpTo a x lo mid else countUpTo a x (mid + 1) hi
  else hi
termination_by hi - lo

/-- The offset at a local time, given as its year and its seconds since the start
of 1970. -/
def offsetAt (z : Table) (fold : Bool) (year t : Int) : Int :=
  let times := (localTimes fold z.initial z.transitions).toArray
  match times[0]?, times.back? with
  | some first, some last =>
    if t < first then z.early
    else if t > last then z.footer.offsetAt fold year t
    else
      let n := countUpTo times t 0 times.size
      (z.transitions[n - 1]?).elim z.early (·.offset)
  | _, _ => z.footer.offsetAt fold year t

end Table

end CivilTime.Zone
