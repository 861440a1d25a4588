import CivilTime.OffsetDateTime

/-!
# Places in the year

A packed datetime is unpacked as it is, so its month can lie beyond December. Such
a date can be written, compared and moved by months, but it has no place in the
year and no day number. What needs the place of a date asks for it first, with the
checks of this module. A real date passes all of them.
-/

namespace CivilTime

/-- Goes on only with a number that stands for a month, from the start or the end of
the year, or for the place before the first. The number has to fit into a word. -/
def Calendar.requireMonth (month : Int) : Outcome Unit :=
  if -13 ≤ month ∧ month ≤ 12 then .ok ()
  else if minI64 ≤ month ∧ month ≤ maxI64 then .error .noSuchMonth
  else .error .monthBeyondWord

namespace Date

/-- Goes on only with a date that has a place in the year. -/
def requirePlace (d : Date) : Outcome Unit := Calendar.requireMonth d.month

/-- Goes on only with a date that can be moved by some days. By no days all can. -/
def requireMove (d : Date) (days : Int) : Outcome Unit :=
  if days = 0 then .ok () else d.requirePlace

theorem requirePlace_of_isReal {d : Date} (h : d.IsReal) : d.requirePlace = .ok () :=
  if_pos ⟨by have := h.1; omega, h.1.2⟩

theorem requireMove_of_isReal {d : Date} (h : d.IsReal) (days : Int) :
    d.requireMove days = .ok () := by
  rw [requireMove, requirePlace_of_isReal h, ite_self]

end Date

namespace LocalDateTime

/-- Goes on only with a datetime to which the delta can be added. -/
def requireAdd (t : LocalDateTime) (x : Delta) : Outcome Unit :=
  t.date.requireMove ((t.time.addDelta x).2 / secondsPerDay)

/-- Goes on only with a datetime from which the delta can be subtracted. -/
def requireSub (t : LocalDateTime) (x : Delta) : Outcome Unit :=
  t.date.requireMove ((t.time.subDelta x).2 / secondsPerDay)

/-- Goes on only with a datetime whose date can take a carry. Only a carry of one day
moves it. -/
def requireCarry (t : LocalDateTime) (days : Int) : Outcome Unit :=
  if days = 1 ∨ days = -1 then t.date.requirePlace else .ok ()

/-- Goes on only with a datetime in universal time that has a local one. -/
def requireAddOffset (t : LocalDateTime) (o : Offset) : Outcome Unit :=
  t.requireCarry (t.time.addOffset o).2

/-- Goes on only with a local datetime that has one in universal time. -/
def requireSubOffset (t : LocalDateTime) (o : Offset) : Outcome Unit :=
  t.requireCarry (t.time.subOffset o).2

theorem requireCarry_of_isReal {t : LocalDateTime} (h : t.date.IsReal) (days : Int) :
    t.requireCarry days = .ok () := by
  rw [requireCarry, Date.requirePlace_of_isReal h, ite_self]

end LocalDateTime

/-- Goes on only with a moment that has a local datetime. -/
def OffsetDateTime.requireLocal (t : OffsetDateTime) : Outcome Unit :=
  t.utc.requireAddOffset t.offset

end CivilTime
