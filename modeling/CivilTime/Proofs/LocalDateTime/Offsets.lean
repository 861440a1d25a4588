import CivilTime.Calculator.Operation
import CivilTime.Proofs.Delta.Construction
import CivilTime.Proofs.LocalDateTime.Sum
import CivilTime.Proofs.OffsetDateTime.Local

/-!
# Offsets and deltas

An offset moves the clock by a remainder and the date by a day at most, a delta goes through a sum
of nanoseconds and moves the date by any number of days. Outside of leap seconds the two agree: each
leads to the datetime so many seconds away, and to none exactly if the supported range has none.
A leap second is kept by an offset, but not by a delta. In leap seconds too, and where the date is
right outside of the supported range, subtracting an offset is adding the opposite one.
-/

namespace CivilTime

namespace LocalDateTime

variable {t u : LocalDateTime} {x : Delta} {k : Int}

/-- A shift by at most a day leads to the datetime so many seconds away, wherever there is one. -/
theorem shifted?_eq_some_iff (hdate : t.date.InRange) (htime : t.time.OnDay)
    (hk : -secondsPerDay ≤ k ∧ k ≤ secondsPerDay) :
    t.shifted? (t.time.shift k) = some u ↔ u.IsShiftOf t k := by
  constructor
  · intro hsome
    obtain ⟨date, hcarry, rfl⟩ := Option.map_eq_some_iff.mp hsome
    rw [carryDate?_eq_addDays?, Date.addDays?_eq_some_iff hdate] at hcarry
    have hmoved := movedBy_shifted hdate htime hk
    rw [shifted_of_shifted? hsome] at hmoved
    exact ⟨hcarry.1, hmoved.onDay, hmoved.seconds_eq, hmoved.frac_eq⟩
  · intro h
    exact shifted?_of_movedBy hdate.2 htime hk h.inRange
      ⟨h.inRange.2, h.onDay, h.seconds_eq, h.frac_eq⟩

/-- Outside of leap seconds, a datetime is so many seconds away if it is as many nanoseconds away
and in no leap second either. -/
theorem isShiftOf_iff_total (ht : t.time.Plain) :
    u.IsShiftOf t k ↔
      (u.date.InRange ∧ u.time.Plain) ∧ u.total = t.total + k * nanosPerSecond := by
  obtain ⟨hday, hfrac⟩ := ht
  constructor
  · rintro ⟨hin, honday, hseconds, hsame⟩
    refine ⟨⟨hin, honday, by rwa [hsame]⟩, ?_⟩
    rw [total, total, hseconds, hsame, Int.add_mul]
    omega
  · rintro ⟨⟨hin, honday, hplain⟩, htotal⟩
    simp only [total, nanosPerSecond] at hfrac hplain htotal
    exact ⟨hin, honday, by omega, by omega⟩

/-- Adding whole seconds outside of leap seconds leads to the datetime so many seconds away. -/
theorem addDelta?_eq_some_iff_isShiftOf (hdate : t.date.InRange) (ht : t.time.Plain)
    (hx : x.Canonical) (htotal : x.total = k * nanosPerSecond) :
    t.addDelta? x = some u ↔ u.IsShiftOf t k := by
  rw [addDelta?_eq_some_iff hdate ht hx, isShiftOf_iff_total ht, htotal]

end LocalDateTime

namespace Value

variable {t : LocalDateTime} {x y : Outcome Value} {k : Int}

/-- The outcome is the datetime so many seconds away, or nothing if the supported range has
none. -/
def LeadsTo (x : Outcome Value) (t : LocalDateTime) (k : Int) : Prop :=
  ∃ r, x = .ok (ofOption localDateTime r) ∧ ∀ u, r = some u ↔ u.IsShiftOf t k

theorem LeadsTo.eq (hx : LeadsTo x t k) (hy : LeadsTo y t k) : x = y := by
  obtain ⟨r, rfl, hr⟩ := hx
  obtain ⟨r', rfl, hr'⟩ := hy
  have hsame : r = r' := Option.ext fun u => (hr u).trans (hr' u).symm
  rw [hsame]

/-- Before a carry only the month of the date is looked at. -/
theorem requireCarry_bind (hdate : t.date.IsReal) (days : Int) (x : Outcome Value) :
    (t.requireCarry days >>= fun _ => x) = x := by
  rw [LocalDateTime.requireCarry_of_isReal hdate, ok_bind]

section Shifts

variable (hdate : t.date.InRange) (htime : t.time.OnDay)
  (hk : -secondsPerDay ≤ k ∧ k ≤ secondsPerDay)

include hdate htime hk

theorem leadsTo_addOffset : LeadsTo (LocalOp.addOffset.eval [localDateTime t, offset ⟨k⟩]) t k := by
  refine ⟨t.addOffset? ⟨k⟩, ?_, fun u => LocalDateTime.shifted?_eq_some_iff hdate htime hk⟩
  exact requireCarry_bind hdate.2 _ _

theorem leadsTo_subOffset :
    LeadsTo (LocalOp.subOffset.eval [localDateTime t, offset ⟨-k⟩]) t k := by
  refine ⟨t.subOffset? ⟨-k⟩, ?_, fun u => ?_⟩
  · exact requireCarry_bind hdate.2 _ _
  · rw [LocalDateTime.subOffset?, TimeOfDay.subOffset, Int.neg_neg]
    exact LocalDateTime.shifted?_eq_some_iff hdate htime hk

theorem addOffsetAnyway_movedBy :
    ∃ u, LocalOp.addOffsetAnyway.eval [localDateTime t, offset ⟨k⟩] = .ok (localDateTime u) ∧
      LocalOp.subOffsetAnyway.eval [localDateTime t, offset ⟨-k⟩] = .ok (localDateTime u) ∧
      u.MovedBy t k := by
  refine ⟨t.addOffset ⟨k⟩, ?_, ?_, LocalDateTime.movedBy_shifted hdate htime hk⟩
  · exact requireCarry_bind hdate.2 _ _
  · have hsame : t.subOffset ⟨-k⟩ = t.addOffset ⟨k⟩ := by
      rw [LocalDateTime.subOffset, TimeOfDay.subOffset, Int.neg_neg]
      rfl
    rw [← hsame]
    exact requireCarry_bind hdate.2 _ _

end Shifts

/-- Before days are added only the month of the date is looked at. -/
theorem requireMove_bind (hdate : t.date.IsReal) (days : Int) (x : Outcome Value) :
    (t.date.requireMove days >>= fun _ => x) = x := by
  rw [Date.requireMove_of_isReal hdate, ok_bind]

section Sums

variable {d : Delta} (hdate : t.date.InRange) (ht : t.time.Plain) (hd : d.Canonical)

include hdate ht hd

theorem leadsTo_addDelta (htotal : d.total = k * nanosPerSecond) :
    LeadsTo (LocalOp.addDelta.eval [localDateTime t, delta d]) t k := by
  refine ⟨t.addDelta? d, ?_, fun u =>
    LocalDateTime.addDelta?_eq_some_iff_isShiftOf hdate ht hd htotal⟩
  exact requireMove_bind hdate.2 _ _

theorem leadsTo_subDelta (htotal : d.total = -k * nanosPerSecond) :
    LeadsTo (LocalOp.subDelta.eval [localDateTime t, delta d]) t k := by
  have hneg : (-d).total = k * nanosPerSecond := by
    rw [Delta.total_neg, htotal, Int.neg_mul, Int.neg_neg]
  refine ⟨t.subDelta? d, ?_, fun u => ?_⟩
  · exact requireMove_bind hdate.2 _ _
  · rw [LocalDateTime.subDelta?_eq]
    exact LocalDateTime.addDelta?_eq_some_iff_isShiftOf hdate ht (Delta.canonical_neg hd) hneg

end Sums

/-- For every number of seconds that is an offset, outside of leap seconds adding and subtracting
the offset is adding and subtracting the delta of so many seconds. In leap seconds too, subtracting
the offset is adding the opposite one, and so it is where the result may be right outside of the
supported range. None of these calls fails. They lead exactly so many seconds away, and to nothing
exactly if the supported range has no such datetime. -/
theorem offsets_shift_like_deltas {s : Int} (hdate : t.date.InRange) (htime : t.time.OnClock)
    (hs : -86399 ≤ s ∧ s ≤ 86399) :
    ∃ o opposite d, (OffsetOp.new.eval [integer s] = .ok o ∧
        OffsetOp.new.eval [integer (-s)] = .ok opposite ∧
        (DeltaOp.ofCount .seconds).eval [integer s] = .ok d) ∧
      (¬t.time.InLeapSecond →
        LocalOp.addOffset.eval [localDateTime t, o] = LocalOp.addDelta.eval [localDateTime t, d] ∧
        LocalOp.subOffset.eval [localDateTime t, o] = LocalOp.subDelta.eval [localDateTime t, d]) ∧
      LocalOp.subOffset.eval [localDateTime t, o] =
        LocalOp.addOffset.eval [localDateTime t, opposite] ∧
      LocalOp.subOffsetAnyway.eval [localDateTime t, o] =
        LocalOp.addOffsetAnyway.eval [localDateTime t, opposite] ∧
      LeadsTo (LocalOp.addOffset.eval [localDateTime t, o]) t s ∧
      LeadsTo (LocalOp.subOffset.eval [localDateTime t, o]) t (-s) ∧
      ∃ u, LocalOp.subOffsetAnyway.eval [localDateTime t, o] = .ok (localDateTime u) ∧
        u.MovedBy t (-s) := by
  have hthere : -secondsPerDay ≤ s ∧ s ≤ secondsPerDay := by
    simp only [secondsPerDay]
    omega
  have hback : -secondsPerDay ≤ -s ∧ -s ≤ secondsPerDay := by omega
  have hopposite : -86399 ≤ -s ∧ -s ≤ 86399 := by omega
  have honday : t.time.OnDay := htime.1
  have hadd := leadsTo_addOffset hdate honday hthere
  have hsub := leadsTo_subOffset hdate honday hback
  obtain ⟨u, haddAnyway, hsubAnyway, hmoved⟩ := addOffsetAnyway_movedBy hdate honday hback
  rw [Int.neg_neg] at hsub hsubAnyway
  have hcount : Delta.Scale.seconds.least ≤ s ∧ s ≤ Delta.Scale.seconds.greatest := by
    simp only [Delta.Scale.least, Delta.Scale.greatest, minI32, maxI32]
    omega
  have hcanonical := Delta.canonical_ofTotal (s * Delta.Scale.seconds.nanos)
  have htotal := Delta.total_ofTotal (s * Delta.Scale.seconds.nanos)
  refine ⟨offset ⟨s⟩, offset ⟨-s⟩, delta (.ofTotal (s * Delta.Scale.seconds.nanos)),
    ⟨?_, ?_, ?_⟩, fun hleap => ?_, ?_, ?_, hadd, hsub, u, hsubAnyway, hmoved⟩
  · change offset <$> Offset.east s = _
    rw [Offset.east, checkRange, if_pos hs]
    rfl
  · change offset <$> Offset.east (-s) = _
    rw [Offset.east, checkRange, if_pos hopposite]
    rfl
  · rw [DeltaOp.eval, asNamed, ok_bind, Delta.ofCount_of_mem hcount, ok_bind]
    rfl
  · have hplain := htime.plain hleap
    have hminus : -(-s) * nanosPerSecond = s * nanosPerSecond := by rw [Int.neg_neg]
    exact ⟨hadd.eq (leadsTo_addDelta hdate hplain hcanonical htotal),
      hsub.eq (leadsTo_subDelta hdate hplain hcanonical (htotal.trans hminus.symm))⟩
  · exact hsub.eq (leadsTo_addOffset hdate honday hback)
  · rw [hsubAnyway, haddAnyway]

/-- One second after the last one there is nothing, and the last leap second of all moves into the
day after the supported range, where it stays a leap second. -/
theorem offsets_shift_like_deltas_at_max :
    let last : LocalDateTime := ⟨Date.max, ⟨86399, 999999999⟩⟩
    (LocalOp.addOffset.eval [localDateTime last, offset ⟨1⟩] = .ok nothing ∧
      LocalOp.addDelta.eval [localDateTime last, delta ⟨1, 0⟩] = .ok nothing) ∧
    LocalOp.subOffsetAnyway.eval [localDateTime LocalDateTime.max, offset ⟨-1⟩] =
      .ok (localDateTime ⟨Date.afterMax, ⟨0, 1999999999⟩⟩) ∧
    LocalOp.addOffsetAnyway.eval [localDateTime LocalDateTime.max, offset ⟨1⟩] =
      .ok (localDateTime ⟨Date.afterMax, ⟨0, 1999999999⟩⟩) := by
  intro last
  obtain ⟨o, -, d, ⟨ho, -, hd⟩, hagree, -⟩ := offsets_shift_like_deltas (t := last) (s := 1)
    (by decide) (by decide) (by decide)
  obtain rfl : offset ⟨1⟩ = o := Except.ok.inj ho
  obtain rfl : delta ⟨1, 0⟩ = d := Except.ok.inj hd
  obtain ⟨o, opposite, -, ⟨ho, hopposite, -⟩, -, -, hanyway, -⟩ := offsets_shift_like_deltas
    (t := LocalDateTime.max) (s := -1) (by decide) (by decide) (by decide)
  obtain rfl : offset ⟨-1⟩ = o := Except.ok.inj ho
  obtain rfl : offset ⟨1⟩ = opposite := Except.ok.inj hopposite
  have hnothing : LocalOp.addOffset.eval [localDateTime last, offset ⟨1⟩] = .ok nothing := rfl
  have hmoved : LocalOp.addOffsetAnyway.eval [localDateTime LocalDateTime.max, offset ⟨1⟩] =
      .ok (localDateTime ⟨Date.afterMax, ⟨0, 1999999999⟩⟩) := rfl
  exact ⟨⟨hnothing, (hagree (by decide)).1.symm.trans hnothing⟩, hanyway.trans hmoved, hmoved⟩

end Value

end CivilTime
