import CivilTime.Proofs.Delta.Construction
import CivilTime.Proofs.Delta.Division
import CivilTime.Proofs.LocalDateTime.Difference
import CivilTime.Proofs.OffsetDateTime.Local

/-!
# Deltas from elsewhere

Deltas do not only come from sums and multiples of deltas. They are also counted in units, divided,
converted from durations with microseconds, read, unpacked and taken between dates, times and
datetimes. Only some of these ways check the range at the end. The others cannot leave it, as far
apart as the arguments may be, and so they never fail.
-/

namespace CivilTime

namespace Delta

theorem exists_ofCount {u : Scale} {n : Int} (h : u.least ≤ n ∧ n ≤ u.greatest) :
    ∃ d, ofCount u n = .ok d ∧ d.InRange :=
  ⟨_, ofCount_of_mem h, gives_ofCount_inRange u n _ (ofCount_of_mem h)⟩

/-- Even the longest durations with microseconds are far from the ends of the range. -/
theorem exists_ofMicro {m : Micro.Delta} (hm : m.InRange)
    (hdays : 0 ≤ m.days ∧ m.days ≤ maxMicroDays) : ∃ d, ofMicro m = .ok d ∧ d.InRange := by
  obtain ⟨hsecs, hmicros⟩ := hm
  simp only [maxMicroDays, secondsPerDay, Micro.microsPerSecond] at hdays hsecs hmicros
  let d : Delta := ⟨m.days * secondsPerDay + m.secs, m.micros * 1000⟩
  have hcanonical : d.Canonical := by
    simp only [Canonical, d, nanosPerSecond]
    omega
  have hrange : d.InRange := by
    rw [inRange_iff hcanonical]
    simp only [total, d, maxTotal, secondsPerDay, nanosPerSecond]
    omega
  refine ⟨d, ?_, hrange⟩
  rw [ofMicro, if_neg (by omega)]
  exact orExceeds_eq_ok.mpr (if_pos hrange.2)

theorem gives_unpack_inRange (bs : Bytes) : Gives (Delta.unpack bs) InRange := by
  refine gives_then fun _ => ?_
  intro d h
  obtain ⟨hrange, rfl⟩ := new?_eq_ok.mp h
  exact hrange

end Delta

/-! ## Differences -/

theorem Date.Showable.nearRange {d : Date} (h : d.Showable) : d.NearRange := by
  rcases h with hin | rfl | rfl
  · exact hin.nearRange
  · exact ⟨by decide, by decide⟩
  · exact ⟨by decide, by decide⟩

theorem Date.inRange_since {a b : Date} (ha : a.NearRange) (hb : b.NearRange) :
    (a.since b).InRange := by
  simp only [NearRange, dayNumber_min, dayNumber_max] at ha hb
  rw [Delta.inRange_iff (canonical_since a b), total_since]
  simp only [Delta.maxTotal, TimeOfDay.nanosPerDay, secondsPerDay, nanosPerSecond]
  omega

theorem TimeOfDay.inRange_since {t u : TimeOfDay} (ht : t.OnClock) (hu : u.OnClock) :
    (t.since u).InRange := by
  have hbounds := total_since_bounds ht hu
  rw [Delta.inRange_iff (canonical_since t u)]
  simp only [Delta.maxTotal, nanosPerDay, secondsPerDay, nanosPerSecond] at *
  omega

theorem LocalDateTime.exists_since?_inRange {a b : LocalDateTime} (ha : a.date.NearRange)
    (hb : b.date.NearRange) (hat : a.time.OnClock) (hbt : b.time.OnClock) :
    ∃ d, a.since? b = some d ∧ d.InRange := by
  obtain ⟨d, hd, -, -⟩ := exists_since? ha hb hat hbt
  have hcanonical := Delta.canonical_carry_add (Date.canonical_since a.date b.date)
    (TimeOfDay.canonical_since a.time b.time)
  exact ⟨d, hd, Delta.inRange_of_check? hcanonical hd⟩

namespace Value

/-- The value is a delta in range. -/
def IsDelta (v : Value) : Prop := ∃ d, v = delta d ∧ d.InRange

/-- There is a result, and it is a delta in range. -/
def YieldsDelta (r : Outcome Value) : Prop := ∃ v, r = .ok v ∧ v.IsDelta

theorem yieldsDelta_ok {d : Delta} (h : d.InRange) : YieldsDelta (.ok (delta d)) :=
  ⟨delta d, rfl, d, rfl, h⟩

/-- Whatever makes a delta in range still does as an operation on values. -/
theorem yieldsDelta_returned {r : Outcome Delta} (h : ∃ d, r = .ok d ∧ d.InRange) :
    YieldsDelta (r >>= fun d => pure (delta d)) := by
  obtain ⟨d, hd, hrange⟩ := h
  rw [hd]
  exact yieldsDelta_ok hrange

theorem yieldsDelta_betweenDates {a b : Date} (ha : a.Showable) (hb : b.Showable) :
    YieldsDelta (betweenDates a b) := by
  rw [betweenDates_of_isReal ha.isReal hb.isReal]
  exact yieldsDelta_ok (Date.inRange_since ha.nearRange hb.nearRange)

theorem yieldsDelta_between {a b : LocalDateTime} (ha : a.date.Showable) (hb : b.date.Showable)
    (hat : a.time.OnClock) (hbt : b.time.OnClock) : YieldsDelta (between a b) := by
  obtain ⟨d, hd, hrange⟩ :=
    LocalDateTime.exists_since?_inRange ha.nearRange hb.nearRange hat hbt
  rw [between_of_isReal ha.isReal hb.isReal hd]
  exact yieldsDelta_ok hrange

/-- A count of units, a quotient, a duration that is not negative and a difference always give a
delta in range, and a text or packed bytes do if they are accepted. Only counts outside of the
bounds of their unit are refused. A quotient by a number other than zero always exists, since moving
its nanoseconds by one second is enough. Leap seconds and the days right outside of the calendar
make no exception. -/
theorem every_delta_in_range :
    (∀ u n, if u.least ≤ n ∧ n ≤ u.greatest then YieldsDelta (DeltaOp.eval (.ofCount u) [integer n])
      else DeltaOp.eval (.ofCount u) [integer n] = .error (.outOfRange (.argument u.name))) ∧
    (∀ d k, d.InRange → k ≠ 0 → minI32 ≤ k ∧ k ≤ maxI32 →
      YieldsDelta (DeltaOp.div.eval [delta d, integer k]) ∧
        YieldsDelta (div (delta d) (integer k))) ∧
    (∀ m, m.InRange → 0 ≤ m.days ∧ m.days ≤ Delta.maxMicroDays →
      YieldsDelta (DeltaOp.ofMicro.eval [microDelta m])) ∧
    (∀ s, Gives (DeltaOp.parse.eval [text s]) IsDelta) ∧
    (∀ bs, Gives (unpack .delta (bytes bs)) IsDelta) ∧
    (∀ a b, a.Showable → b.Showable →
      YieldsDelta (DateOp.since.eval [date a, date b]) ∧ YieldsDelta (sub (date a) (date b))) ∧
    (∀ a b, a.OnClock → b.OnClock →
      YieldsDelta (TimeOp.since.eval [time a, time b]) ∧ YieldsDelta (sub (time a) (time b))) ∧
    ∀ a b : LocalDateTime, a.date.Showable → b.date.Showable → a.time.OnClock → b.time.OnClock →
      YieldsDelta (LocalOp.since.eval [localDateTime a, localDateTime b]) ∧
        YieldsDelta (sub (localDateTime a) (localDateTime b)) ∧
        ∀ o o', YieldsDelta (sub (offsetDateTime ⟨a, o⟩) (offsetDateTime ⟨b, o'⟩)) := by
  refine ⟨?counts, ?quotients, ?durations, ?texts, ?packed, ?dates, ?times, ?datetimes⟩
  case counts =>
    intro u n
    rw [DeltaOp.eval, asNamed, ok_bind]
    split
    case isTrue hn => exact yieldsDelta_returned (Delta.exists_ofCount hn)
    case isFalse hn =>
      rw [Delta.ofCount, checkRange, if_neg hn]
      rfl
  case quotients =>
    intro d k hd hk hword
    have hrange := Delta.inRange_quotient hd hk
    rw [eval_div_eq_ok hd hk hword, div_eq_ok hd hk hword]
    exact ⟨yieldsDelta_ok hrange, yieldsDelta_ok hrange⟩
  case durations =>
    intro m hm hdays
    rw [DeltaOp.eval]
    exact yieldsDelta_returned (Delta.exists_ofMicro hm hdays)
  case texts =>
    intro s
    rw [DeltaOp.eval, asText, ok_bind, gives_bind]
    exact (Delta.gives_parse_inRange s).mono fun d hd => gives_pure.mpr ⟨d, rfl, hd⟩
  case packed =>
    intro bs
    rw [unpack, gives_map]
    exact (Delta.gives_unpack_inRange bs).mono fun d hd => ⟨d, rfl, hd⟩
  case dates =>
    intro a b ha hb
    exact ⟨yieldsDelta_betweenDates ha hb, yieldsDelta_betweenDates ha hb⟩
  case times =>
    intro a b ha hb
    have hrange := TimeOfDay.inRange_since ha hb
    exact ⟨yieldsDelta_ok hrange, yieldsDelta_ok hrange⟩
  case datetimes =>
    intro a b ha hb hat hbt
    have hyields := yieldsDelta_between ha hb hat hbt
    exact ⟨hyields, hyields, fun _ _ => hyields⟩

/-- The least delta by minus one, the longest duration with microseconds, and differences from one
end of the calendar to the other: between the days outside of it, between a leap second and
midnight, and between datetimes of those. -/
theorem every_delta_in_range_at_ends :
    let first : LocalDateTime := ⟨Date.beforeMin, ⟨0, 0⟩⟩
    let last : LocalDateTime := ⟨Date.afterMax, ⟨86399, 1999999999⟩⟩
    YieldsDelta (div (delta Delta.min) (integer (-1))) ∧
      YieldsDelta (DeltaOp.ofMicro.eval [microDelta ⟨Delta.maxMicroDays, 86399, 999999⟩]) ∧
      YieldsDelta (sub (date first.date) (date last.date)) ∧
      YieldsDelta (sub (time first.time) (time last.time)) ∧
      YieldsDelta (sub (offsetDateTime ⟨first, ⟨-86399⟩⟩) (offsetDateTime ⟨last, ⟨86399⟩⟩)) := by
  intro first last
  obtain ⟨-, hquotient, hduration, -, -, hdates, htimes, hdatetimes⟩ := every_delta_in_range
  have hfirst : first.date.Showable := .inr (.inl rfl)
  have hlast : last.date.Showable := .inr (.inr rfl)
  have hstart : first.time.OnClock := by decide
  have hleap : last.time.OnClock := by decide
  have hmicro : Micro.Delta.InRange ⟨Delta.maxMicroDays, 86399, 999999⟩ :=
    ⟨by decide, by decide⟩
  exact ⟨(hquotient _ _ (by decide) (by decide) (by decide)).2, hduration _ hmicro (by decide),
    (hdates _ _ hfirst hlast).2, (htimes _ _ hstart hleap).2,
    (hdatetimes _ _ hfirst hlast hstart hleap).2.2 _ _⟩

end Value

end CivilTime
