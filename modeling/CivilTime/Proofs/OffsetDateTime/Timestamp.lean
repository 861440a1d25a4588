import Mathlib.Data.Prod.Lex
import CivilTime.Calculator.Operation
import CivilTime.Proofs.Calculator.Comparison
import CivilTime.Proofs.LocalDateTime.Difference
import CivilTime.Proofs.OffsetDateTime.Local

/-!
# Moments by their timestamps

The timestamp of a moment and the nanoseconds past it tell the moment, without the calendar and
whatever the offset. Moments compare as these pairs do, the timestamps first. Their differences are
those of the numbers of nanoseconds, as long as no leap second is involved.
-/

namespace CivilTime

namespace OffsetDateTime

variable {a b : OffsetDateTime}

/-- The timestamp and the nanoseconds past it. -/
def stamp (t : OffsetDateTime) : Int × Int := (t.timestamp, t.timestampNanos)

/-- The number of nanoseconds since the start of 1970, leap seconds aside. -/
def nanosSinceEpoch (t : OffsetDateTime) : Int :=
  t.timestamp * nanosPerSecond + t.timestampNanos

/-- Timestamps are seconds on the line of universal time, counted from the epoch. -/
theorem timestamp_eq (t : OffsetDateTime) :
    t.timestamp = t.utc.seconds - LocalDateTime.epoch.seconds := by
  have hmidnight : LocalDateTime.epoch.time.secs = 0 := rfl
  simp only [timestamp, LocalDateTime.seconds, secondsPerDay, hmidnight]
  omega

theorem lt_iff_stamp_lt (ha : a.utc.Valid) (hb : b.utc.Valid) :
    a < b ↔ toLex a.stamp < toLex b.stamp := by
  have hseconds := LocalDateTime.lt_iff_seconds ha.1.2 hb.1.2 ha.2.onClock hb.2.onClock
  have hsame : a.utc.seconds = b.utc.seconds ↔ a.timestamp = b.timestamp := by
    rw [timestamp_eq, timestamp_eq]
    omega
  have hless : a.utc.seconds < b.utc.seconds ↔ a.timestamp < b.timestamp := by
    rw [timestamp_eq, timestamp_eq]
    omega
  rw [hsame, hless] at hseconds
  rw [Prod.Lex.toLex_lt_toLex]
  exact hseconds

theorem sameMoment_iff_stamp_eq (ha : a.utc.Valid) (hb : b.utc.Valid) :
    a.sameMoment b ↔ a.stamp = b.stamp := by
  rw [sameMoment, decide_eq_true_iff, stamp, stamp, Prod.mk.injEq]
  constructor
  · intro hutc
    exact ⟨by rw [timestamp_eq, timestamp_eq, hutc], congrArg (·.time.frac) hutc⟩
  · rintro ⟨hseconds, hfrac⟩
    rw [timestamp_eq, timestamp_eq] at hseconds
    exact LocalDateTime.eq_of_seconds_eq ha.1.2 hb.1.2 ha.2.onDay hb.2.onDay (by omega) hfrac

theorem nanosSinceEpoch_eq (t : OffsetDateTime) :
    t.nanosSinceEpoch = t.utc.total - LocalDateTime.epoch.seconds * nanosPerSecond := by
  simp only [nanosSinceEpoch, timestamp_eq, timestampNanos, LocalDateTime.total, nanosPerSecond]
  omega

end OffsetDateTime

namespace Value

variable {a b : OffsetDateTime}

theorem compare_offsetDateTime (op : Comparison) (a b : OffsetDateTime) :
    compare op (offsetDateTime a) (offsetDateTime b) = .ok (holds op (compareBy a b)) :=
  compare_eq_ok op rfl

theorem compareBy_offsetDateTime (ha : a.utc.Valid) (hb : b.utc.Valid) :
    compareBy a b = compareBy (toLex a.stamp) (toLex b.stamp) :=
  compareBy_congr (OffsetDateTime.lt_iff_stamp_lt ha hb) (OffsetDateTime.lt_iff_stamp_lt hb ha)

/-- The timestamp and the nanoseconds past it can always be asked for. Moments are before, equal
to or after each other as these pairs are, also in leap seconds, and the difference of two moments
outside of leap seconds is that of their numbers of nanoseconds. Offsets play no part in this. -/
theorem moments_agree_with_stamps (ha : a.utc.Valid) (hb : b.utc.Valid) :
    (MomentOp.timestamp.eval [offsetDateTime a] = .ok (integer a.timestamp) ∧
      MomentOp.timestampNanos.eval [offsetDateTime a] = .ok (integer a.timestampNanos)) ∧
    (a < b ↔ toLex a.stamp < toLex b.stamp) ∧
    (same (offsetDateTime a) (offsetDateTime b) ↔ a.stamp = b.stamp) ∧
    (∀ op, compare op (offsetDateTime a) (offsetDateTime b) =
      .ok (holds op (compareBy (toLex a.stamp) (toLex b.stamp)))) ∧
    (¬a.utc.time.InLeapSecond → ¬b.utc.time.InLeapSecond →
      ∃ d, sub (offsetDateTime a) (offsetDateTime b) = .ok (delta d) ∧ d.Canonical ∧
        d.total = a.nanosSinceEpoch - b.nanosSinceEpoch) := by
  refine ⟨⟨?timestamp, rfl⟩, OffsetDateTime.lt_iff_stamp_lt ha hb, ?same, ?compare, ?sub⟩
  case timestamp =>
    rw [MomentOp.eval, Date.requirePlace_of_isReal ha.1.2]
    rfl
  case same =>
    rw [same]
    exact OffsetDateTime.sameMoment_iff_stamp_eq ha hb
  case compare =>
    intro op
    rw [compare_offsetDateTime, compareBy_offsetDateTime ha hb]
  case sub =>
    intro haplain hbplain
    have hat := ha.2.onClock.plain haplain
    have hbt := hb.2.onClock.plain hbplain
    obtain ⟨d, hd, hcanonical, htotal⟩ :=
      LocalDateTime.exists_since? ha.1.nearRange hb.1.nearRange hat.onClock hbt.onClock
    refine ⟨d, between_eq_ok ha hb hd, hcanonical, ?_⟩
    rw [TimeOfDay.leapBetween_of_plain hat hbt] at htotal
    rw [htotal, OffsetDateTime.nanosSinceEpoch_eq, OffsetDateTime.nanosSinceEpoch_eq]
    omega

/-- The last nanosecond before the year 0 where it is the first of January already, and the start
of that year where it is still the last of December. -/
theorem moments_agree_with_stamps_year_zero :
    let a : OffsetDateTime := ⟨⟨⟨-1, 12, 31⟩, ⟨86399, 999999999⟩⟩, ⟨50400⟩⟩
    let b : OffsetDateTime := ⟨⟨⟨0, 1, 1⟩, ⟨0, 0⟩⟩, ⟨-43200⟩⟩
    b.localDateTime < a.localDateTime ∧ toLex a.stamp < toLex b.stamp ∧
      ∃ d, sub (offsetDateTime a) (offsetDateTime b) = .ok (delta d) ∧ d.total = -1 := by
  intro a b
  obtain ⟨-, hlt, -, -, hsub⟩ := moments_agree_with_stamps (a := a) (b := b) (by decide) (by decide)
  obtain ⟨d, hd, -, htotal⟩ := hsub (by decide) (by decide)
  have hnanos : a.nanosSinceEpoch - b.nanosSinceEpoch = -1 := by decide
  exact ⟨by decide, hlt.mp (by decide), d, hd, htotal.trans hnanos⟩

end Value

end CivilTime
