import CivilTime.Proofs.Packed.RoundTrip

/-!
# Spans that are built

A span is made from the empty one by calls of its builders, in any order. A call that fails
leaves the span as it was. Whatever is called, each component has room in its word, and the
clock word is one that stands for minutes and seconds. So a span that was built is accepted when
it is unpacked.
-/

namespace CivilTime.Span

open Bytes

variable {s t : Span} {mins secs : Int}

/-- A call of a builder. -/
inductive Builder where
  | months (count : Int)
  | days (count : Int)
  | hms (hours minutes seconds : Int)
  | seconds (count : Int)
  | nanos (count : Int)
  deriving DecidableEq, Repr

namespace Builder

/-- What a call gives. -/
def apply (s : Span) : Builder → Outcome Span
  | months count => s.withMonths count
  | days count => s.withDays count
  | hms h m sec => s.withHms h m sec
  | seconds count => s.withSeconds count
  | nanos count => s.withNanos count

/-- The span after a call. -/
def after (s : Span) (call : Builder) : Span := (call.apply s).toOption.getD s

end Builder

/-- The span that some calls build one after the other. -/
def built (calls : List Builder) : Span := calls.foldl Builder.after empty

/-! ## Clock words -/

theorem isClockWord_packSeconds (secs : Int) : IsClockWord (packSeconds secs) := by
  simp only [IsClockWord, packSeconds]
  omega

theorem holds_packSeconds (h : 0 ≤ secs ∧ secs < secondsLimit) : Holds 8 (packSeconds secs) := by
  simp only [Holds, packSeconds, secondsLimit, wordSize] at *
  omega

/-- The lowest bit tells whether there are minutes. -/
theorem packClock_cases (mins secs : Int) :
    0 < mins ∧ packClock mins secs = mins * 256 + secs * 4 + 3 ∨
      ¬0 < mins ∧ packClock mins secs = mins * 256 + secs * 4 + 2 := by
  rw [packClock]
  split
  case isTrue h => exact .inl ⟨h, rfl⟩
  case isFalse h => exact .inr ⟨h, rfl⟩

theorem isClockWord_packClock (hsecs : 0 ≤ secs ∧ secs ≤ 60) :
    IsClockWord (packClock mins secs) := by
  rcases packClock_cases mins secs with ⟨hpos, hword⟩ | ⟨-, hword⟩
  · have hodd : packClock mins secs % 2 = 1 := by omega
    simp only [IsClockWord, unpackClock, if_neg (show ¬packClock mins secs % 2 = 0 by omega)]
    omega
  · have heven : packClock mins secs % 2 = 0 := by omega
    exact ⟨by omega, fun hodd => absurd hodd (by omega)⟩

theorem holds_packClock (hmins : 0 ≤ mins ∧ mins < minutesLimit) (hsecs : 0 ≤ secs ∧ secs ≤ 60) :
    Holds 8 (packClock mins secs) := by
  have := packClock_cases mins secs
  simp only [Holds, minutesLimit, wordSize] at *
  omega

/-! ## Builders -/

theorem withMonths_eq_ok {count : Int} :
    s.withMonths count = .ok t ↔
      (0 ≤ count ∧ count ≤ maxU32) ∧ { s with months := count } = t := by
  simp only [withMonths, bind_eq_ok, checkRange_eq_ok, pure_eq_ok]
  exact ⟨fun ⟨_, ⟨hcount, rfl⟩, ht⟩ => ⟨hcount, ht⟩, fun ⟨hcount, ht⟩ => ⟨_, ⟨hcount, rfl⟩, ht⟩⟩

theorem withDays_eq_ok {count : Int} :
    s.withDays count = .ok t ↔ (0 ≤ count ∧ count ≤ maxU32) ∧ { s with days := count } = t := by
  simp only [withDays, bind_eq_ok, checkRange_eq_ok, pure_eq_ok]
  exact ⟨fun ⟨_, ⟨hcount, rfl⟩, ht⟩ => ⟨hcount, ht⟩, fun ⟨hcount, ht⟩ => ⟨_, ⟨hcount, rfl⟩, ht⟩⟩

theorem withHms_eq_ok {hours minutes seconds : Int} :
    s.withHms hours minutes seconds = .ok t ↔
      ((0 ≤ hours ∧ hours ≤ maxU64) ∧ (0 ≤ minutes ∧ minutes ≤ maxU64) ∧
        hours * 60 + minutes < minutesLimit) ∧ (0 ≤ seconds ∧ seconds ≤ 60) ∧
      { s with word := packClock (hours * 60 + minutes) seconds } = t := by
  simp only [withHms, checkHours, checkMinutes, checkSeconds, bind_eq_ok, checkRange_eq_ok]
  constructor
  · rintro ⟨_, ⟨hhours, rfl⟩, _, ⟨hminutes, rfl⟩, _, ⟨hseconds, rfl⟩, ht⟩
    split at ht
    case isTrue => cases ht
    case isFalse hfew =>
      simp only [bind_eq_ok, require_eq_ok, pure_eq_ok] at ht
      obtain ⟨-, hsixty, ht⟩ := ht
      exact ⟨⟨hhours, hminutes, by omega⟩, ⟨hseconds.1, hsixty⟩, ht⟩
  · rintro ⟨⟨hhours, hminutes, hfew⟩, hseconds, ht⟩
    have hbyte : 0 ≤ seconds ∧ seconds ≤ maxU8 := by
      simp only [maxU8]
      omega
    refine ⟨_, ⟨hhours, rfl⟩, _, ⟨hminutes, rfl⟩, _, ⟨hbyte, rfl⟩, ?_⟩
    rw [if_neg (by omega)]
    simp only [bind_eq_ok, require_eq_ok, pure_eq_ok]
    exact ⟨(), hseconds.2, ht⟩

theorem withSeconds_eq_ok {seconds : Int} :
    s.withSeconds seconds = .ok t ↔
      (0 ≤ seconds ∧ seconds < secondsLimit) ∧ { s with word := packSeconds seconds } = t := by
  simp only [withSeconds, bind_eq_ok, checkRange_eq_ok]
  constructor
  · rintro ⟨_, ⟨hseconds, rfl⟩, ht⟩
    split at ht
    case isTrue => cases ht
    case isFalse hfew => exact ⟨⟨hseconds.1, by omega⟩, pure_eq_ok.mp ht⟩
  · rintro ⟨hseconds, ht⟩
    have hword : 0 ≤ seconds ∧ seconds ≤ maxU64 := by
      simp only [secondsLimit, maxU64] at *
      omega
    refine ⟨_, ⟨hword, rfl⟩, ?_⟩
    rw [if_neg (by omega)]
    exact pure_eq_ok.mpr ht

theorem withNanos_eq_ok {nanos : Int} :
    s.withNanos nanos = .ok t ↔
      (0 ≤ nanos ∧ nanos < nanosPerSecond) ∧ { s with nanos := nanos } = t := by
  simp only [withNanos, bind_eq_ok, checkRange_eq_ok, require_eq_ok, pure_eq_ok]
  constructor
  · rintro ⟨_, ⟨hnanos, rfl⟩, -, hfew, ht⟩
    exact ⟨⟨hnanos.1, hfew⟩, ht⟩
  · rintro ⟨hnanos, ht⟩
    have hword : 0 ≤ nanos ∧ nanos ≤ maxU32 := by
      simp only [nanosPerSecond, maxU32] at *
      omega
    exact ⟨_, ⟨hword, rfl⟩, (), hnanos.2, ht⟩

/-! ## What is built -/

/-- The components have room in their words, and the clock word stands for minutes and
seconds. -/
structure WellFormed (s : Span) : Prop where
  months : Holds 4 s.months
  days : Holds 4 s.days
  word : Holds 8 s.word
  isClockWord : IsClockWord s.word
  nanos : 0 ≤ s.nanos ∧ s.nanos < nanosPerSecond

theorem wellFormed_empty : empty.WellFormed := by
  refine ⟨?_, ?_, ?_, by decide, by decide⟩
  all_goals exact ⟨by decide, by decide⟩

theorem holds_of_le_maxU32 {n : Int} (h : 0 ≤ n ∧ n ≤ maxU32) : Holds 4 n := by
  simp only [Holds, maxU32, wordSize] at *
  omega

theorem WellFormed.gives_apply (h : s.WellFormed) (call : Builder) :
    Gives (call.apply s) WellFormed := by
  intro t ht
  cases call with
  | months count =>
    obtain ⟨hcount, rfl⟩ := withMonths_eq_ok.mp ht
    exact { h with months := holds_of_le_maxU32 hcount }
  | days count =>
    obtain ⟨hcount, rfl⟩ := withDays_eq_ok.mp ht
    exact { h with days := holds_of_le_maxU32 hcount }
  | hms hours minutes seconds =>
    obtain ⟨⟨hhours, hminutes, hfew⟩, hseconds, rfl⟩ := withHms_eq_ok.mp ht
    exact { h with
      word := holds_packClock ⟨by omega, hfew⟩ hseconds
      isClockWord := isClockWord_packClock hseconds }
  | seconds count =>
    obtain ⟨hcount, rfl⟩ := withSeconds_eq_ok.mp ht
    exact { h with
      word := holds_packSeconds hcount
      isClockWord := isClockWord_packSeconds count }
  | nanos count =>
    obtain ⟨hcount, rfl⟩ := withNanos_eq_ok.mp ht
    exact { h with nanos := hcount }

theorem WellFormed.after (h : s.WellFormed) (call : Builder) : (call.after s).WellFormed := by
  rw [Builder.after]
  cases hcall : call.apply s with
  | ok t => exact h.gives_apply call t hcall
  | error fault => exact h

theorem WellFormed.foldl (h : s.WellFormed) (calls : List Builder) :
    (calls.foldl Builder.after s).WellFormed := by
  induction calls generalizing s with
  | nil => exact h
  | cons call calls ih => exact ih (h.after call)

/-- Whatever is called, the span that is built is well-formed. -/
theorem wellFormed_built (calls : List Builder) : (built calls).WellFormed :=
  wellFormed_empty.foldl calls

/-! ## Packing -/

theorem WellFormed.fitsWords (h : s.WellFormed) : s.FitsWords := by
  refine ⟨h.months, h.days, h.word, holds_of_le_maxU32 ⟨h.nanos.1, ?_⟩⟩
  have := h.nanos.2
  simp only [nanosPerSecond, maxU32] at *
  omega

theorem WellFormed.ofParts (h : s.WellFormed) :
    Span.ofParts s.months s.days s.word s.nanos = .ok s := by
  simp only [Span.ofParts, bind_eq_ok, require_eq_ok, pure_eq_ok, exists_const]
  exact ⟨⟨h.isClockWord, h.nanos.2⟩, trivial⟩

end CivilTime.Span
