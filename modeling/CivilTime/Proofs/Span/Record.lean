import CivilTime.Calculator.Operator
import CivilTime.Proofs.Span

/-!
# What a span records

Seen from outside, a span is a record of five numbers: months, days, minutes, seconds and
nanoseconds. A builder replaces the part of the record that it is for, and the part holds what
the last builder that succeeded has set, zero before that. Whether a builder succeeds depends on
its arguments alone.

The two forms of the clock word are one for each record: a word of minutes has some minutes,
and minutes and seconds without minutes have the word of the seconds. So spans with one record
are one span, and are compared by it.
-/

namespace CivilTime.Span

variable {s t : Span} {word mins secs : Int}

/-- The numbers that a span gives. -/
structure Record where
  months : Int
  days : Int
  /-- Minutes and seconds. -/
  clock : Int × Int
  nanos : Int
  deriving DecidableEq, Repr

/-- The record without any components. -/
def Record.zero : Record := ⟨0, 0, (0, 0), 0⟩

/-- The record of a span, as it is read. -/
def record (s : Span) : Record := ⟨s.months, s.days, s.minsAndSecs, s.nanos⟩

namespace Builder

/-- The arguments are in range. -/
def Accepted : Builder → Prop
  | months count => 0 ≤ count ∧ count ≤ maxU32
  | days count => 0 ≤ count ∧ count ≤ maxU32
  | hms h m sec => (0 ≤ h ∧ 0 ≤ m ∧ 60 * h + m < minutesLimit) ∧ 0 ≤ sec ∧ sec ≤ 60
  | seconds count => 0 ≤ count ∧ count < secondsLimit
  | nanos count => 0 ≤ count ∧ count < nanosPerSecond

instance : DecidablePred Accepted
  | months _ | days _ | seconds _ | nanos _ => inferInstanceAs (Decidable (_ ∧ _))
  | hms _ _ _ => inferInstanceAs (Decidable ((_ ∧ _ ∧ _) ∧ _ ∧ _))

/-- The months that a call sets. -/
def months? : Builder → Option Int
  | months count => some count
  | _ => none

/-- The days that a call sets. -/
def days? : Builder → Option Int
  | days count => some count
  | _ => none

/-- The minutes and seconds that a call sets. -/
def clock? : Builder → Option (Int × Int)
  | hms h m sec => some (60 * h + m, sec)
  | seconds count => some (0, count)
  | _ => none

/-- The nanoseconds that a call sets. -/
def nanos? : Builder → Option Int
  | nanos count => some count
  | _ => none

end Builder

namespace Record

/-- The record after a call. -/
def after (r : Record) (call : Builder) : Record where
  months := call.months?.getD r.months
  days := call.days?.getD r.days
  clock := call.clock?.getD r.clock
  nanos := call.nanos?.getD r.nanos

/-- Each part is what the last call for it sets, and what it was if there is none. -/
def afterAll (r : Record) (calls : List Builder) : Record where
  months := (calls.filterMap Builder.months?).getLastD r.months
  days := (calls.filterMap Builder.days?).getLastD r.days
  clock := (calls.filterMap Builder.clock?).getLastD r.clock
  nanos := (calls.filterMap Builder.nanos?).getLastD r.nanos

/-- The last value that is set stays if nothing after it sets one. -/
theorem getLastD_filterMap_cons {α β : Type} (f : α → Option β) (a : α) (as : List α) (b : β) :
    ((a :: as).filterMap f).getLastD b = (as.filterMap f).getLastD ((f a).getD b) := by
  cases h : f a with
  | none => rw [List.filterMap_cons_none h, Option.getD_none]
  | some b' => rw [List.filterMap_cons_some h, List.getLastD_cons, Option.getD_some]

theorem afterAll_cons (r : Record) (call : Builder) (calls : List Builder) :
    r.afterAll (call :: calls) = (r.after call).afterAll calls := by
  simp only [afterAll, after, getLastD_filterMap_cons]

end Record

/-! ## The clock word -/

theorem unpackClock_packSeconds (secs : Int) : unpackClock (packSeconds secs) = (0, secs) := by
  have heven : packSeconds secs % 2 = 0 := by
    rw [packSeconds]
    omega
  have hsecs : packSeconds secs / 4 = secs := by
    rw [packSeconds]
    omega
  rw [unpackClock, if_pos heven, hsecs]

theorem unpackClock_packClock (hmins : 0 ≤ mins) (hsecs : 0 ≤ secs ∧ secs ≤ 60) :
    unpackClock (packClock mins secs) = (mins, secs) := by
  obtain ⟨hpos, hword⟩ | ⟨hnone, hword⟩ := packClock_cases mins secs
  · have hodd : ¬packClock mins secs % 2 = 0 := by omega
    rw [unpackClock, if_neg hodd, Prod.mk.injEq]
    omega
  · have heven : packClock mins secs % 2 = 0 := by omega
    rw [unpackClock, if_pos heven, Prod.mk.injEq]
    omega

/-- A word that stands for minutes and seconds is the one that they are packed in. -/
theorem packClock_unpackClock (h : IsClockWord word) :
    packClock (unpackClock word).1 (unpackClock word).2 = word := by
  obtain ⟨hused, hminutes⟩ := h
  rw [packClock]
  by_cases heven : word % 2 = 0
  · rw [unpackClock, if_pos heven, if_neg (Int.lt_irrefl 0)]
    omega
  · have hpos := (hminutes (by omega)).1
    rw [if_pos hpos]
    rw [unpackClock, if_neg heven] at hpos ⊢
    omega

/-! ## Calls -/

theorem exists_apply_eq_ok_iff (s : Span) (call : Builder) :
    (∃ t, call.apply s = .ok t) ↔ call.Accepted := by
  cases call with
  | months count =>
    simp only [Builder.apply, withMonths_eq_ok, exists_eq_right', Builder.Accepted]
  | days count => simp only [Builder.apply, withDays_eq_ok, exists_eq_right', Builder.Accepted]
  | hms hours minutes seconds =>
    simp only [Builder.apply, withHms_eq_ok, ← and_assoc, exists_eq_right', Builder.Accepted,
      minutesLimit, maxU64]
    omega
  | seconds count =>
    simp only [Builder.apply, withSeconds_eq_ok, exists_eq_right', Builder.Accepted]
  | nanos count => simp only [Builder.apply, withNanos_eq_ok, exists_eq_right', Builder.Accepted]

/-- A call that succeeds sets its part of the record. -/
theorem record_of_apply {call : Builder} (h : call.apply s = .ok t) :
    t.record = s.record.after call := by
  cases call with
  | months count =>
    obtain ⟨-, rfl⟩ := withMonths_eq_ok.mp h
    rfl
  | days count =>
    obtain ⟨-, rfl⟩ := withDays_eq_ok.mp h
    rfl
  | hms hours minutes seconds =>
    obtain ⟨⟨hhours, hminutes, -⟩, hseconds, rfl⟩ := withHms_eq_ok.mp h
    have hclock : unpackClock (packClock (hours * 60 + minutes) seconds) =
        (60 * hours + minutes, seconds) := by
      rw [unpackClock_packClock (by omega) hseconds, Int.mul_comm]
    exact congrArg (Record.mk s.months s.days · s.nanos) hclock
  | seconds count =>
    obtain ⟨-, rfl⟩ := withSeconds_eq_ok.mp h
    exact congrArg (Record.mk s.months s.days · s.nanos) (unpackClock_packSeconds count)
  | nanos count =>
    obtain ⟨-, rfl⟩ := withNanos_eq_ok.mp h
    rfl

theorem record_after (s : Span) (call : Builder) :
    (call.after s).record = if call.Accepted then s.record.after call else s.record := by
  rw [Builder.after]
  cases hcall : call.apply s with
  | ok t =>
    rw [if_pos ((exists_apply_eq_ok_iff s call).mp ⟨t, hcall⟩), ← record_of_apply hcall]
    rfl
  | error fault =>
    have hrefused : ¬call.Accepted := by
      rw [← exists_apply_eq_ok_iff s, hcall]
      rintro ⟨t, ht⟩
      cases ht
    rw [if_neg hrefused]
    rfl

/-- The run of a list of calls, whatever the span that it starts from. -/
theorem record_foldl (s : Span) (calls : List Builder) :
    (calls.foldl Builder.after s).record =
      s.record.afterAll (calls.filter (Builder.Accepted ·)) := by
  induction calls generalizing s with
  | nil => rfl
  | cons call calls ih =>
    rw [List.foldl_cons, ih, record_after]
    by_cases h : call.Accepted
    · rw [if_pos h, List.filter_cons, if_pos (decide_eq_true h), Record.afterAll_cons]
    · rw [if_neg h, List.filter_cons, if_neg (mt of_decide_eq_true h)]

theorem record_built (calls : List Builder) :
    (built calls).record = Record.zero.afterAll (calls.filter (Builder.Accepted ·)) :=
  record_foldl empty calls

/-! ## Comparing spans -/

theorem WellFormed.eq_iff_record_eq (hs : s.WellFormed) (ht : t.WellFormed) :
    s = t ↔ s.record = t.record := by
  refine ⟨congrArg record, fun h => ?_⟩
  obtain ⟨hmonths, hdays, hclock, hnanos⟩ := Record.mk.inj h
  have hword : s.word = t.word := by
    rw [← packClock_unpackClock hs.isClockWord, ← packClock_unpackClock ht.isClockWord]
    exact congrArg (fun clock => packClock clock.1 clock.2) hclock
  obtain ⟨sMonths, sDays, sWord, sNanos⟩ := s
  obtain ⟨tMonths, tDays, tWord, tNanos⟩ := t
  rw [Span.mk.injEq]
  exact ⟨hmonths, hdays, hword, hnanos⟩

theorem isZero_iff (s : Span) : s.isZero ↔ s.record = Record.zero := by
  simp only [isZero, record, Record.zero, Bool.and_eq_true, decide_eq_true_eq, Record.mk.injEq,
    and_assoc]

/-- A span that is built gives what the last call for each component that has succeeded has set.
Such spans are equal if these numbers are, and zero if all of them are. -/
theorem built_refines_record :
    (∀ s call, (∃ t, Builder.apply s call = .ok t) ↔ call.Accepted) ∧
    ∀ calls, (built calls).record =
        Record.zero.afterAll (calls.filter (Builder.Accepted ·)) ∧
      (∀ calls', Value.same (.span (built calls)) (.span (built calls')) ↔
        (built calls).record = (built calls').record) ∧
      ((built calls).isZero ↔ (built calls).record = Record.zero) ∧
      0 ≤ (built calls).word ∧ (built calls).word ≤ maxU64 := by
  refine ⟨exists_apply_eq_ok_iff, fun calls => ⟨record_built calls, fun calls' => ?_,
    isZero_iff _, ?_⟩⟩
  · rw [← (wellFormed_built calls).eq_iff_record_eq (wellFormed_built calls'), Value.same]
    exact decide_eq_true_iff
  · have := (wellFormed_built calls).word
    simp only [Bytes.Holds, Bytes.wordSize, maxU64] at *
    omega

end CivilTime.Span
