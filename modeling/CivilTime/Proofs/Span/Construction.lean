import CivilTime.Proofs.Span.Record

/-!
# The spans that can be made

The empty span and builders make every well-formed span: it is enough to set each component once.
Among the words of 64 bits it is the clock words that builders give, so that a word is not
accepted for its form alone, but because minutes and seconds lead to it.
-/

namespace CivilTime.Span

variable {s : Span} {word : Int}

/-- A call that sets the clock component to given minutes and seconds. -/
def Builder.clock (clock : Int × Int) : Builder :=
  if clock.1 = 0 then .seconds clock.2 else .hms 0 clock.1 clock.2

theorem after_clock (r : Record) (clock : Int × Int) :
    r.after (Builder.clock clock) = { r with clock } := by
  obtain ⟨mins, secs⟩ := clock
  rw [Builder.clock]
  split
  case isTrue hnone => exact congrArg (fun m => { r with clock := (m, secs) }) hnone.symm
  case isFalse => exact congrArg (fun m => { r with clock := (m, secs) }) (Int.zero_add mins)

/-- A clock word within its bounds has minutes and seconds that a builder accepts. -/
theorem accepted_clock (hword : Bytes.Holds 8 word) (h : IsClockWord word) :
    (Builder.clock (unpackClock word)).Accepted := by
  obtain ⟨hused, hminutes⟩ := h
  simp only [Bytes.Holds, Bytes.wordSize] at hword
  by_cases heven : word % 2 = 0
  · rw [unpackClock, if_pos heven, Builder.clock, if_pos rfl]
    simp only [Builder.Accepted, secondsLimit]
    omega
  · obtain ⟨hpos, hsixty⟩ := hminutes (by omega)
    rw [Builder.clock, if_neg (by omega)]
    rw [unpackClock, if_neg heven] at *
    simp only [Builder.Accepted, minutesLimit]
    omega

/-- The calls that build a span out of its own components. -/
def calls (s : Span) : List Builder :=
  [.months s.months, .days s.days, .clock s.minsAndSecs, .nanos s.nanos]

theorem WellFormed.accepted_of_mem_calls (h : s.WellFormed) :
    ∀ call ∈ s.calls, call.Accepted := by
  have hmonths := h.months
  have hdays := h.days
  simp only [Bytes.Holds, Bytes.wordSize] at hmonths hdays
  simp only [calls, List.forall_mem_cons]
  refine ⟨?_, ?_, accepted_clock h.word h.isClockWord, h.nanos, List.forall_mem_nil _⟩
  · simp only [Builder.Accepted, maxU32]
    omega
  · simp only [Builder.Accepted, maxU32]
    omega

/-- A well-formed span is built by setting its components one after the other. -/
theorem WellFormed.built_calls (h : s.WellFormed) : built s.calls = s := by
  have hall : s.calls.filter (Builder.Accepted ·) = s.calls :=
    List.filter_eq_self.mpr fun call hcall => decide_eq_true (h.accepted_of_mem_calls call hcall)
  rw [(wellFormed_built _).eq_iff_record_eq h, record_built, hall]
  simp only [calls, Record.afterAll_cons, after_clock]
  rfl

/-- The spans that are built are the well-formed ones. -/
theorem exists_built_iff : (∃ calls, built calls = s) ↔ s.WellFormed := by
  constructor
  · rintro ⟨calls, rfl⟩
    exact wellFormed_built calls
  · exact fun h => ⟨s.calls, h.built_calls⟩

/-! ## Clock words -/

/-- Some builder gives a span with this clock word. -/
def MadeWord (word : Int) : Prop :=
  ∃ s t : Span, t.word = word ∧
    ((∃ secs, s.withSeconds secs = .ok t) ∨ ∃ hours mins secs, s.withHms hours mins secs = .ok t)

/-- The words that builders give are those that are accepted, as far as 64 bits go. -/
theorem madeWord_iff : MadeWord word ↔ Bytes.Holds 8 word ∧ IsClockWord word := by
  constructor
  · rintro ⟨s, t, rfl, ⟨secs, h⟩ | ⟨hours, mins, secs, h⟩⟩
    · obtain ⟨hsecs, rfl⟩ := withSeconds_eq_ok.mp h
      exact ⟨holds_packSeconds hsecs, isClockWord_packSeconds secs⟩
    · obtain ⟨⟨hhours, hmins, hfew⟩, hsecs, rfl⟩ := withHms_eq_ok.mp h
      exact ⟨holds_packClock ⟨by omega, hfew⟩ hsecs, isClockWord_packClock hsecs⟩
  · rintro ⟨hword, hclock⟩
    obtain ⟨t, ht⟩ := (exists_apply_eq_ok_iff empty _).mpr (accepted_clock hword hclock)
    have hrecord := record_of_apply ht
    rw [after_clock] at hrecord
    have hparts : unpackClock t.word = unpackClock word := congrArg Record.clock hrecord
    have ht' := wellFormed_empty.gives_apply _ t ht
    refine ⟨empty, t, ?_, ?_⟩
    · rw [← packClock_unpackClock ht'.isClockWord, hparts, packClock_unpackClock hclock]
    · rw [Builder.clock] at ht
      split at ht
      case isTrue => exact .inl ⟨_, ht⟩
      case isFalse => exact .inr ⟨_, _, _, ht⟩

end CivilTime.Span
