import CivilTime.Proofs.Outcome
import CivilTime.Proofs.Text.Digits
import CivilTime.Proofs.TimeOfDay.Sum
import CivilTime.TimeOfDay.Text

/-!
# Times of day that are written and read

The text of a valid time is read back as the time, whatever comes after it but a digit or
a point. No time has a second 60 of its own, so a text with that second is the text of a
leap second.
-/

namespace CivilTime.TimeOfDay

open Text

variable {t : TimeOfDay} {nanos : Int} {rest : List Char}

/-! ## Decimals -/

/-- Nothing comes next that could be read as a part of the seconds. -/
def EndsSecond (rest : List Char) : Prop := ∀ c ∈ rest.head?, ¬c.isDigit ∧ c ≠ '.'

theorem endsSecond_nil : EndsSecond [] := nofun

theorem EndsSecond.noDigitAhead (h : EndsSecond rest) : NoDigitAhead rest := fun c hc => (h c hc).1

/-- There are no decimals, or there are enough of them that only zeros are left out. -/
theorem fractionChars_cases (h : 0 ≤ nanos ∧ nanos < nanosPerSecond) :
    nanos = 0 ∧ fractionChars nanos = [] ∨
      ∃ width n : Nat, (0 < width ∧ width ≤ 9) ∧ n < 10 ^ width ∧
        nanos = (n * 10 ^ (9 - width) : Nat) ∧ fractionChars nanos = '.' :: padded width n := by
  simp only [nanosPerSecond] at h
  rw [fractionChars]
  split
  case isTrue hzero => exact .inl ⟨hzero, rfl⟩
  case isFalse =>
    refine .inr ?_
    split
    case isTrue hmilli => exact ⟨3, _, by decide, by omega, by omega, rfl⟩
    case isFalse =>
      split
      case isTrue hmicro => exact ⟨6, _, by decide, by omega, by omega, rfl⟩
      case isFalse => exact ⟨9, _, by decide, by omega, by omega, rfl⟩

theorem takeFraction?_of_endsSecond (hrest : EndsSecond rest) :
    takeFraction? rest = some ([], rest) := by
  rw [takeFraction?.eq_def]
  split
  case h_1 => exact absurd rfl (hrest '.' rfl).2
  case h_2 => rfl

theorem noDigitAhead_fractionChars (h : 0 ≤ nanos ∧ nanos < nanosPerSecond)
    (hrest : EndsSecond rest) : NoDigitAhead (fractionChars nanos ++ rest) := by
  rcases fractionChars_cases h with ⟨-, hnone⟩ | ⟨width, n, -, -, -, hsome⟩
  · rw [hnone]
    exact hrest.noDigitAhead
  · rw [hsome]
    exact noDigitAhead_cons.mpr (by decide)

theorem takeFraction?_fractionChars (h : 0 ≤ nanos ∧ nanos < nanosPerSecond)
    (hrest : EndsSecond rest) :
    ∃ ds, takeFraction? (fractionChars nanos ++ rest) = some (ds, rest) ∧
      (readFraction 9 ds : Int) = nanos := by
  rcases fractionChars_cases h with ⟨hzero, hnone⟩ | ⟨width, n, hwidth, hn, hnanos, hsome⟩
  · refine ⟨[], ?_, ?_⟩
    · rw [hnone]
      exact takeFraction?_of_endsSecond hrest
    · rw [hzero]
      decide
  · refine ⟨padded width n, ?_, ?_⟩
    · rw [hsome, List.cons_append, takeFraction?]
      exact takeDigits?_append (isDigit_of_mem_padded _ _) (padded_ne_nil _ _) hrest.noDigitAhead
    · rw [readFraction_padded hwidth.1 hwidth.2 hn, hnanos]

/-! ## Seconds -/

/-- The second that is written, which is 60 in a leap second. -/
def shownSecond (t : TimeOfDay) : Int := if t.InLeapSecond then t.second + 1 else t.second

/-- The nanoseconds that are written, of which there is less than a second. -/
def shownNanos (t : TimeOfDay) : Int :=
  if t.InLeapSecond then t.frac - nanosPerSecond else t.frac

theorem shownSecond_bounds (t : TimeOfDay) : 0 ≤ t.shownSecond ∧ t.shownSecond ≤ 60 := by
  rw [shownSecond, second]
  split <;> omega

theorem shownNanos_bounds (ht : t.Valid) :
    0 ≤ t.shownNanos ∧ t.shownNanos < nanosPerSecond := by
  obtain ⟨-, hfrac, -⟩ := ht
  rw [shownNanos]
  split
  case isTrue hleap =>
    simp only [InLeapSecond] at hleap
    omega
  case isFalse hleap =>
    simp only [InLeapSecond] at hleap
    omega

theorem padded_eq_sixty_iff {n : Nat} : padded 2 n = ['6', '0'] ↔ n = 60 := by
  constructor
  · intro h
    have := congrArg readDigits h
    rwa [readDigits_padded] at this
  · rintro rfl
    decide +kernel

/-- Second 60 is a leap second, and any other is the second of the time. -/
theorem read_shownSecond (ht : t.Valid) :
    (if padded 2 t.shownSecond.toNat = ['6', '0'] then (59, t.shownNanos + nanosPerSecond)
      else ((readDigits (padded 2 t.shownSecond.toNat) : Int), t.shownNanos)) =
      (t.second, t.frac) := by
  by_cases hleap : t.InLeapSecond
  · have hlast : t.second = 59 := ht.2.2 hleap
    rw [shownSecond, shownNanos, if_pos hleap, if_pos hleap, hlast,
      if_pos (padded_eq_sixty_iff.mpr (by decide)), Int.sub_add_cancel]
  · have hsecond : 0 ≤ t.second ∧ t.second < 60 := by
      rw [second]
      omega
    have hne : ¬t.second.toNat = 60 := by omega
    rw [shownSecond, shownNanos, if_neg hleap, if_neg hleap,
      if_neg (mt padded_eq_sixty_iff.mp hne), readDigits_padded,
      Int.toNat_of_nonneg hsecond.1]

/-! ## Times -/

theorem toChars_append (t : TimeOfDay) (rest : List Char) :
    t.toChars ++ rest =
      padded 2 t.hour.toNat ++ ':' :: (padded 2 t.minute.toNat ++ ':' ::
        (padded 2 t.shownSecond.toNat ++ (fractionChars t.shownNanos ++ rest))) := by
  simp only [toChars, shownSecond, shownNanos, List.append_assoc, List.cons_append]

theorem readFields?_toChars (ht : t.Valid) (hrest : EndsSecond rest) :
    readFields? (t.toChars ++ rest) =
      some ((t.hour, t.minute, t.second, t.frac), skipBlank rest) := by
  have hhour : 0 ≤ t.hour ∧ t.hour < 24 := by
    have := ht.1
    simp only [hour, secondsPerDay] at *
    omega
  have hminute : 0 ≤ t.minute ∧ t.minute < 60 := by
    rw [minute]
    omega
  have hsecond := shownSecond_bounds t
  have hnanos := shownNanos_bounds ht
  obtain ⟨ds, htake, hread⟩ := takeFraction?_fractionChars hnanos hrest
  rw [toChars_append, readFields?,
    takeDigitsUpTo?_padded (by decide) (by omega) (noDigitAhead_cons.mpr (by decide))]
  simp only [Option.bind_eq_bind, Option.bind_some]
  rw [expect?_skipBlank_cons (by decide), Option.bind_some,
    takeDigitsUpTo?_padded (by decide) (by omega) (noDigitAhead_cons.mpr (by decide))]
  simp only [Option.bind_some]
  rw [expect?_skipBlank_cons (by decide), Option.bind_some,
    takeDigitsUpTo?_padded (by decide) (by omega) (noDigitAhead_fractionChars hnanos hrest)]
  simp only [Option.bind_some, htake, hread, read_shownSecond ht]
  rw [readDigits_padded, readDigits_padded, Int.toNat_of_nonneg hhour.1,
    Int.toNat_of_nonneg hminute.1]
  rfl

theorem new?_of_valid (ht : t.Valid) : new? t.hour t.minute t.second t.frac = .ok t := by
  obtain ⟨hsecs, hfrac, hleap⟩ := ht
  simp only [secondsPerDay] at hsecs
  simp only [new?, bind_eq_ok, require_eq_ok, pure_eq_ok, exists_const]
  simp only [hour, minute, second]
  refine ⟨by omega, hfrac, hleap, ?_⟩
  congr 1
  omega

theorem eq_of_fields_eq {u : TimeOfDay} (ht : t.Valid) (hu : u.Valid)
    (h : t.hour = u.hour ∧ t.minute = u.minute ∧ t.second = u.second ∧ t.frac = u.frac) :
    t = u := by
  obtain ⟨hhour, hminute, hsecond, hfrac⟩ := h
  have hnew := new?_of_valid ht
  rw [hhour, hminute, hsecond, hfrac, new?_of_valid hu] at hnew
  exact (Except.ok.inj hnew).symm

theorem parse_format (ht : t.Valid) : parse t.format = .ok t := by
  have hread := readFields?_toChars ht endsSecond_nil
  rw [List.append_nil] at hread
  simp only [parse, parseFields, format, String.toList_ofList, hread, skipBlank_nil]
  change (new? t.hour t.minute t.second t.frac).mapError _ = .ok t
  rw [new?_of_valid ht]
  rfl

/-! ## Leap seconds away from second 59 -/

/-- The time that the text of a time looks like. A leap second that does not end its minute is
written as the second after it. -/
def shown (t : TimeOfDay) : TimeOfDay :=
  if t.InLeapSecond ∧ t.second ≠ 59 then ⟨t.secs + 1, t.frac - nanosPerSecond⟩ else t

/-- A leap second at some other second is no longer one, and the second after it is in the same
minute. -/
theorem OnClock.shown_cases (ht : t.OnClock) :
    t.Valid ∧ t.shown = t ∨
      (t.InLeapSecond ∧ t.secs % 60 ≠ 59) ∧ t.shown = ⟨t.secs + 1, t.frac - nanosPerSecond⟩ := by
  by_cases h : t.InLeapSecond ∧ t.second ≠ 59
  · exact .inr ⟨h, if_pos h⟩
  · refine .inl ⟨⟨ht.1, ht.2, fun hleap => ?_⟩, if_neg h⟩
    exact Decidable.byContradiction fun hsecond => h ⟨hleap, hsecond⟩

theorem OnClock.valid_shown (ht : t.OnClock) : t.shown.Valid := by
  rcases ht.shown_cases with ⟨hvalid, hshown⟩ | ⟨⟨hleap, hsecond⟩, hshown⟩
  · rw [hshown]
    exact hvalid
  · rw [hshown]
    simp only [OnClock, Valid, InLeapSecond, secondsPerDay, nanosPerSecond] at *
    omega

theorem OnClock.toChars_shown (ht : t.OnClock) : t.shown.toChars = t.toChars := by
  rcases ht.shown_cases with ⟨-, hshown⟩ | ⟨⟨hleap, hsecond⟩, hshown⟩
  · rw [hshown]
  · have hplain : ¬(mk (t.secs + 1) (t.frac - nanosPerSecond)).InLeapSecond := by
      simp only [OnClock, InLeapSecond, nanosPerSecond] at *
      omega
    have hhour : (t.secs + 1) / 3600 = t.secs / 3600 := by omega
    have hminute : (t.secs + 1) / 60 % 60 = t.secs / 60 % 60 := by omega
    have hnext : (t.secs + 1) % 60 = t.secs % 60 + 1 := by omega
    rw [hshown]
    simp only [toChars, hour, minute, second, if_neg hplain, if_pos hleap, hhour, hminute, hnext]

end CivilTime.TimeOfDay
