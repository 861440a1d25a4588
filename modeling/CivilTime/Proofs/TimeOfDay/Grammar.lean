import CivilTime.Proofs.Text.Numeral
import CivilTime.Proofs.TimeOfDay.RoundTrip

/-!
# The texts that are read as times of day

The text of a time has an hour, a minute and a second with colons between them, decimals right
after the second, and white space at the end of each field. A time is read from exactly these
texts, if a clock shows such an hour, minute and second. Second 60, which is written in only one
way, is a leap second in any minute. Nanoseconds are the decimals rounded down, of whatever
length they are.
-/

namespace CivilTime

open Text

/-- The parts of the text of a time of day. -/
structure TimeText where
  hour : ShortNumeral 2
  afterHour : Blanks
  minute : ShortNumeral 2
  afterMinute : Blanks
  second : ShortNumeral 2
  decimals : Option Numeral
  afterSecond : Blanks

namespace TimeText

/-- The text that the parts make up. -/
def chars (x : TimeText) : List Char :=
  x.hour.digits ++ (x.afterHour.chars ++ ':' ::
    (x.minute.digits ++ (x.afterMinute.chars ++ ':' ::
      (x.second.digits ++ (decimalChars x.decimals ++ x.afterSecond.chars)))))

/-- The second is written as that of a leap second. -/
def IsSixty (x : TimeText) : Prop := x.second.digits = ['6', '0']

instance : DecidablePred IsSixty := fun x => inferInstanceAs (Decidable (x.second.digits = _))

/-- A clock shows such a time, perhaps in a leap second. -/
def InDay (x : TimeText) : Prop :=
  x.hour.value < 24 ∧ x.minute.value < 60 ∧ (x.second.value < 60 ∨ x.IsSixty)

/-- The whole nanoseconds in the decimals. -/
def nanos (x : TimeText) : ℤ := ⌊decimalValue (decimalDigits x.decimals) * 1000000000⌋

/-- The time of the numbers. A leap second is second 59 with a second more of nanoseconds. -/
def time (x : TimeText) : TimeOfDay :=
  if x.IsSixty then ⟨x.hour.value * 3600 + x.minute.value * 60 + 59, x.nanos + nanosPerSecond⟩
  else ⟨x.hour.value * 3600 + x.minute.value * 60 + x.second.value, x.nanos⟩

variable {rest cs : List Char}

theorem nanos_eq (x : TimeText) : x.nanos = readFraction 9 (decimalDigits x.decimals) := by
  rw [nanos, readFraction_eq_floor 9 (isDigit_of_mem_decimalDigits _)]
  norm_num

theorem nanos_bounds (x : TimeText) : 0 ≤ x.nanos ∧ x.nanos < nanosPerSecond := by
  have := readFraction_lt 9 (isDigit_of_mem_decimalDigits x.decimals)
  rw [nanos_eq, nanosPerSecond]
  omega

/-! ## Reading -/

/-- The numbers that are read from the text: hour, minute, second and nanosecond. -/
def fields (x : TimeText) : Int × Int × Int × Int :=
  (x.hour.value, x.minute.value,
    if x.IsSixty then (59, x.nanos + nanosPerSecond) else ((x.second.value : Int), x.nanos))

theorem noDigitAhead_colon (b : Blanks) (cs : List Char) :
    NoDigitAhead (b.chars ++ ':' :: cs) :=
  b.noDigitAhead_append (noDigitAhead_cons.mpr (by decide))

theorem endsSecond_blanks (b : Blanks) : TimeOfDay.EndsSecond b.chars := by
  intro c hc
  have hblank := b.isBlank c (List.mem_of_mem_head? hc)
  refine ⟨not_isDigit_of_isBlank hblank, ?_⟩
  rintro rfl
  exact absurd hblank (by decide)

theorem noDigitAhead_decimals (x : TimeText) :
    NoDigitAhead (decimalChars x.decimals ++ x.afterSecond.chars) := by
  cases x.decimals with
  | none => exact (endsSecond_blanks _).noDigitAhead
  | some n => exact noDigitAhead_cons.mpr (by decide)

theorem takeFraction?_decimals (x : TimeText) :
    takeFraction? (decimalChars x.decimals ++ x.afterSecond.chars) =
      some (decimalDigits x.decimals, x.afterSecond.chars) := by
  have hend := endsSecond_blanks x.afterSecond
  cases x.decimals with
  | none => exact TimeOfDay.takeFraction?_of_endsSecond hend
  | some n => exact n.takeDigits?_append hend.noDigitAhead

theorem readFields?_chars (x : TimeText) :
    TimeOfDay.readFields? x.chars = some (x.fields, []) := by
  rw [chars, TimeOfDay.readFields?, x.hour.takeDigitsUpTo?_append (noDigitAhead_colon _ _)]
  simp only [Option.bind_eq_bind, Option.bind_some]
  rw [expect?_skipBlank_append (by decide), Option.bind_some,
    x.minute.takeDigitsUpTo?_append (noDigitAhead_colon _ _)]
  simp only [Option.bind_some]
  rw [expect?_skipBlank_append (by decide), Option.bind_some,
    x.second.takeDigitsUpTo?_append x.noDigitAhead_decimals]
  have hblanks := skipBlank_append x.afterSecond noBlankAhead_nil
  rw [List.append_nil] at hblanks
  simp only [Option.bind_some, takeFraction?_decimals, hblanks, ← nanos_eq]
  rfl

theorem exists_of_readFields? {numbers : Int × Int × Int × Int}
    (h : TimeOfDay.readFields? cs = some (numbers, [])) :
    ∃ x : TimeText, x.fields = numbers ∧ cs = x.chars := by
  simp only [TimeOfDay.readFields?, bind, Option.bind_eq_some_iff, Prod.exists] at h
  obtain ⟨hour', cs₁, hhour, cs₂, hcolon, minute', cs₃, hminute, cs₄, hcolon', second', cs₅,
    hsecond, frac, cs₆, hfrac, hfields⟩ := h
  obtain ⟨hnumbers, hend⟩ := Prod.mk.inj (Option.some.inj hfields)
  obtain ⟨h, rfl, rfl⟩ := exists_numeral_of_takeDigitsUpTo? hhour
  obtain ⟨afterHour, rfl⟩ := exists_blanks_of_expect? hcolon
  obtain ⟨m, rfl, rfl⟩ := exists_numeral_of_takeDigitsUpTo? hminute
  obtain ⟨afterMinute, rfl⟩ := exists_blanks_of_expect? hcolon'
  obtain ⟨s, rfl, rfl⟩ := exists_numeral_of_takeDigitsUpTo? hsecond
  obtain ⟨decimals, rfl, rfl⟩ := exists_decimals_of_takeFraction? hfrac
  obtain ⟨afterSecond, hafterSecond⟩ := exists_blanks cs₆
  rw [hend, List.append_nil] at hafterSecond
  refine ⟨⟨h, afterHour, m, afterMinute, s, decimals, afterSecond⟩, ?_, ?_⟩
  · rw [← hnumbers, fields, nanos_eq]
    rfl
  · rw [chars, ← hafterSecond]

end TimeText

namespace TimeOfDay

variable {s : String} {t : TimeOfDay}

theorem parseFields_eq_ok {fields : Int × Int × Int × Int} :
    parseFields s = .ok fields ↔ readFields? s.toList = some (fields, []) := by
  rw [parseFields]
  split
  case h_1 fields' hread =>
    simp only [hread, Option.some.injEq, Prod.mk.injEq, and_true]
    exact ⟨Except.ok.inj, congrArg Except.ok⟩
  case h_2 hnot => exact iff_of_false (by rintro ⟨⟩) (hnot fields)

theorem new?_eq_ok {hour minute second nanosecond : Int} :
    new? hour minute second nanosecond = .ok t ↔
      ((0 ≤ hour ∧ hour < 24) ∧ (0 ≤ minute ∧ minute < 60) ∧ (0 ≤ second ∧ second < 60)) ∧
        (0 ≤ nanosecond ∧ nanosecond < 2 * nanosPerSecond) ∧
        (nanosecond ≥ nanosPerSecond → second = 59) ∧
        mk (hour * 3600 + minute * 60 + second) nanosecond = t := by
  simp only [new?, bind_eq_ok, require_eq_ok, pure_eq_ok, exists_const]

/-- The numbers of a text are those of a time unless a clock does not show them. -/
theorem new?_fields_eq_ok (x : TimeText) :
    new? x.fields.1 x.fields.2.1 x.fields.2.2.1 x.fields.2.2.2 = .ok t ↔
      x.InDay ∧ x.time = t := by
  have hnanos := x.nanos_bounds
  rw [new?_eq_ok, TimeText.fields, TimeText.InDay, TimeText.time]
  by_cases hsixty : x.IsSixty
  · simp only [hsixty, if_true, or_true, and_true, implies_true, ← and_assoc]
    refine and_congr_left fun _ => ?_
    omega
  · simp only [hsixty, if_false, or_false, ← and_assoc]
    refine and_congr_left fun _ => ?_
    omega

theorem parse_eq_ok_iff_text :
    parse s = .ok t ↔ ∃ x : TimeText, x.chars = s.toList ∧ x.InDay ∧ x.time = t := by
  simp only [parse, bind_eq_ok, mapError_eq_ok, parseFields_eq_ok]
  constructor
  · rintro ⟨_, hread, hnew⟩
    obtain ⟨x, rfl, hcs⟩ := TimeText.exists_of_readFields? hread
    exact ⟨x, hcs.symm, (new?_fields_eq_ok x).mp hnew⟩
  · rintro ⟨x, hcs, hx⟩
    refine ⟨x.fields, ?_, (new?_fields_eq_ok x).mpr hx⟩
    rw [← hcs, x.readFields?_chars]

theorem failsWith_parse (s : String) : FailsWith (parse s) (· = .badText s) := by
  refine FailsWith.bind ?_ fun _ => failsWith_mapError_const _ _
  rw [parseFields]
  split
  case h_1 => exact failsWith_ok
  case h_2 => exact failsWith_error.mpr rfl

end TimeOfDay

end CivilTime
