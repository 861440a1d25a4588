import CivilTime.Date.Text
import CivilTime.Proofs.DayNumber
import CivilTime.Proofs.Outcome
import CivilTime.Proofs.Text.Digits

/-!
# Dates that are written and read

The text of a date is read back as the date, whatever comes after it but a digit. A year is
written with a sign exactly if it is read with one.
-/

namespace CivilTime.Date

open Text

variable {d : Date} {rest : List Char}

/-- A year that is written with a sign has six digits at most, as those of the supported
range have. -/
theorem natAbs_lt_of_yearInRange (h : d.YearInRange) : d.year.natAbs < 10 ^ 6 := by
  simp only [YearInRange, minYear, maxYear] at h
  omega

/-! ## Years -/

/-- A text that starts with a digit has a year without a sign. -/
theorem readYear?_of_digits {ds : List Char} (hds : ∀ c ∈ ds, c.isDigit) (hne : ds ≠ []) :
    readYear? (ds ++ rest) =
      (takeDigitsUpTo? 4 (ds ++ rest)).map fun (ds, rest) => ((readDigits ds : Int), rest) := by
  obtain ⟨c, cs, rfl⟩ := List.exists_cons_of_ne_nil hne
  have hc := hds c List.mem_cons_self
  rw [List.cons_append, readYear?.eq_def]
  split
  case h_1 heq =>
    obtain ⟨rfl, -⟩ := List.cons.inj heq
    exact absurd hc (by decide)
  case h_2 heq =>
    obtain ⟨rfl, -⟩ := List.cons.inj heq
    exact absurd hc (by decide)
  case h_3 => rfl

theorem readYear?_yearChars (year : Int) (hrest : NoDigitAhead rest) :
    readYear? (yearChars year ++ rest) = some (year, rest) := by
  rw [yearChars]
  split
  case isTrue hplain =>
    rw [readYear?_of_digits (isDigit_of_mem_padded _ _) (padded_ne_nil _ _),
      takeDigitsUpTo?_padded (by decide) (by omega) hrest]
    simp only [Option.map_some, readDigits_padded, Int.toNat_of_nonneg hplain.1]
  case isFalse hsigned =>
    have htake := takeDigits?_append (isDigit_of_mem_padded 4 year.natAbs)
      (padded_ne_nil _ _) hrest
    split
    case isTrue hneg =>
      rw [List.cons_append, readYear?, htake]
      simp only [Option.map_some, readDigits_padded]
      rw [show -(year.natAbs : Int) = year by omega]
    case isFalse hpos =>
      rw [List.cons_append, readYear?, htake]
      simp only [Option.map_some, readDigits_padded]
      rw [show (year.natAbs : Int) = year by omega]

/-- The digits of a year are the first number in the text of a date. -/
theorem firstNumber_yearChars (year : Int) (hrest : NoDigitAhead rest) :
    firstNumber (yearChars year ++ rest) = padded 4 year.natAbs := by
  have hdigits := firstNumber_append (isDigit_of_mem_padded 4 year.natAbs) (padded_ne_nil _ _) hrest
  rw [yearChars]
  split
  case isTrue hplain =>
    rw [show year.toNat = year.natAbs by omega]
    exact hdigits
  case isFalse hsigned => split <;> exact hdigits

/-! ## Dates -/

theorem toChars_append (d : Date) (rest : List Char) :
    d.toChars ++ rest =
      yearChars d.year ++ '-' ::
        (padded 2 d.month.toNat ++ '-' :: (padded 2 d.day.toNat ++ rest)) := by
  simp only [toChars, List.append_assoc, List.cons_append]

theorem readFields?_toChars (h : d.IsReal) (hrest : NoDigitAhead rest) :
    readFields? (d.toChars ++ rest) = some ((d.year, d.month, d.day), skipBlank rest) := by
  obtain ⟨hmonth, hday⟩ := h
  have hlength := Calendar.daysInMonth_bounds d.year d.month
  rw [toChars_append, readFields?,
    readYear?_yearChars _ (noDigitAhead_cons.mpr (by decide))]
  simp only [Option.bind_eq_bind, Option.bind_some]
  rw [expect?_skipBlank_cons (by decide), Option.bind_some,
    takeDigitsUpTo?_padded (by decide) (by omega) (noDigitAhead_cons.mpr (by decide))]
  simp only [Option.bind_some]
  rw [expect?_skipBlank_cons (by decide), Option.bind_some,
    takeDigitsUpTo?_padded (by decide) (by omega) hrest]
  simp only [Option.bind_some, readDigits_padded]
  rw [Int.toNat_of_nonneg (by omega), Int.toNat_of_nonneg (by omega)]
  rfl

theorem requireReadable_toChars (h : d.year.natAbs < 10 ^ 6) (rest : List Char) :
    requireReadable (d.toChars ++ rest) = .ok () := by
  have hlength : (padded 4 d.year.natAbs).length ≤ 6 := by
    have := length_digits_le (by decide) h
    rw [padded, List.length_leftpad]
    omega
  rw [toChars_append, requireReadable, firstNumber_yearChars _ (noDigitAhead_cons.mpr (by decide))]
  exact if_pos (Nat.le_trans hlength (by decide))

theorem new?_eq_ok {year month day : Int} :
    new? year month day = .ok d ↔ (mk year month day).InRange ∧ mk year month day = d := by
  rw [new?]
  by_cases hyear : minYear ≤ year ∧ year ≤ maxYear
  · rw [if_neg (not_not.mpr hyear)]
    simp only [bind_eq_ok, require_eq_ok, pure_eq_ok, exists_and_left, exists_const, InRange,
      IsReal, YearInRange, hyear, and_assoc, true_and]
  · rw [if_pos hyear]
    constructor
    · intro h
      cases h
    · rintro ⟨h, -⟩
      exact absurd h.1 hyear

theorem new?_of_not_yearInRange (h : ¬d.YearInRange) :
    new? d.year d.month d.day = .error (.outOfRange .year) := by
  have hyear : ¬(minYear ≤ d.year ∧ d.year ≤ maxYear) := h
  rw [new?, if_pos hyear]
  rfl

/-- A text of a real date is read as the date that is made of the same numbers. -/
theorem parse_format_of_isReal (h : d.IsReal) (hyear : d.year.natAbs < 10 ^ 6) :
    parse d.format = (new? d.year d.month d.day).mapError fun _ => .badText d.format := by
  have hread := readFields?_toChars h noDigitAhead_nil
  have hreadable := requireReadable_toChars hyear []
  rw [List.append_nil] at hread hreadable
  simp only [parse, parseFields, format, String.toList_ofList, hread, skipBlank_nil, hreadable]
  rfl

theorem parse_format_of_not_yearInRange (h : d.IsReal) (hyear : d.year.natAbs < 10 ^ 6)
    (hout : ¬d.YearInRange) : parse d.format = .error (.badText d.format) := by
  rw [parse_format_of_isReal h hyear, new?_of_not_yearInRange hout]
  rfl

theorem parse_format (h : d.InRange) : parse d.format = .ok d := by
  rw [parse_format_of_isReal h.2 (natAbs_lt_of_yearInRange h.1), new?_eq_ok.mpr ⟨h, rfl⟩]
  rfl

end CivilTime.Date
