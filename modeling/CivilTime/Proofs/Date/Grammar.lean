import CivilTime.Proofs.Date.RoundTrip
import CivilTime.Proofs.Text.Numeral

/-!
# The texts that are read as dates

The text of a date has a year, a month and a day with hyphens between them, and white space
after each. A year without a sign has at most four digits. A date is read from exactly these
texts, if the calendar has the day in the supported range and the year is not too long to be
read; whatever else a text is, the fault is its format.
-/

namespace CivilTime

open Text

/-- A year as it is written: in up to four digits, or with a sign. -/
inductive YearText where
  | plain (n : ShortNumeral 4)
  | signed (negative : Bool) (n : Numeral)

namespace YearText

/-- The digits of the year. -/
def numeral : YearText → Numeral
  | plain n => n.toNumeral
  | signed _ n => n

def chars : YearText → List Char
  | plain n => n.digits
  | signed negative n => (if negative then '-' else '+') :: n.digits

/-- The number of the year. -/
def value : YearText → Int
  | plain n => n.value
  | signed negative n => if negative then -n.value else n.value

end YearText

/-- The parts of the text of a date. -/
structure DateText where
  year : YearText
  afterYear : Blanks
  month : ShortNumeral 2
  afterMonth : Blanks
  day : ShortNumeral 2
  afterDay : Blanks

namespace DateText

/-- The text that the parts make up. -/
def chars (x : DateText) : List Char :=
  x.year.chars ++ (x.afterYear.chars ++ '-' ::
    (x.month.digits ++ (x.afterMonth.chars ++ '-' :: (x.day.digits ++ x.afterDay.chars))))

/-- The date of the three numbers, which the calendar need not have. -/
def date (x : DateText) : Date := ⟨x.year.value, x.month.value, x.day.value⟩

/-- The year has no more digits than are read. -/
def Readable (x : DateText) : Prop := x.year.numeral.digits.length ≤ mostDigits

end DateText

/-! ## Years -/

namespace YearText

variable {cs rest : List Char}

theorem readYear?_append (y : YearText) (h : NoDigitAhead rest) :
    Date.readYear? (y.chars ++ rest) = some (y.value, rest) := by
  cases y with
  | plain n =>
    rw [chars, Date.readYear?_of_digits n.isDigit n.ne_nil, n.takeDigitsUpTo?_append h]
    rfl
  | signed negative n =>
    cases negative
    all_goals
      change (takeDigits? (n.digits ++ rest)).map _ = _
      rw [n.takeDigits?_append h]
      rfl

/-- The digits after a sign, whichever it is. -/
theorem exists_numeral_of_map (f : List Char → Int) {year : Int}
    (h : ((takeDigits? cs).map fun (ds, rest) => (f ds, rest)) = some (year, rest)) :
    ∃ n : Numeral, f n.digits = year ∧ cs = n.digits ++ rest := by
  obtain ⟨⟨ds, rest⟩, htake, hpair⟩ := Option.map_eq_some_iff.mp h
  obtain ⟨rfl, rfl⟩ := Prod.mk.inj hpair
  obtain ⟨n, rfl, rfl⟩ := exists_numeral_of_takeDigits? htake
  exact ⟨n, rfl, rfl⟩

theorem exists_of_readYear? {year : Int} (h : Date.readYear? cs = some (year, rest)) :
    ∃ y : YearText, y.value = year ∧ cs = y.chars ++ rest := by
  rw [Date.readYear?.eq_def] at h
  split at h
  case h_1 =>
    obtain ⟨n, hyear, rfl⟩ := exists_numeral_of_map (fun ds => -(readDigits ds : Int)) h
    exact ⟨signed true n, hyear, rfl⟩
  case h_2 =>
    obtain ⟨n, hyear, rfl⟩ := exists_numeral_of_map (fun ds => (readDigits ds : Int)) h
    exact ⟨signed false n, hyear, rfl⟩
  case h_3 =>
    obtain ⟨⟨ds, rest⟩, htake, hpair⟩ := Option.map_eq_some_iff.mp h
    obtain ⟨rfl, rfl⟩ := Prod.mk.inj hpair
    obtain ⟨n, rfl, rfl⟩ := exists_numeral_of_takeDigitsUpTo? htake
    exact ⟨plain n, rfl, rfl⟩

/-- A sign is no digit, so that the digits of the year come first. -/
theorem firstNumber_append (y : YearText) (h : NoDigitAhead rest) :
    firstNumber (y.chars ++ rest) = y.numeral.digits := by
  have hdigits := Text.firstNumber_append y.numeral.isDigit y.numeral.ne_nil h
  cases y with
  | plain n => exact hdigits
  | signed negative n => cases negative <;> exact hdigits

end YearText

/-! ## Dates -/

namespace DateText

variable {cs rest : List Char}

/-- What comes after a text of a date could not be a part of it. -/
def EndsDate (rest : List Char) : Prop := NoDigitAhead rest ∧ NoBlankAhead rest

theorem endsDate_nil : EndsDate [] := ⟨noDigitAhead_nil, noBlankAhead_nil⟩

theorem chars_append (x : DateText) (rest : List Char) :
    x.chars ++ rest = x.year.chars ++ (x.afterYear.chars ++ '-' ::
      (x.month.digits ++ (x.afterMonth.chars ++ '-' ::
        (x.day.digits ++ (x.afterDay.chars ++ rest))))) := by
  simp only [chars, List.append_assoc, List.cons_append]

theorem noDigitAhead_hyphen (b : Blanks) (cs : List Char) :
    NoDigitAhead (b.chars ++ '-' :: cs) :=
  b.noDigitAhead_append (noDigitAhead_cons.mpr (by decide))

theorem readFields?_append (x : DateText) (h : EndsDate rest) :
    Date.readFields? (x.chars ++ rest) =
      some ((x.date.year, x.date.month, x.date.day), rest) := by
  rw [chars_append, Date.readFields?, x.year.readYear?_append (noDigitAhead_hyphen _ _)]
  simp only [Option.bind_eq_bind, Option.bind_some]
  rw [expect?_skipBlank_append (by decide), Option.bind_some,
    x.month.takeDigitsUpTo?_append (noDigitAhead_hyphen _ _)]
  simp only [Option.bind_some]
  rw [expect?_skipBlank_append (by decide), Option.bind_some,
    x.day.takeDigitsUpTo?_append (x.afterDay.noDigitAhead_append h.1)]
  simp only [Option.bind_some, skipBlank_append x.afterDay h.2]
  rfl

theorem exists_of_readFields? {year month day : Int}
    (h : Date.readFields? cs = some ((year, month, day), rest)) :
    ∃ x : DateText, x.date = ⟨year, month, day⟩ ∧ cs = x.chars ++ rest := by
  simp only [Date.readFields?, bind, Option.bind_eq_some_iff, Prod.exists] at h
  obtain ⟨year', cs₁, hyear, cs₂, hhyphen, month', cs₃, hmonth, cs₄, hhyphen', day', cs₅, hday,
    hfields⟩ := h
  obtain ⟨hnumbers, rfl⟩ := Prod.mk.inj (Option.some.inj hfields)
  simp only [Prod.mk.injEq] at hnumbers
  obtain ⟨rfl, rfl, rfl⟩ := hnumbers
  obtain ⟨y, rfl, rfl⟩ := YearText.exists_of_readYear? hyear
  obtain ⟨afterYear, rfl⟩ := exists_blanks_of_expect? hhyphen
  obtain ⟨m, rfl, rfl⟩ := exists_numeral_of_takeDigitsUpTo? hmonth
  obtain ⟨afterMonth, rfl⟩ := exists_blanks_of_expect? hhyphen'
  obtain ⟨d, rfl, rfl⟩ := exists_numeral_of_takeDigitsUpTo? hday
  obtain ⟨afterDay, hafterDay⟩ := exists_blanks cs₅
  refine ⟨⟨y, afterYear, m, afterMonth, d, afterDay⟩, rfl, ?_⟩
  rw [chars_append, ← hafterDay]

theorem requireReadable_append_eq_ok (x : DateText) (rest : List Char) :
    requireReadable (x.chars ++ rest) = .ok () ↔ x.Readable := by
  rw [chars_append, requireReadable, x.year.firstNumber_append (noDigitAhead_hyphen _ _)]
  split
  case isTrue h => exact iff_of_true rfl h
  case isFalse h => exact iff_of_false (by rintro ⟨⟩) h

end DateText

/-- A long year is found only after the whole text has been read. -/
theorem requireReadable_then_eq_ok {α : Type} {cs : List Char} {a b : α} :
    (do requireReadable cs; return a) = .ok b ↔ a = b ∧ requireReadable cs = .ok () := by
  simp only [bind_eq_ok, pure_eq_ok]
  constructor
  · rintro ⟨_, hreadable, hab⟩
    exact ⟨hab, hreadable⟩
  · rintro ⟨hab, hreadable⟩
    exact ⟨(), hreadable, hab⟩

namespace Date

variable {s : String} {d : Date}

theorem parseFields_eq_ok {fields : Int × Int × Int} :
    parseFields s = .ok fields ↔
      readFields? s.toList = some (fields, []) ∧ requireReadable s.toList = .ok () := by
  rw [parseFields]
  split
  case h_1 fields' hread =>
    rw [requireReadable_then_eq_ok, hread]
    simp only [Option.some.injEq, Prod.mk.injEq, and_true]
  case h_2 hnot => exact iff_of_false (by rintro ⟨⟩) fun h => hnot fields h.1

/-- The texts of dates in the supported range, as long as the year can be read. -/
theorem parse_eq_ok_iff_text :
    parse s = .ok d ↔
      ∃ x : DateText, x.chars = s.toList ∧ x.Readable ∧ x.date = d ∧ d.InRange := by
  simp only [parse, mapError_eq_ok, bind_eq_ok, parseFields_eq_ok, Prod.exists, new?_eq_ok]
  constructor
  · rintro ⟨year, month, day, ⟨hread, hreadable⟩, hrange, rfl⟩
    obtain ⟨x, hx, hcs⟩ := DateText.exists_of_readFields? hread
    rw [hcs] at hreadable
    refine ⟨x, ?_, (x.requireReadable_append_eq_ok []).mp hreadable, hx, hrange⟩
    rw [hcs, List.append_nil]
  · rintro ⟨x, hcs, hreadable, rfl, hrange⟩
    have hread := x.readFields?_append DateText.endsDate_nil
    have hrequire := (x.requireReadable_append_eq_ok []).mpr hreadable
    rw [List.append_nil, hcs] at hread hrequire
    exact ⟨_, _, _, ⟨hread, hrequire⟩, hrange, rfl⟩

theorem failsWith_parse (s : String) : FailsWith (parse s) (· = .badText s) :=
  failsWith_mapError_const _ _

end Date

/-! ## Years that are too long -/

namespace DateText

/-- However a text is taken apart, the digits of the year are the same. -/
theorem readable_congr {x y : DateText} (h : x.chars = y.chars) : x.Readable ↔ y.Readable := by
  rw [← x.requireReadable_append_eq_ok [], h, y.requireReadable_append_eq_ok]

theorem parse_eq_error_of_not_readable {x : DateText} (h : ¬x.Readable) :
    Date.parse (String.ofList x.chars) = .error (.badText (String.ofList x.chars)) := by
  refine (Date.failsWith_parse _).eq_error_iff.mpr ?_
  rintro ⟨d, hparse⟩
  obtain ⟨y, hy, hreadable, -⟩ := Date.parse_eq_ok_iff_text.mp hparse
  rw [String.toList_ofList] at hy
  exact h ((readable_congr hy).mp hreadable)

/-- The first day of year 1, with the year in `width` digits. -/
def firstDay (width : Nat) : DateText where
  year := .signed false (.padded width 1)
  afterYear := ⟨[], nofun⟩
  month := ⟨.padded 2 1, Nat.le_of_eq (length_padded Nat.two_pos (by norm_num))⟩
  afterMonth := ⟨[], nofun⟩
  day := ⟨.padded 2 1, Nat.le_of_eq (length_padded Nat.two_pos (by norm_num))⟩
  afterDay := ⟨[], nofun⟩

theorem firstDay_date (width : Nat) : (firstDay width).date = ⟨1, 1, 1⟩ := by
  simp [date, firstDay, YearText.value]

theorem readable_firstDay_iff {width : Nat} (h : 0 < width) :
    (firstDay width).Readable ↔ width ≤ mostDigits := by
  have hlength : (Numeral.padded width 1).digits.length = width :=
    length_padded h (Nat.one_lt_pow (Nat.ne_of_gt h) (by norm_num))
  simp only [Readable, firstDay, YearText.numeral, hlength]

/-- A year of one digit more than are read. -/
theorem long_year_refused :
    ((firstDay 4301).date = ⟨1, 1, 1⟩ ∧ (firstDay 4301).date.InRange) ∧
      Date.parse (String.ofList (firstDay 4301).chars) =
        .error (.badText (String.ofList (firstDay 4301).chars)) := by
  refine ⟨⟨firstDay_date 4301, ?_⟩, parse_eq_error_of_not_readable ?_⟩
  · rw [firstDay_date]
    decide
  · rw [readable_firstDay_iff (Nat.succ_pos 4300)]
    decide

end DateText

end CivilTime
