import CivilTime.LocalDateTime.Text
import CivilTime.Proofs.Date.Grammar
import CivilTime.Proofs.TimeOfDay.Grammar

/-!
# The texts that are read as datetimes

A `T` is no part of the text of a date, so that the text of a datetime falls apart at it: in
front of it is a text that is read as the date, and behind it one that is read as the time.
White space before the `T` is the one that may stand at the end of a date.

The texts of dates, times and datetimes are the only ones that are read. There is one fault
for any other, whatever is wrong with it, and it shows the text.
-/

namespace CivilTime

open Text

/-! ## Datetimes -/

namespace LocalDateTime

variable {s : String} {cs : List Char} {t : LocalDateTime}

theorem endsDate_separator (cs : List Char) : DateText.EndsDate ('T' :: cs) :=
  ⟨noDigitAhead_cons.mpr (by decide), noBlankAhead_cons.mpr (by decide)⟩

theorem readFields?_append (x : DateText) (y : TimeText) :
    readFields? (x.chars ++ 'T' :: y.chars) =
      some (((x.date.year, x.date.month, x.date.day), y.fields), []) := by
  rw [readFields?, x.readFields?_append (endsDate_separator _)]
  simp only [Option.bind_eq_bind, Option.bind_some]
  rw [expect?_eq_some_iff.mpr rfl, Option.bind_some, y.readFields?_chars]
  rfl

theorem exists_of_readFields? {year month day : Int} {numbers : Int × Int × Int × Int}
    (h : readFields? cs = some (((year, month, day), numbers), [])) :
    ∃ (x : DateText) (y : TimeText), x.date = ⟨year, month, day⟩ ∧ y.fields = numbers ∧
      cs = x.chars ++ 'T' :: y.chars := by
  simp only [readFields?, bind, Option.bind_eq_some_iff, Prod.exists] at h
  obtain ⟨year', month', day', cs₁, hdate, cs₂, hseparator, hour, minute, second, nanos, cs₃, htime,
    hfields⟩ := h
  obtain ⟨hnumbers, rfl⟩ := Prod.mk.inj (Option.some.inj hfields)
  simp only [Prod.mk.injEq] at hnumbers
  obtain ⟨⟨rfl, rfl, rfl⟩, rfl⟩ := hnumbers
  obtain ⟨x, hx, rfl⟩ := DateText.exists_of_readFields? hdate
  obtain ⟨y, hy, rfl⟩ := TimeText.exists_of_readFields? htime
  obtain rfl := expect?_eq_some_iff.mp hseparator
  exact ⟨x, y, hx, hy, rfl⟩

theorem parseFields_eq_ok {fields : (Int × Int × Int) × (Int × Int × Int × Int)} :
    parseFields s = .ok fields ↔
      readFields? s.toList = some (fields, []) ∧ requireReadable s.toList = .ok () := by
  rw [parseFields]
  split
  case h_1 fields' hread =>
    rw [requireReadable_then_eq_ok, hread]
    simp only [Option.some.injEq, Prod.mk.injEq, and_true]
  case h_2 hnot => exact iff_of_false (by rintro ⟨⟩) fun h => hnot fields h.1

theorem new?_eq_ok {year month day hour minute second nanosecond : Int} :
    new? year month day hour minute second nanosecond = .ok t ↔
      Date.new? year month day = .ok t.date ∧
        TimeOfDay.new? hour minute second nanosecond = .ok t.time := by
  simp only [new?, bind_eq_ok, pure_eq_ok]
  constructor
  · rintro ⟨d, hdate, u, htime, rfl⟩
    exact ⟨hdate, htime⟩
  · rintro ⟨hdate, htime⟩
    exact ⟨_, hdate, _, htime, rfl⟩

/-- The texts of dates and times with a `T` between them. -/
theorem parse_eq_ok_iff_texts :
    parse s = .ok t ↔
      ∃ (x : DateText) (y : TimeText), s.toList = x.chars ++ 'T' :: y.chars ∧
        (x.Readable ∧ x.date = t.date ∧ t.date.InRange) ∧ y.InDay ∧ y.time = t.time := by
  simp only [parse, mapError_eq_ok, bind_eq_ok, parseFields_eq_ok, new?_eq_ok, Date.new?_eq_ok]
  constructor
  · rintro ⟨⟨⟨year, month, day⟩, numbers⟩, ⟨hread, hreadable⟩, ⟨hrange, hdate⟩, htime⟩
    obtain ⟨x, y, hx, rfl, hcs⟩ := exists_of_readFields? hread
    rw [hcs] at hreadable
    rw [hdate] at hrange
    exact ⟨x, y, hcs, ⟨(x.requireReadable_append_eq_ok _).mp hreadable, hx.trans hdate, hrange⟩,
      (TimeOfDay.new?_fields_eq_ok y).mp htime⟩
  · rintro ⟨x, y, hcs, ⟨hreadable, hdate, hrange⟩, htime⟩
    rw [← hdate] at hrange
    rw [hcs]
    exact ⟨_, ⟨readFields?_append x y, (x.requireReadable_append_eq_ok _).mpr hreadable⟩,
      ⟨hrange, hdate⟩, (TimeOfDay.new?_fields_eq_ok y).mpr htime⟩

theorem failsWith_parse (s : String) : FailsWith (parse s) (· = .badText s) :=
  failsWith_mapError_const _ _

/-- A datetime is read by reading its date and its time. -/
theorem parse_eq_ok_iff_parts :
    parse s = .ok t ↔ ∃ a b : String, s = a ++ "T" ++ b ∧
      Date.parse a = .ok t.date ∧ TimeOfDay.parse b = .ok t.time := by
  simp only [parse_eq_ok_iff_texts, Date.parse_eq_ok_iff_text, TimeOfDay.parse_eq_ok_iff_text]
  constructor
  · rintro ⟨x, y, hcs, hdate, htime⟩
    refine ⟨String.ofList x.chars, String.ofList y.chars, ?_,
      ⟨x, String.toList_ofList.symm, hdate⟩, y, String.toList_ofList.symm, htime⟩
    rw [← String.toList_inj, hcs]
    simp
  · rintro ⟨a, b, rfl, ⟨x, hx, hdate⟩, y, hy, htime⟩
    refine ⟨x, y, ?_, hdate, htime⟩
    rw [hx, hy]
    simp

/-- A datetime is read from exactly the texts of a date and of a time with a `T` between them, and
is made of the two. Any other text is one that has not the format. -/
theorem parse_splits_at_separator (s : String) :
    (∀ t, parse s = .ok t ↔ ∃ a b : String, s = a ++ "T" ++ b ∧
      Date.parse a = .ok t.date ∧ TimeOfDay.parse b = .ok t.time) ∧
    (parse s = .error (.badText s) ↔ ¬∃ a b : String, s = a ++ "T" ++ b ∧
      (∃ d, Date.parse a = .ok d) ∧ ∃ u, TimeOfDay.parse b = .ok u) ∧
    (Fault.badText s).message = "Invalid format: " ++ quote s := by
  refine ⟨fun t => parse_eq_ok_iff_parts,
    (failsWith_parse s).eq_error_iff.trans (not_congr ?_), rfl⟩
  constructor
  · rintro ⟨t, hparse⟩
    obtain ⟨a, b, hs, hdate, htime⟩ := parse_eq_ok_iff_parts.mp hparse
    exact ⟨a, b, hs, ⟨_, hdate⟩, _, htime⟩
  · rintro ⟨a, b, hs, ⟨d, hdate⟩, u, htime⟩
    exact ⟨⟨d, u⟩, parse_eq_ok_iff_parts.mpr ⟨a, b, hs, hdate, htime⟩⟩

end LocalDateTime

/-! ## Dates and times of day -/

/-- Dates and times are read from exactly the texts of the format whose numbers are those of a
date or of a time, and have these numbers. Any other text is one that has not the format, and so
is one with a year of more digits than are read. -/
theorem grammar_exact (s : String) :
    ((∀ d, Date.parse s = .ok d ↔
        ∃ x : DateText, x.chars = s.toList ∧ x.Readable ∧ x.date = d ∧ d.InRange) ∧
      (Date.parse s = .error (.badText s) ↔
        ¬∃ x : DateText, x.chars = s.toList ∧ x.Readable ∧ x.date.InRange)) ∧
    ((∀ t, TimeOfDay.parse s = .ok t ↔
        ∃ x : TimeText, x.chars = s.toList ∧ x.InDay ∧ x.time = t) ∧
      (TimeOfDay.parse s = .error (.badText s) ↔
        ¬∃ x : TimeText, x.chars = s.toList ∧ x.InDay)) ∧
    (Fault.badText s).message = "Invalid format: " ++ quote s := by
  refine ⟨⟨fun d => Date.parse_eq_ok_iff_text, ?_⟩, ⟨fun t => TimeOfDay.parse_eq_ok_iff_text, ?_⟩,
    rfl⟩
  · refine (Date.failsWith_parse s).eq_error_iff.trans (not_congr ?_)
    simp only [Date.parse_eq_ok_iff_text]
    constructor
    · rintro ⟨d, x, hs, hreadable, rfl, hrange⟩
      exact ⟨x, hs, hreadable, hrange⟩
    · rintro ⟨x, hs, hreadable, hrange⟩
      exact ⟨x.date, x, hs, hreadable, rfl, hrange⟩
  · refine (TimeOfDay.failsWith_parse s).eq_error_iff.trans (not_congr ?_)
    simp only [TimeOfDay.parse_eq_ok_iff_text]
    constructor
    · rintro ⟨t, x, hs, htime, -⟩
      exact ⟨x, hs, htime⟩
    · rintro ⟨x, hs, htime⟩
      exact ⟨x.time, x, hs, htime, rfl⟩

end CivilTime
