import CivilTime.LocalDateTime.Text
import CivilTime.Proofs.Date.RoundTrip
import CivilTime.Proofs.TimeOfDay.RoundTrip

/-!
# Datetimes that are written and read

The text of a valid datetime is read back as the datetime: the `T` ends the date, and the
end of the text the time. As with dates and times of day, the text then says which value
it is of.
-/

namespace CivilTime

/-- Values with one text that is read back as each of them are one. -/
theorem eq_of_text_eq {α : Type} {format : α → String} {parse : String → Outcome α} {a b : α}
    (ha : parse (format a) = .ok a) (hb : parse (format b) = .ok b) (h : format a = format b) :
    a = b := by
  rw [h, hb] at ha
  exact (Except.ok.inj ha).symm

namespace LocalDateTime

open Text

variable {t : LocalDateTime} {rest : List Char}

theorem readFields?_toChars (hdate : t.date.IsReal) (htime : t.time.Valid)
    (hrest : TimeOfDay.EndsSecond rest) :
    readFields? (t.toCharsWith 'T' ++ rest) =
      some (((t.date.year, t.date.month, t.date.day),
        (t.time.hour, t.time.minute, t.time.second, t.time.frac)), skipBlank rest) := by
  rw [toCharsWith, List.append_assoc, List.cons_append, readFields?,
    Date.readFields?_toChars hdate (noDigitAhead_cons.mpr (by decide))]
  simp only [Option.bind_eq_bind, Option.bind_some]
  rw [expect?_skipBlank_cons (by decide), Option.bind_some,
    TimeOfDay.readFields?_toChars htime hrest]
  rfl

/-- The fields that are read tell the datetime. -/
theorem eq_of_fields_eq {u : LocalDateTime} (ht : t.time.Valid) (hu : u.time.Valid)
    (h : ((t.date.year, t.date.month, t.date.day),
        (t.time.hour, t.time.minute, t.time.second, t.time.frac)) =
      ((u.date.year, u.date.month, u.date.day),
        (u.time.hour, u.time.minute, u.time.second, u.time.frac))) : t = u := by
  obtain ⟨⟨year, month, day⟩, time⟩ := t
  obtain ⟨⟨year', month', day'⟩, time'⟩ := u
  simp only [Prod.mk.injEq] at h
  obtain ⟨⟨rfl, rfl, rfl⟩, hfields⟩ := h
  have htime : time = time' := TimeOfDay.eq_of_fields_eq ht hu hfields
  rw [htime]

theorem new?_of_valid (ht : t.Valid) :
    new? t.date.year t.date.month t.date.day t.time.hour t.time.minute t.time.second t.time.frac =
      .ok t := by
  rw [new?, Date.new?_eq_ok.mpr ⟨ht.1, rfl⟩, TimeOfDay.new?_of_valid ht.2]
  rfl

/-- The text of a real date with a valid time is read as the datetime that is made of the same
numbers. -/
theorem parse_format_of_isReal (hdate : t.date.IsReal) (hyear : t.date.year.natAbs < 10 ^ 6)
    (htime : t.time.Valid) :
    parse t.format = (new? t.date.year t.date.month t.date.day t.time.hour t.time.minute
      t.time.second t.time.frac).mapError fun _ => .badText t.format := by
  have hreadable : requireReadable (t.toCharsWith 'T') = .ok () :=
    Date.requireReadable_toChars hyear _
  have hread := readFields?_toChars hdate htime TimeOfDay.endsSecond_nil
  rw [List.append_nil] at hread
  simp only [parse, parseFields, format, String.toList_ofList, hread, skipBlank_nil, hreadable]
  rfl

theorem parse_format (ht : t.Valid) : parse t.format = .ok t := by
  rw [parse_format_of_isReal ht.1.2 (Date.natAbs_lt_of_yearInRange ht.1.1) ht.2, new?_of_valid ht]
  rfl

/-! ## Texts that are not read back -/

/-- The datetime that the text of a datetime looks like. -/
def shown (t : LocalDateTime) : LocalDateTime := ⟨t.date, t.time.shown⟩

theorem toCharsWith_shown (htime : t.time.OnClock) (separator : Char) :
    t.shown.toCharsWith separator = t.toCharsWith separator := by
  rw [toCharsWith, toCharsWith, shown, htime.toChars_shown]

/-- A text with a year outside of the supported range is refused. -/
theorem parse_format_of_not_yearInRange (hdate : t.date.IsReal)
    (hyear : t.date.year.natAbs < 10 ^ 6) (htime : t.time.OnClock) (hout : ¬t.date.YearInRange) :
    parse t.format = .error (.badText t.format) := by
  have hshown : t.shown.format = t.format := congrArg String.ofList (toCharsWith_shown htime 'T')
  have hparse := parse_format_of_isReal (t := t.shown) hdate hyear htime.valid_shown
  rw [hshown, new?, shown, Date.new?_of_not_yearInRange hout] at hparse
  exact hparse

/-! ## Texts and values -/

/-- Dates, times of day and datetimes are read back from their texts, so that no two of one
kind have the same text. -/
theorem format_faithful :
    ((∀ d : Date, d.InRange → Date.parse d.format = .ok d) ∧
      (∀ t : TimeOfDay, t.Valid → TimeOfDay.parse t.format = .ok t) ∧
      ∀ t : LocalDateTime, t.Valid → parse t.format = .ok t) ∧
    (∀ d d' : Date, d.InRange → d'.InRange → d.format = d'.format → d = d') ∧
    (∀ t t' : TimeOfDay, t.Valid → t'.Valid → t.format = t'.format → t = t') ∧
    ∀ t t' : LocalDateTime, t.Valid → t'.Valid → t.format = t'.format → t = t' := by
  refine ⟨⟨fun _ => Date.parse_format, fun _ => TimeOfDay.parse_format, fun _ => parse_format⟩,
    ?_, ?_, ?_⟩
  · intro d d' hd hd'
    exact eq_of_text_eq (Date.parse_format hd) (Date.parse_format hd')
  · intro t t' ht ht'
    exact eq_of_text_eq (TimeOfDay.parse_format ht) (TimeOfDay.parse_format ht')
  · intro t t' ht ht'
    exact eq_of_text_eq (parse_format ht) (parse_format ht')

/-- The leap second at the end of a day in the first year, which is written with a minus
sign, second 60 and six decimals. -/
theorem format_faithful_first_year :
    (⟨⟨-262143, 12, 31⟩, ⟨86399, 1000001000⟩⟩ : LocalDateTime).Valid ∧
      format ⟨⟨-262143, 12, 31⟩, ⟨86399, 1000001000⟩⟩ = "-262143-12-31T23:59:60.000001" ∧
      parse "-262143-12-31T23:59:60.000001" = .ok ⟨⟨-262143, 12, 31⟩, ⟨86399, 1000001000⟩⟩ := by
  have hvalid : (⟨⟨-262143, 12, 31⟩, ⟨86399, 1000001000⟩⟩ : LocalDateTime).Valid := by decide
  have htext : format ⟨⟨-262143, 12, 31⟩, ⟨86399, 1000001000⟩⟩ =
      "-262143-12-31T23:59:60.000001" := by
    decide +kernel
  have hread := format_faithful.1.2.2 _ hvalid
  rw [htext] at hread
  exact ⟨hvalid, htext, hread⟩

end LocalDateTime

end CivilTime
