import CivilTime.Proofs.LocalDateTime.RoundTrip
import CivilTime.Proofs.OffsetDateTime.Local

/-!
# The texts of moments

The text of a moment shows its local datetime and its offset, and both can be read off from
it. This tells what the moment is, unless it is in a leap second that its offset moves away from
second 59. Such a leap second is written as the second after it, so that the text is that of
another moment too.
-/

namespace CivilTime

namespace Offset

open Text

variable {o p : Offset}

/-- The offset as it ends the text of a moment. -/
def suffix (o : Offset) : List Char := if o.secs = 0 then ['Z'] else o.toChars

theorem exists_suffix_eq (o : Offset) :
    ∃ c cs, o.suffix = c :: cs ∧ (c = 'Z' ∨ c = '-' ∨ c = '+') := by
  rw [suffix]
  split
  case isTrue => exact ⟨'Z', [], rfl, .inl rfl⟩
  case isFalse =>
    refine ⟨_, _, rfl, .inr ?_⟩
    split
    case isTrue => exact .inl rfl
    case isFalse => exact .inr rfl

/-- The offset does not start with what could be read as a part of the time before it. -/
theorem suffix_head (o : Offset) :
    ∃ c cs, o.suffix = c :: cs ∧ (¬c.isDigit ∧ c ≠ '.') ∧ ¬isBlank c := by
  obtain ⟨c, cs, hsuffix, hc⟩ := o.exists_suffix_eq
  refine ⟨c, cs, hsuffix, ?_⟩
  rcases hc with rfl | rfl | rfl <;> decide

theorem endsSecond_suffix (o : Offset) : TimeOfDay.EndsSecond o.suffix := by
  obtain ⟨c, cs, hsuffix, hc, -⟩ := o.suffix_head
  rw [hsuffix]
  rintro d ⟨⟩
  exact hc

theorem skipBlank_suffix (o : Offset) : skipBlank o.suffix = o.suffix := by
  obtain ⟨c, cs, hsuffix, -, hblank⟩ := o.suffix_head
  rw [hsuffix, skipBlank, List.dropWhile_cons_of_neg hblank]

/-- The seconds of an offset are written only if there are any. -/
theorem eq_of_secondChars_eq {n m : Nat} (hn : n < 100) (hm : m < 100)
    (h : (if n = 0 then [] else ':' :: padded 2 n) = if m = 0 then [] else ':' :: padded 2 m) :
    n = m := by
  split at h
  case isTrue hzero =>
    split at h
    case isTrue hzero' => rw [hzero, hzero']
    case isFalse => cases h
  case isFalse =>
    split at h
    case isTrue => cases h
    case isFalse =>
      have hdigits : padded 2 n ++ [] = padded 2 m ++ [] := by
        rw [(List.cons.inj h).2]
      exact (padded_append_inj (by decide) hn hm hdigits).1

theorem toChars_inj (ho : o.InRange) (hp : p.InRange) (h : o.toChars = p.toChars) : o = p := by
  simp only [InRange] at ho hp
  simp only [toChars, List.cons_append, List.append_assoc] at h
  obtain ⟨hsign, h⟩ := List.cons.inj h
  obtain ⟨hhours, h⟩ := padded_append_inj (by decide) (by omega) (by omega) h
  obtain ⟨hminutes, h⟩ := padded_append_inj (by decide) (by omega) (by omega) (List.cons.inj h).2
  have hseconds := eq_of_secondChars_eq (by omega) (by omega) h
  have hneg : o.secs < 0 ↔ p.secs < 0 := by
    by_cases hnego : o.secs < 0
    · by_cases hnegp : p.secs < 0
      · exact iff_of_true hnego hnegp
      · rw [if_pos hnego, if_neg hnegp] at hsign
        exact absurd hsign (by decide)
    · by_cases hnegp : p.secs < 0
      · rw [if_neg hnego, if_pos hnegp] at hsign
        exact absurd hsign (by decide)
      · exact iff_of_false hnego hnegp
  have hsecs : o.secs = p.secs := by omega
  exact congrArg mk hsecs

theorem suffix_inj (ho : o.InRange) (hp : p.InRange) (h : o.suffix = p.suffix) : o = p := by
  have hletter : ∀ q : Offset, ['Z'] ≠ q.toChars := by
    intro q hq
    have hsign := (List.cons.inj hq).1
    split at hsign <;> cases hsign
  rw [suffix, suffix] at h
  split at h
  case isTrue hzero =>
    split at h
    case isTrue hzero' => exact congrArg mk (hzero.trans hzero'.symm)
    case isFalse => exact absurd h (hletter p)
  case isFalse =>
    split at h
    case isTrue => exact absurd h.symm (hletter o)
    case isFalse => exact toChars_inj ho hp h

end Offset

namespace OffsetDateTime

open Text LocalDateTime

variable {t a b : OffsetDateTime}

/-! ## What a text shows -/

theorem toChars_shown (h : t.Valid) :
    t.toChars = t.localDateTime.shown.toCharsWith 'T' ++ t.offset.suffix := by
  rw [toCharsWith_shown h.onClock_localDateTime]
  rfl

/-- The local datetime and the offset are read off from the text. -/
theorem format_eq_iff_shown (ha : a.Valid) (hb : b.Valid) :
    a.format = b.format ↔
      a.localDateTime.shown = b.localDateTime.shown ∧ a.offset = b.offset := by
  rw [format, format, String.ofList_inj, toChars_shown ha, toChars_shown hb]
  constructor
  · intro h
    have hread (t : OffsetDateTime) (ht : t.Valid) :=
      LocalDateTime.readFields?_toChars (t := t.localDateTime.shown)
        ht.showable_localDateTime.isReal ht.onClock_localDateTime.valid_shown
        t.offset.endsSecond_suffix
    have hsame := hread a ha
    rw [h, hread b hb, Offset.skipBlank_suffix, Offset.skipBlank_suffix] at hsame
    obtain ⟨hfields, hsuffix⟩ := Prod.mk.inj (Option.some.inj hsame)
    have hlocal := LocalDateTime.eq_of_fields_eq hb.onClock_localDateTime.valid_shown
      ha.onClock_localDateTime.valid_shown hfields
    exact ⟨hlocal.symm, Offset.suffix_inj ha.2 hb.2 hsuffix.symm⟩
  · rintro ⟨hlocal, hoffset⟩
    rw [hlocal, hoffset]

/-! ## What a text means -/

/-- The seconds by which a text is ahead of its moment. -/
def textLead (t : OffsetDateTime) : Int :=
  if t.utc.time.KeepsSecond t.offset.secs then 0 else 1

/-- What is shown lies where the moment does, apart from the lead of the text, which stands in
the place of a second of the fraction. -/
theorem shown_localDateTime (h : t.Valid) :
    t.localDateTime.shown.time.OnDay ∧
      t.localDateTime.shown.seconds = t.utc.seconds + t.offset.secs + t.textLead ∧
      t.localDateTime.shown.time.frac = t.utc.time.frac - t.textLead * nanosPerSecond := by
  have hoffset := h.2
  have hmoved : t.localDateTime.MovedBy t.utc t.offset.secs := by
    refine movedBy_shifted h.1.1 h.1.2.onDay ?_
    simp only [Offset.InRange, secondsPerDay] at *
    omega
  have hseconds := hmoved.seconds_eq
  have hfrac := hmoved.frac_eq
  refine ⟨h.onClock_localDateTime.valid_shown.onDay, ?_⟩
  rw [textLead]
  rcases h.onClock_localDateTime.shown_cases with ⟨hvalid, hshown⟩ | ⟨⟨hleap, hsecond⟩, hshown⟩
  · rw [if_pos (h.valid_localDateTime_time_iff.mp hvalid)]
    simp only [LocalDateTime.shown, hshown, seconds] at *
    omega
  · have hinvalid : ¬t.localDateTime.time.Valid := fun hvalid => hsecond (hvalid.2.2 hleap)
    rw [if_neg (mt h.valid_localDateTime_time_iff.mpr hinvalid)]
    simp only [LocalDateTime.shown, hshown, seconds] at *
    omega

theorem textLead_cases (t : OffsetDateTime) :
    t.utc.time.KeepsSecond t.offset.secs ∧ t.textLead = 0 ∨
      ¬t.utc.time.KeepsSecond t.offset.secs ∧ t.textLead = 1 := by
  rw [textLead]
  split
  case isTrue h => exact .inl ⟨h, rfl⟩
  case isFalse h => exact .inr ⟨h, rfl⟩

theorem format_eq_iff_seconds (ha : a.Valid) (hb : b.Valid) :
    a.format = b.format ↔
      a.offset = b.offset ∧ a.utc.seconds + a.textLead = b.utc.seconds + b.textLead ∧
        a.utc.time.frac - a.textLead * nanosPerSecond =
          b.utc.time.frac - b.textLead * nanosPerSecond := by
  obtain ⟨haday, haseconds, hafrac⟩ := shown_localDateTime ha
  obtain ⟨hbday, hbseconds, hbfrac⟩ := shown_localDateTime hb
  rw [format_eq_iff_shown ha hb]
  constructor
  · rintro ⟨hshown, hoffset⟩
    rw [hshown] at haseconds hafrac
    rw [hoffset] at haseconds
    exact ⟨hoffset, by omega, by omega⟩
  · rintro ⟨hoffset, hseconds, hfrac⟩
    rw [hoffset] at haseconds
    exact ⟨eq_of_seconds_eq ha.showable_localDateTime.isReal hb.showable_localDateTime.isReal
      haday hbday (by omega) (by omega), hoffset⟩

/-- `a` is in a leap second that its offset moves away from second 59, and `b` is one second
later at the same offset, with the same part of the second. -/
structure LooksLike (a b : OffsetDateTime) : Prop where
  moved : ¬a.utc.time.KeepsSecond a.offset.secs
  offset_eq : b.offset = a.offset
  seconds_eq : b.utc.seconds = a.utc.seconds + 1
  frac_eq : b.utc.time.frac = a.utc.time.frac - nanosPerSecond

/-- A leap second and the second that it looks like have one text. -/
theorem LooksLike.format_eq (ha : a.Valid) (hb : b.Valid) (h : a.LooksLike b) :
    a.format = b.format := by
  have hfrac := h.frac_eq
  -- the fraction of the second one is less than a second, as that of the first is less than two
  have hkeeps : b.utc.time.KeepsSecond b.offset.secs := by
    intro hleap
    have := ha.1.2.2.1
    simp only [TimeOfDay.InLeapSecond] at hleap
    omega
  have haLead : a.textLead = 1 := if_neg h.moved
  have hbLead : b.textLead = 0 := if_pos hkeeps
  rw [format_eq_iff_seconds ha hb, haLead, hbLead]
  exact ⟨h.offset_eq.symm, by rw [h.seconds_eq, Int.add_zero], by omega⟩

/-- The texts of two moments are equal exactly if the moments and their offsets are, or if one
of them is in a leap second that looks like the other. -/
theorem format_eq_iff (ha : a.Valid) (hb : b.Valid) :
    a.format = b.format ↔ a = b ∨ a.LooksLike b ∨ b.LooksLike a := by
  constructor
  · intro h
    obtain ⟨hoffset, hseconds, hfrac⟩ := (format_eq_iff_seconds ha hb).mp h
    have heq (hseconds : a.utc.seconds = b.utc.seconds)
        (hfrac : a.utc.time.frac = b.utc.time.frac) : a = b :=
      congr (congrArg mk (eq_of_seconds_eq ha.1.1.2 hb.1.1.2 ha.1.2.onDay hb.1.2.onDay hseconds
        hfrac)) hoffset
    rcases a.textLead_cases with ⟨-, haLead⟩ | ⟨hmoved, haLead⟩
    · rcases b.textLead_cases with ⟨-, hbLead⟩ | ⟨hmoved, hbLead⟩
      · rw [haLead, hbLead] at hseconds hfrac
        exact .inl (heq (by omega) (by omega))
      · rw [haLead, hbLead] at hseconds hfrac
        exact .inr (.inr ⟨hmoved, hoffset, by omega, by omega⟩)
    · rcases b.textLead_cases with ⟨-, hbLead⟩ | ⟨-, hbLead⟩
      · rw [haLead, hbLead] at hseconds hfrac
        exact .inr (.inl ⟨hmoved, hoffset.symm, by omega, by omega⟩)
      · rw [haLead, hbLead] at hseconds hfrac
        exact .inl (heq (by omega) (by omega))
  · rintro (rfl | hlooks | hlooks)
    · rfl
    · exact hlooks.format_eq ha hb
    · exact (hlooks.format_eq hb ha).symm

/-- The leap second at the end of 2016 at an offset with seconds, and the second after it. -/
theorem format_eq_iff_moved_leap_second :
    let a : OffsetDateTime := ⟨⟨⟨2016, 12, 31⟩, ⟨86399, 1000000000⟩⟩, ⟨1⟩⟩
    let b : OffsetDateTime := ⟨⟨⟨2017, 1, 1⟩, ⟨0, 0⟩⟩, ⟨1⟩⟩
    a.Valid ∧ b.Valid ∧ a.LooksLike b ∧ a.format = b.format := by
  intro a b
  have ha : a.Valid := by decide
  have hb : b.Valid := by decide
  have hlooks : a.LooksLike b := ⟨by decide, by decide, by decide, by decide⟩
  exact ⟨ha, hb, hlooks, (format_eq_iff ha hb).mpr (.inr (.inl hlooks))⟩

/-- The leap second is written as an ordinary second, so that the text does not tell it from
the second after it. -/
theorem format_leap_second_moved :
    let a : OffsetDateTime := ⟨⟨⟨2016, 12, 31⟩, ⟨86399, 1000000000⟩⟩, ⟨1⟩⟩
    let b : OffsetDateTime := ⟨⟨⟨2017, 1, 1⟩, ⟨0, 0⟩⟩, ⟨1⟩⟩
    a.Valid ∧ b.Valid ∧ a.format = "2017-01-01T00:00:01+00:00:01" ∧
      b.format = "2017-01-01T00:00:01+00:00:01" ∧ a.utc ≠ b.utc := by
  refine ⟨by decide, by decide, by decide +kernel, by decide +kernel, by decide⟩

end OffsetDateTime

end CivilTime
