import CivilTime.Proofs.Calculator.Packing
import CivilTime.Proofs.LocalDateTime.RoundTrip
import CivilTime.Proofs.OffsetDateTime.Local

/-!
# Local datetimes that are stored

The local datetime of a moment is made without a check, so that its date can be the day before
or after the supported range. The packed forms of datetimes and times of day are taken as they
are, but that of a date and all texts are checked when they are read, and there such a date is
refused.
-/

namespace CivilTime

namespace LocalDateTime

/-- A datetime and its parts are given back by the packed form and by the text of each. -/
structure Storable (l : LocalDateTime) : Prop where
  repack : (Value.localDateTime l).repack = .ok (.localDateTime l)
  repack_date : (Value.date l.date).repack = .ok (.date l.date)
  repack_time : (Value.time l.time).repack = .ok (.time l.time)
  parse : LocalDateTime.parse l.format = .ok l
  parse_date : Date.parse l.date.format = .ok l.date
  parse_time : TimeOfDay.parse l.time.format = .ok l.time

end LocalDateTime

theorem Date.Showable.natAbs_lt {d : Date} (h : d.Showable) : d.year.natAbs < 10 ^ 6 := by
  have := h.year_bounds
  simp only [minYear, maxYear] at this
  omega

theorem Date.Showable.fitsWords {d : Date} (h : d.Showable) : d.FitsWords := by
  refine h.isReal.fitsWords ?_
  have := h.year_bounds
  simp only [minYear, maxYear, Bytes.HoldsSigned, Bytes.wordSize] at *
  omega

namespace OffsetDateTime

variable {t : OffsetDateTime}

/-- What a moment shows as its local datetime and the time of it is given back by their packed
forms. With a date of the supported range the date is given back by both of its forms, and with
the day before or after it every form that checks the date refuses it. The texts are read back
if the offset leaves a leap second at the end of its minute. -/
theorem localDateTime_storage (h : t.Valid) :
    let l := t.localDateTime
    ((Value.localDateTime l).repack = .ok (.localDateTime l) ∧
      (Value.time l.time).repack = .ok (.time l.time)) ∧
    (l.date.InRange →
      (Value.date l.date).repack = .ok (.date l.date) ∧ Date.parse l.date.format = .ok l.date) ∧
    (¬l.date.InRange →
      (l.date = Date.beforeMin ∨ l.date = Date.afterMax) ∧
      (Value.date l.date).repack = .error (.outOfRange .year) ∧
      Date.parse l.date.format = .error (.badText l.date.format) ∧
      LocalDateTime.parse l.format = .error (.badText l.format)) ∧
    (t.utc.time.KeepsSecond t.offset.secs →
      TimeOfDay.parse l.time.format = .ok l.time ∧
      (l.date.InRange → LocalDateTime.parse l.format = .ok l)) := by
  intro l
  have hdate : l.date.Showable := h.showable_localDateTime
  have htime : l.time.OnClock := h.onClock_localDateTime
  refine ⟨⟨?_, Value.repack_time htime.fitsWords⟩, fun hin => ⟨?_, Date.parse_format hin⟩,
    fun hout => ?_, fun hkeeps => ?_⟩
  · exact Value.repack_localDateTime ⟨hdate.fitsWords, htime.fitsWords⟩
  · exact Value.Constructible.repack (v := .date l.date) hin
  · have hyear : ¬l.date.YearInRange := fun hyear => hout ⟨hyear, hdate.isReal⟩
    refine ⟨hdate.resolve_left hout, ?_,
      Date.parse_format_of_not_yearInRange hdate.isReal hdate.natAbs_lt hyear,
      LocalDateTime.parse_format_of_not_yearInRange hdate.isReal hdate.natAbs_lt htime hyear⟩
    rw [Value.repack_date hdate.fitsWords, Date.new?_of_not_yearInRange hyear]
    rfl
  · have hvalid : l.time.Valid := h.valid_localDateTime_time_iff.mpr hkeeps
    exact ⟨TimeOfDay.parse_format hvalid, fun hin => LocalDateTime.parse_format ⟨hin, hvalid⟩⟩

/-- In the last hour of all, seen from a place that is ahead, the date is the day after the
supported range. The datetime is packed and unpacked, the date is not. -/
theorem localDateTime_storage_after_max :
    let t : OffsetDateTime := ⟨⟨Date.max, ⟨82800, 0⟩⟩, ⟨3600⟩⟩
    let l := t.localDateTime
    t.Valid ∧ l = ⟨Date.afterMax, ⟨0, 0⟩⟩ ∧
      (Value.localDateTime l).repack = .ok (.localDateTime l) ∧
      (Value.date l.date).repack = .error (.outOfRange .year) := by
  intro t l
  have hvalid : t.Valid := by decide
  have hlocal : l = ⟨Date.afterMax, ⟨0, 0⟩⟩ := by decide
  obtain ⟨⟨hrepack, -⟩, -, hout, -⟩ := localDateTime_storage hvalid
  exact ⟨hvalid, hlocal, hrepack, (hout (by decide)).2.1⟩

/-- So not all that is shown can be stored again. -/
theorem not_storable_after_max :
    Valid ⟨⟨Date.max, ⟨82800, 0⟩⟩, ⟨3600⟩⟩ ∧
      ¬(localDateTime ⟨⟨Date.max, ⟨82800, 0⟩⟩, ⟨3600⟩⟩).Storable := by
  have hlocal : localDateTime ⟨⟨Date.max, ⟨82800, 0⟩⟩, ⟨3600⟩⟩ = ⟨Date.afterMax, ⟨0, 0⟩⟩ := by
    decide
  have hrefused : (Value.date Date.afterMax).repack = .error (.outOfRange .year) := by rfl
  refine ⟨by decide, fun h => ?_⟩
  rw [hlocal] at h
  exact absurd (hrefused.symm.trans h.repack_date) nofun

end OffsetDateTime

end CivilTime
