import CivilTime.Proofs.LocalDateTime.Difference

/-!
# Adding a delta to a datetime

Outside of leap seconds, adding and subtracting a delta is addition and subtraction of
nanoseconds on one line that reaches from the start of the first day to the end of the
last. A sum is missing exactly if it lies beyond one of these ends, and the difference
to a sum is the delta that was added.
-/

namespace CivilTime.LocalDateTime

variable {d e : LocalDateTime} {x : Delta}

/-- The last nanosecond of the supported range outside of leap seconds. -/
def lastPlain : LocalDateTime := ⟨Date.max, ⟨86399, 999999999⟩⟩

theorem total_min_le_iff (h : d.time.Plain) :
    min.total ≤ d.total ↔ Date.min.dayNumber ≤ d.date.dayNumber := by
  have hbounds := h.total_bounds
  rw [total_eq, total_eq]
  change _ + 0 ≤ _ ↔ _
  simp only [min, TimeOfDay.nanosPerDay, secondsPerDay, nanosPerSecond] at *
  omega

theorem total_le_lastPlain_iff (h : d.time.Plain) :
    d.total ≤ lastPlain.total ↔ d.date.dayNumber ≤ Date.max.dayNumber := by
  have hbounds := h.total_bounds
  rw [total_eq, total_eq]
  change _ ≤ _ + 86399999999999 ↔ _
  simp only [lastPlain, TimeOfDay.nanosPerDay, secondsPerDay, nanosPerSecond] at *
  omega

/-- Outside of leap seconds the number of nanoseconds tells everything. -/
theorem eq_of_total_eq (hd : d.date.IsReal) (he : e.date.IsReal) (hdt : d.time.Plain)
    (het : e.time.Plain) (h : d.total = e.total) : d = e := by
  rw [total_eq, total_eq] at h
  have hdb := hdt.total_bounds
  have heb := het.total_bounds
  simp only [TimeOfDay.nanosPerDay, secondsPerDay, nanosPerSecond] at *
  have hdate : d.date = e.date := Date.eq_of_dayNumber_eq hd he (by omega)
  have htime : d.time = e.time := hdt.eq_of_total_eq het (by omega)
  calc d = ⟨d.date, d.time⟩ := rfl
    _ = e := by rw [hdate, htime]

/-- The date of a sum is reached by the days that the time does not take. -/
theorem addDelta?_of_lands {n : Int} (h : TimeOfDay.Lands (d.time.addDelta x) n) :
    ∃ u days, d.addDelta? x = (d.date.addDays? days).map (fun date => ⟨date, u⟩) ∧ u.Plain ∧
      u.total + days * TimeOfDay.nanosPerDay = n := by
  obtain ⟨u, days, hsum, hplain, htotal⟩ := h
  refine ⟨u, days, ?_, hplain, htotal⟩
  have hdays : days * secondsPerDay / secondsPerDay = days := Int.mul_ediv_cancel _ (by decide)
  simp only [addDelta?, hsum, hdays]

/-- A sum outside of leap seconds is in range and has the number that was added up. -/
theorem total_of_lands {n : Int} (hd : d.date.InRange)
    (hlands : TimeOfDay.Lands (d.time.addDelta x) n) (h : d.addDelta? x = some e) :
    e.date.InRange ∧ e.time.Plain ∧ e.total = d.total - d.time.total + n := by
  obtain ⟨u, days, hsum, hplain, htotal⟩ := addDelta?_of_lands hlands
  rw [hsum, Option.map_eq_some_iff] at h
  obtain ⟨date, hdate, rfl⟩ := h
  obtain ⟨hin, hnumber⟩ := (Date.addDays?_eq_some_iff hd).mp hdate
  refine ⟨hin, hplain, ?_⟩
  rw [total_eq, total_eq, hnumber]
  simp only [TimeOfDay.nanosPerDay, secondsPerDay, nanosPerSecond] at *
  omega

/-- Subtracting a delta is adding the negated one. -/
theorem subDelta?_eq (d : LocalDateTime) (x : Delta) : d.subDelta? x = d.addDelta? (-x) := by
  have hwhole := TimeOfDay.addDelta_snd_dvd d.time (-x)
  have hdays : -(-(d.time.addDelta (-x)).2 / secondsPerDay) =
      (d.time.addDelta (-x)).2 / secondsPerDay := by
    simp only [secondsPerDay] at *
    omega
  simp only [subDelta?, addDelta?, TimeOfDay.subDelta, hdays]

theorem addDelta?_eq_some_iff (hd : d.date.InRange) (ht : d.time.Plain) (hx : x.Canonical) :
    d.addDelta? x = some e ↔
      (e.date.InRange ∧ e.time.Plain) ∧ e.total = d.total + x.total := by
  have hlands := TimeOfDay.addDelta_of_plain ht hx
  constructor
  · intro h
    obtain ⟨hin, hplain, htotal⟩ := total_of_lands hd hlands h
    exact ⟨⟨hin, hplain⟩, by omega⟩
  · rintro ⟨⟨hin, het⟩, hnumber⟩
    obtain ⟨u, days, hsum, hplain, htotal⟩ := addDelta?_of_lands hlands
    rw [hsum, Option.map_eq_some_iff]
    have hub := hplain.total_bounds
    have heb := het.total_bounds
    rw [total_eq, total_eq] at hnumber
    simp only [TimeOfDay.nanosPerDay, secondsPerDay, nanosPerSecond] at *
    have htime : u = e.time := hplain.eq_of_total_eq het (by omega)
    refine ⟨e.date, (Date.addDays?_eq_some_iff hd).mpr ⟨hin, by omega⟩, ?_⟩
    rw [htime]

theorem addDelta?_eq_none_iff (hd : d.date.InRange) (ht : d.time.Plain) (hx : x.Canonical) :
    d.addDelta? x = none ↔
      ¬(min.total ≤ d.total + x.total ∧ d.total + x.total ≤ lastPlain.total) := by
  obtain ⟨u, days, hsum, hplain, htotal⟩ := addDelta?_of_lands (TimeOfDay.addDelta_of_plain ht hx)
  let target : LocalDateTime := ⟨Date.ofDayNumber (d.date.dayNumber + days), u⟩
  have hnumber : target.date.dayNumber = d.date.dayNumber + days := Date.dayNumber_ofDayNumber _
  have htarget : target.total = d.total + x.total := by
    rw [total_eq, total_eq, hnumber]
    change _ + u.total = _
    simp only [TimeOfDay.nanosPerDay, secondsPerDay, nanosPerSecond] at *
    omega
  rw [hsum, Option.map_eq_none_iff, Date.addDays?_eq_none_iff hd, ← htarget,
    total_min_le_iff (d := target) hplain, total_le_lastPlain_iff (d := target) hplain, hnumber]

/-- Adding and subtracting a delta are exact: they give the datetime with the sum or
the difference of the nanoseconds, and fail exactly if there is none in the supported
range. The difference to a sum is the delta, and subtracting it leads back. -/
theorem addDelta?_exact (hd : d.Valid) (hplain : ¬d.time.InLeapSecond) (hx : x.Canonical) :
    (∀ e, d.addDelta? x = some e ↔
      (e.Valid ∧ ¬e.time.InLeapSecond) ∧ e.total = d.total + x.total) ∧
    (d.addDelta? x = none ↔
      ¬(min.total ≤ d.total + x.total ∧ d.total + x.total ≤ lastPlain.total)) ∧
    (∀ e, d.subDelta? x = some e ↔
      (e.Valid ∧ ¬e.time.InLeapSecond) ∧ e.total = d.total - x.total) ∧
    (d.subDelta? x = none ↔
      ¬(min.total ≤ d.total - x.total ∧ d.total - x.total ≤ lastPlain.total)) ∧
    (∀ e, d.addDelta? x = some e → e.since? d = some x ∧ e.subDelta? x = some d) := by
  obtain ⟨hdate, htime⟩ := hd
  have ht : d.time.Plain := TimeOfDay.plain_iff.mpr ⟨htime, hplain⟩
  have hneg := Delta.canonical_neg hx
  have hvalid (e : LocalDateTime) :
      e.date.InRange ∧ e.time.Plain ↔ e.Valid ∧ ¬e.time.InLeapSecond := by
    rw [Valid, and_assoc, TimeOfDay.plain_iff]
  have hminus : d.total + (-x).total = d.total - x.total := by
    rw [Delta.total_neg]
    omega
  refine ⟨fun e => ?_, addDelta?_eq_none_iff hdate ht hx, fun e => ?_, ?_, fun e he => ?_⟩
  · rw [addDelta?_eq_some_iff hdate ht hx, hvalid]
  · rw [subDelta?_eq, addDelta?_eq_some_iff hdate ht hneg, hvalid, hminus]
  · rw [subDelta?_eq, addDelta?_eq_none_iff hdate ht hneg, hminus]
  · obtain ⟨⟨hin, het⟩, htotal⟩ := (addDelta?_eq_some_iff hdate ht hx).mp he
    constructor
    · obtain ⟨y, hsince, hcanonical, hy⟩ :=
        exists_since? hin.nearRange hdate.nearRange het.onClock ht.onClock
      rw [TimeOfDay.leapBetween_of_plain het ht] at hy
      rw [hsince, Delta.eq_of_total_eq hcanonical hx (by omega)]
    · rw [subDelta?_eq, addDelta?_eq_some_iff hin het hneg]
      refine ⟨⟨hdate, ht⟩, ?_⟩
      rw [htotal, Delta.total_neg]
      omega

/-- 365 days and almost a second from the end of a day on, across a leap day. -/
theorem addDelta?_exact_leap_day :
    let d : LocalDateTime := ⟨⟨2024, 2, 28⟩, ⟨86399, 5⟩⟩
    let e : LocalDateTime := ⟨⟨2025, 2, 28⟩, ⟨0, 4⟩⟩
    let x : Delta := ⟨31536000, 999999999⟩
    d.addDelta? x = some e ∧ e.since? d = some x ∧ e.subDelta? x = some d := by
  obtain ⟨hsome, -, -, -, hback⟩ := addDelta?_exact (d := ⟨⟨2024, 2, 28⟩, ⟨86399, 5⟩⟩)
    (x := ⟨31536000, 999999999⟩) (by decide) (by decide) (by decide)
  have hsum := (hsome ⟨⟨2025, 2, 28⟩, ⟨0, 4⟩⟩).mpr ⟨by decide, by decide⟩
  exact ⟨hsum, hback _ hsum⟩

end CivilTime.LocalDateTime
