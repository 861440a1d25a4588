import CivilTime.Proofs.Delta.Production
import CivilTime.Proofs.LocalDateTime.Validity

/-!
# To microseconds and back

Values with microseconds know fewer moments and shorter durations, no leap seconds and no negative
durations. What they know is converted and converted back to the very same value. The other way
round the nanoseconds are cut off to microseconds and a leap second becomes the second before it,
and nothing else is lost. A conversion fails exactly where there is no such value: for a delta that
is negative or too long, and for a year that is not among 1 to 9999.
-/

namespace CivilTime

/-! ## Deltas -/

namespace Delta

variable {d : Delta} {m : Micro.Delta}

/-- The whole seconds of the longest durations with microseconds. -/
def maxMicroSeconds : Int := 999999999 * 86400 + 86399

/-- The delta has a duration with microseconds: it is not negative and not too long. -/
def HasMicro (d : Delta) : Prop := zero ≤ d ∧ d.wholeSeconds ≤ maxMicroSeconds

theorem hasMicro_iff (hd : d.Canonical) :
    d.HasMicro ↔ ¬(d.secs < 0 ∨ maxMicroDays < d.secs / secondsPerDay) := by
  have hzero : zero ≤ d ↔ 0 < d.secs ∨ 0 = d.secs ∧ 0 ≤ d.nanos := Iff.rfl
  rw [HasMicro, hzero]
  simp only [wholeSeconds, maxMicroSeconds, maxMicroDays, Canonical, secondsPerDay] at *
  split <;> omega

theorem toMicro_of_hasMicro (hd : d.Canonical) (h : d.HasMicro) :
    d.toMicro = .ok ⟨d.secs / secondsPerDay, d.secs % secondsPerDay, d.nanos / 1000⟩ :=
  if_neg ((hasMicro_iff hd).mp h)

theorem toMicro_of_not_hasMicro (hd : d.Canonical) (h : ¬d.HasMicro) :
    d.toMicro = .error (.outOfRange .deltaConversion) :=
  if_pos (not_not.mp (mt (hasMicro_iff hd).mpr h))

theorem ofMicro_of_inRange (hm : m.InRange) (hdays : 0 ≤ m.days ∧ m.days ≤ maxMicroDays) :
    ofMicro m = .ok ⟨m.days * secondsPerDay + m.secs, m.micros * 1000⟩ := by
  obtain ⟨d, hd, -⟩ := exists_ofMicro hm hdays
  have hcheck := hd
  rw [ofMicro, if_neg (Int.not_lt.mpr hdays.1), orExceeds_eq_ok, check?_eq_some_iff] at hcheck
  rw [hd, hcheck.2]

/-- A duration with microseconds survives the way through a delta. -/
theorem toMicro_ofMicro (hm : m.InRange) (hdays : 0 ≤ m.days ∧ m.days ≤ maxMicroDays) :
    ∃ d, ofMicro m = .ok d ∧ d.toMicro = .ok m := by
  refine ⟨_, ofMicro_of_inRange hm hdays, ?_⟩
  obtain ⟨hsecs, -⟩ := hm
  simp only [maxMicroDays, secondsPerDay] at hdays hsecs
  rw [toMicro, if_neg (by simp only [maxMicroDays, secondsPerDay]; omega)]
  have hfields : (m.days * secondsPerDay + m.secs) / secondsPerDay = m.days ∧
      (m.days * secondsPerDay + m.secs) % secondsPerDay = m.secs ∧
      m.micros * 1000 / 1000 = m.micros := by
    simp only [secondsPerDay]
    omega
  rw [hfields.1, hfields.2.1, hfields.2.2]

/-- The nanoseconds of a delta are rounded down to whole microseconds on the way and back. -/
theorem ofMicro_toMicro (hd : d.Canonical) (h : d.HasMicro) :
    ∃ m, d.toMicro = .ok m ∧ m.InRange ∧ ofMicro m = .ok ⟨d.secs, d.nanos / 1000 * 1000⟩ := by
  have hto := toMicro_of_hasMicro hd h
  have hm := gives_toMicro hd _ hto
  have hsmall := (hasMicro_iff hd).mp h
  refine ⟨_, hto, hm, ?_⟩
  rw [ofMicro_of_inRange hm (by simp only [secondsPerDay] at *; omega), Int.ediv_mul_add_emod]

end Delta

/-! ## Times of day -/

namespace TimeOfDay

variable {t : TimeOfDay} {m : Micro.Time}

theorem ofMicro_of_naive (hnaive : m.offset = none) :
    ofMicro m = .ok ⟨m.hour * 3600 + m.minute * 60 + m.second, m.micro * 1000⟩ := by
  rw [ofMicro, hnaive]
  rfl

/-- A time with microseconds survives the way through a time of day. -/
theorem toMicro_ofMicro (hm : m.InRange) (hnaive : m.offset = none) :
    ∃ t, ofMicro m = .ok t ∧ t.toMicro = .ok m := by
  have hof := ofMicro_of_naive hnaive
  refine ⟨_, hof, ?_⟩
  rw [toMicro_of_onClock (gives_ofMicro hm _ hof).onClock]
  obtain ⟨hour, minute, second, micro, offset⟩ := m
  obtain rfl : offset = none := hnaive
  simp only [Micro.Time.InRange] at hm
  simp only [TimeOfDay.hour, TimeOfDay.minute, TimeOfDay.second, nanosPerSecond,
    Except.ok.injEq, Micro.Time.mk.injEq, and_true]
  omega

/-- On the way and back the nanoseconds are cut off, and a leap second is left. -/
theorem ofMicro_toMicro (ht : t.OnClock) :
    ∃ m, t.toMicro = .ok m ∧ (m.InRange ∧ m.offset = none) ∧
      ofMicro m = .ok ⟨t.secs, t.frac % nanosPerSecond / 1000 * 1000⟩ := by
  have hto := toMicro_of_onClock ht
  refine ⟨_, hto, ⟨gives_toMicro t _ hto none, rfl⟩, ?_⟩
  have hsecs : t.hour * 3600 + t.minute * 60 + t.second = t.secs := by
    simp only [TimeOfDay.hour, TimeOfDay.minute, TimeOfDay.second]
    omega
  rw [ofMicro_of_naive rfl, hsecs]

end TimeOfDay

/-! ## Datetimes -/

namespace LocalDateTime

variable {t : LocalDateTime} {m : Micro.DateTime}

theorem ofMicro_of_naive {time : TimeOfDay} (hnaive : m.time.offset = none)
    (htime : TimeOfDay.ofMicro m.time = .ok time) : ofMicro m = .ok ⟨Date.ofMicro m.date, time⟩ := by
  rw [ofMicro, hnaive, htime]
  rfl

/-- A datetime with microseconds survives the way through a local datetime. -/
theorem toMicro_ofMicro (hdate : m.date.InRange) (htime : m.time.InRange)
    (hnaive : m.time.offset = none) : ∃ t, ofMicro m = .ok t ∧ t.toMicro = .ok m := by
  obtain ⟨time, hof, hto⟩ := TimeOfDay.toMicro_ofMicro htime hnaive
  refine ⟨_, ofMicro_of_naive hnaive hof, ?_⟩
  have hday : (Date.ofMicro m.date).toMicro = .ok m.date :=
    Date.toMicro_of_isReal hdate.2 hdate.1
  rw [toMicro, hday, hto]
  rfl

/-- On the way and back the date is kept, the nanoseconds are cut off, and a leap second is
left. -/
theorem ofMicro_toMicro (hdate : t.date.IsReal) (htime : t.time.OnClock)
    (hyear : 1 ≤ t.date.year ∧ t.date.year ≤ 9999) :
    ∃ m, t.toMicro = .ok m ∧ (m.date.InRange ∧ m.time.InRange ∧ m.time.offset = none) ∧
      ofMicro m = .ok ⟨t.date, ⟨t.time.secs, t.time.frac % nanosPerSecond / 1000 * 1000⟩⟩ := by
  obtain ⟨time, hto, ⟨hin, hnaive⟩, hof⟩ := TimeOfDay.ofMicro_toMicro htime
  refine ⟨⟨⟨t.date.year, t.date.month, t.date.day⟩, time⟩, ?_, ⟨⟨hyear, hdate⟩, hin, hnaive⟩,
    ofMicro_of_naive hnaive hof⟩
  rw [toMicro, Date.toMicro_of_isReal hdate hyear, hto]
  rfl

theorem toMicro_of_year (hyear : ¬(1 ≤ t.date.year ∧ t.date.year ≤ 9999)) :
    t.toMicro = .error (.outOfRange .dateConversion) := by
  rw [toMicro, Date.toMicro, if_neg hyear]
  rfl

end LocalDateTime

namespace Value

/-- Durations with microseconds that are not negative and datetimes with microseconds and without
an offset are converted and come back as they were. A delta is converted exactly if it is not
negative and its whole seconds are not too many, and a local datetime exactly if its year is known.
They come back with the nanoseconds cut off to microseconds, and with a leap second folded. -/
theorem micro_conversions_inverse :
    (∀ m : Micro.Delta, m.InRange → 0 ≤ m.days ∧ m.days ≤ Delta.maxMicroDays →
      ∃ d, DeltaOp.ofMicro.eval [microDelta m] = .ok (delta d) ∧
        DeltaOp.toMicro.eval [delta d] = .ok (microDelta m)) ∧
    (∀ d : Delta, d.InRange →
      (Delta.zero ≤ d ∧ d.wholeSeconds ≤ 999999999 * 86400 + 86399 →
        ∃ m, DeltaOp.toMicro.eval [delta d] = .ok (microDelta m) ∧
          DeltaOp.ofMicro.eval [microDelta m] = .ok (delta ⟨d.secs, d.nanos / 1000 * 1000⟩)) ∧
      (¬(Delta.zero ≤ d ∧ d.wholeSeconds ≤ 999999999 * 86400 + 86399) →
        DeltaOp.toMicro.eval [delta d] = .error (.outOfRange .deltaConversion))) ∧
    (∀ m : Micro.DateTime, m.date.InRange → m.time.InRange → m.time.offset = none →
      ∃ t, LocalOp.ofMicro.eval [microDateTime m] = .ok (localDateTime t) ∧
        LocalOp.toMicro.eval [localDateTime t] = .ok (microDateTime m)) ∧
    ∀ t : LocalDateTime, t.date.IsReal → t.time.OnClock →
      (1 ≤ t.date.year ∧ t.date.year ≤ 9999 →
        ∃ m, LocalOp.toMicro.eval [localDateTime t] = .ok (microDateTime m) ∧
          LocalOp.ofMicro.eval [microDateTime m] = .ok (localDateTime
            ⟨t.date, ⟨t.time.secs, t.time.frac % nanosPerSecond / 1000 * 1000⟩⟩)) ∧
      (¬(1 ≤ t.date.year ∧ t.date.year ≤ 9999) →
        LocalOp.toMicro.eval [localDateTime t] = .error (.outOfRange .dateConversion)) := by
  refine ⟨fun m hm hdays => ?_, fun d hd => ⟨fun h => ?_, fun h => ?_⟩,
    fun m hdate htime hnaive => ?_, fun t hdate htime => ⟨fun hyear => ?_, fun hyear => ?_⟩⟩
  · obtain ⟨d, hof, hto⟩ := Delta.toMicro_ofMicro hm hdays
    exact ⟨d, congrArg (delta <$> ·) hof, congrArg (microDelta <$> ·) hto⟩
  · obtain ⟨m, hto, -, hof⟩ := Delta.ofMicro_toMicro hd.1 h
    exact ⟨m, congrArg (microDelta <$> ·) hto, congrArg (delta <$> ·) hof⟩
  · exact congrArg (microDelta <$> ·) (Delta.toMicro_of_not_hasMicro hd.1 h)
  · obtain ⟨t, hof, hto⟩ := LocalDateTime.toMicro_ofMicro hdate htime hnaive
    exact ⟨t, congrArg (localDateTime <$> ·) hof, congrArg (microDateTime <$> ·) hto⟩
  · obtain ⟨m, hto, -, hof⟩ := LocalDateTime.ofMicro_toMicro hdate htime hyear
    exact ⟨m, congrArg (microDateTime <$> ·) hto, congrArg (localDateTime <$> ·) hof⟩
  · exact congrArg (microDateTime <$> ·) (LocalDateTime.toMicro_of_year hyear)

/-- The longest duration, a nanosecond below zero, the last nanosecond of a leap second at the end
of the year 9999, and the day after it. -/
theorem micro_conversions_inverse_at_ends :
    let longest : Micro.Delta := ⟨999999999, 86399, 999999⟩
    let last : LocalDateTime := ⟨⟨9999, 12, 31⟩, ⟨86399, 1999999999⟩⟩
    (∃ d, DeltaOp.ofMicro.eval [microDelta longest] = .ok (delta d) ∧
      DeltaOp.toMicro.eval [delta d] = .ok (microDelta longest)) ∧
    DeltaOp.toMicro.eval [delta ⟨-1, 999999999⟩] = .error (.outOfRange .deltaConversion) ∧
    (∃ m, LocalOp.toMicro.eval [localDateTime last] = .ok (microDateTime m) ∧
      LocalOp.ofMicro.eval [microDateTime m] =
        .ok (localDateTime ⟨⟨9999, 12, 31⟩, ⟨86399, 999999000⟩⟩)) ∧
    LocalOp.toMicro.eval [localDateTime ⟨⟨10000, 1, 1⟩, TimeOfDay.midnight⟩] =
      .error (.outOfRange .dateConversion) := by
  intro longest last
  obtain ⟨hlong, hdelta, -, hlocal⟩ := micro_conversions_inverse
  exact ⟨hlong longest ⟨⟨by decide, by decide⟩, by decide, by decide⟩ (by decide),
    (hdelta ⟨-1, 999999999⟩ (by decide)).2 (by decide),
    (hlocal last (by decide) (by decide)).1 (by decide),
    (hlocal ⟨⟨10000, 1, 1⟩, TimeOfDay.midnight⟩ (by decide) (by decide)).2 (by decide)⟩

end Value

end CivilTime
