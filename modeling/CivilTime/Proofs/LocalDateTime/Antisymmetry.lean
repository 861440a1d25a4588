import CivilTime.Proofs.Delta.Production

/-!
# Differences of datetimes the other way round

Any two datetimes have a difference, also at the days right outside of the calendar and in leap
seconds, since the whole line of nanoseconds between those days fits into a delta either way. Taken
the other way round it is negated: the numbers of nanoseconds change places, and the leap second
that is counted on top of them changes its sign.
-/

namespace CivilTime

namespace LocalDateTime

variable {a b : LocalDateTime}

theorem exists_since?_swap (ha : a.date.NearRange) (hb : b.date.NearRange) (hat : a.time.OnClock)
    (hbt : b.time.OnClock) :
    ∃ d, (a.since? b = some d ∧ b.since? a = some (-d)) ∧ d.InRange ∧
      d.total = a.total - b.total + a.time.leapBetween b.time * nanosPerSecond := by
  obtain ⟨d, hd, hcanonical, htotal⟩ := exists_since? ha hb hat hbt
  obtain ⟨e, he, hcanonical', htotal'⟩ := exists_since? hb ha hbt hat
  obtain ⟨d', hd', hrange⟩ := exists_since?_inRange ha hb hat hbt
  obtain rfl : d' = d := Option.some.inj (hd'.symm.trans hd)
  have hneg : e = -d' := by
    refine Delta.eq_of_total_eq hcanonical' (Delta.canonical_neg hcanonical) ?_
    rw [Delta.total_neg, htotal, htotal', TimeOfDay.leapBetween_swap]
    simp only [nanosPerSecond]
    omega
  exact ⟨d', ⟨hd, hneg ▸ he⟩, hrange, htotal⟩

end LocalDateTime

namespace Value

variable {a b : LocalDateTime}

/-- The difference of two datetimes never fails, and neither does that of two moments, which is the
one between their universal times. It is in range, and it is that of the numbers of nanoseconds,
with the leap second that the times of day have between them. The other way round it is the same
delta, negated. Dates right outside of the calendar and leap seconds make no exception. -/
theorem sub_localDateTimes_antisymm (ha : a.date.Showable) (hb : b.date.Showable)
    (hat : a.time.OnClock) (hbt : b.time.OnClock) :
    ∃ d, (LocalOp.since.eval [localDateTime a, localDateTime b] = .ok (delta d) ∧
        LocalOp.since.eval [localDateTime b, localDateTime a] = .ok (delta (-d))) ∧
      (sub (localDateTime a) (localDateTime b) = .ok (delta d) ∧
        sub (localDateTime b) (localDateTime a) = .ok (delta (-d))) ∧
      (∀ o o', sub (offsetDateTime ⟨a, o⟩) (offsetDateTime ⟨b, o'⟩) = .ok (delta d) ∧
        sub (offsetDateTime ⟨b, o'⟩) (offsetDateTime ⟨a, o⟩) = .ok (delta (-d))) ∧
      d.InRange ∧ d.total = a.total - b.total + a.time.leapBetween b.time * nanosPerSecond := by
  obtain ⟨d, ⟨hd, hswap⟩, hdelta⟩ :=
    LocalDateTime.exists_since?_swap ha.nearRange hb.nearRange hat hbt
  have hthere := between_of_isReal ha.isReal hb.isReal hd
  have hback := between_of_isReal hb.isReal ha.isReal hswap
  exact ⟨d, ⟨hthere, hback⟩, ⟨hthere, hback⟩, fun _ _ => ⟨hthere, hback⟩, hdelta⟩

/-- From one end to the other: the day before the calendar and a leap second on the day after it. -/
theorem sub_localDateTimes_antisymm_at_ends :
    let first : LocalDateTime := ⟨Date.beforeMin, ⟨0, 0⟩⟩
    let last : LocalDateTime := ⟨Date.afterMax, ⟨86399, 1999999999⟩⟩
    ∃ d, sub (localDateTime first) (localDateTime last) = .ok (delta d) ∧
      sub (localDateTime last) (localDateTime first) = .ok (delta (-d)) ∧
      (-d).total = 16544868278400999999999 := by
  intro first last
  obtain ⟨d, -, ⟨hthere, hback⟩, -, -, htotal⟩ := sub_localDateTimes_antisymm (a := first)
    (b := last) (.inr (.inl rfl)) (.inr (.inr rfl)) (by decide) (by decide)
  refine ⟨d, hthere, hback, ?_⟩
  rw [Delta.total_neg, htotal]
  decide

end Value

end CivilTime
