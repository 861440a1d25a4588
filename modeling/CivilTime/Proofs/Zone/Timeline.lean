import CivilTime.Zone.Table

/-!
# Offsets through time

A zone starts with an offset and changes it at its transitions. Clocks that follow it
skip some local times and show others twice. Whoever knows the offsets before and after
the change near a local time knows how many moments have that local time, and which
they are, as long as transitions keep a distance from each other.
-/

namespace CivilTime.Zone

/-- By how much the clocks are changed. -/
def jump (before after : Int) : Int := max before after - min before after

/-- An offset is less than a day either way. -/
def InDay (offset : Int) : Prop := -secondsPerDay < offset ∧ offset < secondsPerDay

instance : DecidablePred InDay := fun _ => inferInstanceAs (Decidable (_ ∧ _))

/-- The first of the transitions comes, by its jump at least, after `start`. -/
def Starts (start before : Int) (trs : List Transition) : Prop :=
  ∀ tr ∈ trs.head?, start + jump before tr.offset ≤ tr.moment

instance (start before : Int) (trs : List Transition) : Decidable (Starts start before trs) :=
  inferInstanceAs (Decidable (∀ _ ∈ _, _))

/-- Offsets are less than a day, clocks are changed by a day at most, and a transition
is at least as far from the next as both change the clocks together. -/
def Regular : Int → List Transition → Prop
  | before, [] => InDay before
  | before, tr :: rest =>
    InDay before ∧ jump before tr.offset ≤ secondsPerDay ∧
      Starts (tr.moment + jump before tr.offset) tr.offset rest ∧ Regular tr.offset rest

instance decidableRegular : (before : Int) → (trs : List Transition) →
    Decidable (Regular before trs)
  | before, [] => inferInstanceAs (Decidable (InDay before))
  | _, tr :: rest =>
    have := decidableRegular tr.offset rest
    inferInstanceAs (Decidable (_ ∧ _ ∧ _ ∧ _))

/-- The offset after the first `k` transitions. -/
def offsetAfter : Int → List Transition → Nat → Int
  | before, _, 0 => before
  | before, [], _ + 1 => before
  | _, tr :: rest, k + 1 => offsetAfter tr.offset rest k

/-- The offset at `t` if the transitions take effect at given times: that after those
which do so up to then. -/
def offsetSince (before : Int) (trs : List Transition) (times : List Int) (t : Int) : Int :=
  offsetAfter before trs (times.countP (· ≤ t))

/-- The offset at a moment. -/
def offsetAtMoment (before : Int) (trs : List Transition) (u : Int) : Int :=
  offsetSince before trs (trs.map (·.moment)) u

/-- The offset that a clock showing `t` is taken to have, on a first or on a second
reading. -/
def offsetAtLocal (fold : Bool) (before : Int) (trs : List Transition) (t : Int) : Int :=
  offsetSince before trs (Table.localTimes fold before trs) t

/-- At the moment `u`, clocks show `t`. -/
def Shows (before : Int) (trs : List Transition) (u t : Int) : Prop :=
  u + offsetAtMoment before trs u = t

instance (before : Int) (trs : List Transition) (u t : Int) : Decidable (Shows before trs u t) :=
  inferInstanceAs (Decidable (_ = _))

variable {start before : Int} {tr : Transition} {trs rest : List Transition}

/-! ## Regular zones -/

theorem jump_nonneg (before after : Int) : 0 ≤ jump before after := by
  simp only [jump]
  omega

theorem Starts.mono {start' : Int} (h : Starts start before trs) (hle : start' ≤ start) :
    Starts start' before trs := by
  intro tr htr
  have := h tr htr
  omega

theorem exists_starts (before : Int) (trs : List Transition) :
    ∃ start, Starts start before trs := by
  cases trs with
  | nil => exact ⟨0, fun _ h => by simp at h⟩
  | cons tr rest =>
    refine ⟨tr.moment - jump before tr.offset, fun first hfirst => ?_⟩
    obtain rfl : tr = first := Option.some.inj hfirst
    omega

theorem Regular.inDay (h : Regular before trs) : InDay before := by
  cases trs with
  | nil => exact h
  | cons => exact h.1

theorem Regular.inDay_offsetAfter (h : Regular before trs) (k : Nat) :
    InDay (offsetAfter before trs k) := by
  induction trs generalizing before k with
  | nil => cases k <;> exact h
  | cons tr rest ih =>
    cases k with
    | zero => exact h.inDay
    | succ k => exact ih h.2.2.2 k

theorem Regular.start_le_moment (h : Regular before trs) (hs : Starts start before trs) :
    ∀ tr ∈ trs, start ≤ tr.moment := by
  induction trs generalizing before start with
  | nil => exact fun _ h => by simp at h
  | cons first rest ih =>
    obtain ⟨-, -, hnext, hrest⟩ := h
    have hfirst := hs first rfl
    have hpos := jump_nonneg before first.offset
    intro tr htr
    rcases List.mem_cons.mp htr with rfl | htr
    · omega
    · have := ih hrest hnext tr htr
      omega

/-- A transition takes effect after clocks have shown the time of the start. -/
theorem Regular.start_le_localTime (h : Regular before trs) (hs : Starts start before trs)
    (fold : Bool) : ∀ t ∈ Table.localTimes fold before trs, start + before ≤ t := by
  induction trs generalizing before start with
  | nil => exact fun _ h => by simp [Table.localTimes] at h
  | cons first rest ih =>
    obtain ⟨-, -, hnext, hrest⟩ := h
    have hfirst := hs first rfl
    intro t ht
    rcases List.mem_cons.mp ht with rfl | ht
    · simp only [jump] at hfirst
      split <;> omega
    · have := ih hrest hnext t ht
      simp only [jump] at hfirst this
      omega

/-- The local time at which a transition takes effect. -/
def localTime (fold : Bool) (before : Int) (tr : Transition) : Int :=
  tr.moment + if fold then min before tr.offset else max before tr.offset

theorem Regular.localTime_le (h : Regular before (tr :: rest)) (fold : Bool) :
    ∀ t ∈ Table.localTimes fold tr.offset rest, localTime fold before tr ≤ t := by
  obtain ⟨-, -, hnext, hrest⟩ := h
  intro t ht
  have := hrest.start_le_localTime hnext fold t ht
  simp only [localTime, jump] at this ⊢
  split <;> omega

theorem Regular.localTimes_pairwise (h : Regular before trs) (fold : Bool) :
    (Table.localTimes fold before trs).Pairwise (· ≤ ·) := by
  induction trs generalizing before with
  | nil => exact List.Pairwise.nil
  | cons tr rest ih => exact List.Pairwise.cons (h.localTime_le fold) (ih h.2.2.2)

/-! ## Offsets from one transition on -/

theorem offsetSince_of_lt {times : List Int} {t : Int} (h : ∀ s ∈ times, t < s) :
    offsetSince before trs times t = before := by
  have hnone : times.countP (· ≤ t) = 0 := by
    rw [List.countP_eq_zero]
    intro s hs
    have := h s hs
    rw [decide_eq_true_iff]
    omega
  rw [offsetSince, hnone, offsetAfter]

theorem offsetSince_cons {times : List Int} {s t : Int} (h : s ≤ t) :
    offsetSince before (tr :: rest) (s :: times) t = offsetSince tr.offset rest times t := by
  rw [offsetSince, List.countP_cons_of_pos (p := fun s : Int => decide (s ≤ t)) (decide_eq_true h),
    offsetAfter, offsetSince]

theorem offsetAtMoment_of_lt (h : Regular before trs) (hs : Starts start before trs) {u : Int}
    (hu : u < start) : offsetAtMoment before trs u = before := by
  refine offsetSince_of_lt fun s hmem => ?_
  obtain ⟨tr, htr, rfl⟩ := List.mem_map.mp hmem
  have := h.start_le_moment hs tr htr
  omega

theorem offsetAtLocal_of_lt (h : Regular before trs) (hs : Starts start before trs) (fold : Bool)
    {t : Int} (ht : t < start + before) : offsetAtLocal fold before trs t = before := by
  refine offsetSince_of_lt fun s hmem => ?_
  have := h.start_le_localTime hs fold s hmem
  omega

theorem offsetAtMoment_cons (h : Regular before (tr :: rest)) (u : Int) :
    offsetAtMoment before (tr :: rest) u =
      if tr.moment ≤ u then offsetAtMoment tr.offset rest u else before := by
  obtain ⟨-, -, hnext, hrest⟩ := h
  split
  case isTrue hu => exact offsetSince_cons hu
  case isFalse hu =>
    have hpos := jump_nonneg before tr.offset
    refine offsetSince_of_lt fun s hmem => ?_
    obtain ⟨next, hlisted, rfl⟩ := List.mem_map.mp hmem
    rcases List.mem_cons.mp hlisted with rfl | hlater
    · omega
    · have := hrest.start_le_moment hnext next hlater
      omega

theorem offsetAtLocal_cons (h : Regular before (tr :: rest)) (fold : Bool) (t : Int) :
    offsetAtLocal fold before (tr :: rest) t =
      if localTime fold before tr ≤ t then offsetAtLocal fold tr.offset rest t else before := by
  split
  case isTrue ht => exact offsetSince_cons ht
  case isFalse ht =>
    refine offsetSince_of_lt fun s hmem => ?_
    rcases List.mem_cons.mp hmem with rfl | hlater
    · exact Int.not_le.mp ht
    · have := h.localTime_le fold s hlater
      omega

/-- From a start on, clocks do not show what they showed before it. -/
theorem le_shown (h : Regular before trs) (hs : Starts start before trs) {u : Int}
    (hu : start ≤ u) : start + before ≤ u + offsetAtMoment before trs u := by
  induction trs generalizing before start with
  | nil =>
    change _ ≤ u + before
    omega
  | cons tr rest ih =>
    have hfirst := hs tr rfl
    rw [offsetAtMoment_cons h]
    obtain ⟨-, -, hnext, hrest⟩ := h
    have hpos := jump_nonneg before tr.offset
    split
    case isTrue hmoment =>
      have hshown := ih hrest (hnext.mono (by omega)) hmoment
      simp only [jump] at hfirst
      omega
    case isFalse => omega

/-! ## Readings -/

/-- What the offsets `first` and `second` for the two readings of a clock say about it.
If the second is not the greater, these are the offsets of all moments at which the
clock shows `t`. Otherwise there is no such moment, and each of the two is the offset
at the moment that the other leads to. -/
structure Reading (start before : Int) (trs : List Transition) (t first second : Int) : Prop where
  shows_iff : second ≤ first →
    ∀ u, Shows before trs u t ↔ u = t - first ∨ u = t - second
  not_shows : first < second → ∀ u, ¬Shows before trs u t
  offset_first : first < second → offsetAtMoment before trs (t - first) = second
  offset_second : first < second → offsetAtMoment before trs (t - second) = first
  start_le : first < second → start ≤ t - second
  jump_le : jump first second ≤ secondsPerDay

theorem shows_cons (h : Regular before (tr :: rest)) (u t : Int) :
    Shows before (tr :: rest) u t ↔
      tr.moment ≤ u ∧ Shows tr.offset rest u t ∨ u < tr.moment ∧ u + before = t := by
  rw [Shows, offsetAtMoment_cons h]
  split
  case isTrue hu => rw [or_iff_left (by omega), and_iff_right hu, Shows]
  case isFalse hu => rw [or_iff_right (fun h => hu h.1), and_iff_right (Int.not_le.mp hu)]

/-- Before a transition takes effect on either reading, it does not matter. -/
theorem reading_before (h : Regular before (tr :: rest)) {t : Int}
    (ht : t < localTime true before tr) : Reading start before (tr :: rest) t before before := by
  obtain ⟨-, -, hnext, hrest⟩ := id h
  have hpos := jump_nonneg before tr.offset
  simp only [localTime, if_true] at ht
  have hafter {u : Int} (hu : tr.moment ≤ u) : ¬Shows tr.offset rest u t := by
    have := le_shown hrest (hnext.mono (by omega)) hu
    rw [Shows]
    omega
  refine ⟨fun _ u => ?_, by omega, by omega, by omega, by omega, ?_⟩
  · rw [shows_cons h, or_iff_right (fun hlate => hafter hlate.1 hlate.2)]
    omega
  · simp only [jump, secondsPerDay]
    omega

/-- A transition that takes effect on the second reading, but not on the first one,
skips the local time or repeats it. -/
theorem reading_between (h : Regular before (tr :: rest)) (hs : Starts start before (tr :: rest))
    {t : Int} (hlo : localTime true before tr ≤ t) (hhi : t < localTime false before tr) :
    Reading start before (tr :: rest) t before tr.offset := by
  obtain ⟨-, hjump, hnext, hrest⟩ := id h
  have hfirst := hs tr rfl
  simp only [localTime, if_true, Bool.false_eq_true, if_false] at hlo hhi
  -- The next transition is too far away to matter.
  have hafter {u : Int} (hu : tr.moment ≤ u) : Shows tr.offset rest u t ↔ u + tr.offset = t := by
    rw [Shows]
    by_cases hnear : u < tr.moment + jump before tr.offset
    · rw [offsetAtMoment_of_lt hrest hnext hnear]
    · have := le_shown hrest hnext (Int.not_lt.mp hnear)
      simp only [jump] at hnear this
      omega
  have hshows (u : Int) : Shows before (tr :: rest) u t ↔
      tr.moment ≤ u ∧ u + tr.offset = t ∨ u < tr.moment ∧ u + before = t := by
    rw [shows_cons h, and_congr_right hafter]
  refine ⟨fun hle u => ?_, fun hlt u => ?_, fun hlt => ?_, fun hlt => ?_, fun hlt => ?_, hjump⟩
  · rw [hshows]
    omega
  · rw [hshows]
    omega
  · rw [offsetAtMoment_cons h, if_pos (by omega)]
    refine offsetAtMoment_of_lt hrest hnext ?_
    simp only [jump]
    omega
  · rw [offsetAtMoment_cons h, if_neg (by omega)]
  · simp only [jump] at hfirst
    omega

/-- After a transition has taken effect on both readings, only the later ones matter. -/
theorem reading_after (h : Regular before (tr :: rest)) (hs : Starts start before (tr :: rest))
    {t first second : Int} (ht : localTime false before tr ≤ t)
    (hr : Reading (tr.moment + jump before tr.offset) tr.offset rest t first second) :
    Reading start before (tr :: rest) t first second := by
  obtain ⟨-, -, hnext, hrest⟩ := id h
  have hpos := jump_nonneg before tr.offset
  have hfirst := hs tr rfl
  simp only [localTime, Bool.false_eq_true, if_false] at ht
  have hlate {u : Int} (hu : Shows tr.offset rest u t) : tr.moment ≤ u := by
    rw [Shows] at hu
    by_cases hnear : u < tr.moment + jump before tr.offset
    · rw [offsetAtMoment_of_lt hrest hnext hnear] at hu
      omega
    · omega
  have hshows (u : Int) : Shows before (tr :: rest) u t ↔ Shows tr.offset rest u t := by
    rw [shows_cons h, or_iff_left (by omega), and_iff_right_of_imp hlate]
  refine ⟨fun hle u => ?_, fun hlt u => ?_, fun hlt => ?_, fun hlt => ?_, fun hlt => ?_, hr.jump_le⟩
  · rw [hshows, hr.shows_iff hle]
  · rw [hshows]
    exact hr.not_shows hlt u
  · have := hr.start_le hlt
    rw [offsetAtMoment_cons h, if_pos (by omega), hr.offset_first hlt]
  · have := hr.start_le hlt
    rw [offsetAtMoment_cons h, if_pos (by omega), hr.offset_second hlt]
  · have := hr.start_le hlt
    omega

theorem reading (h : Regular before trs) (hs : Starts start before trs) (t : Int) :
    Reading start before trs t (offsetAtLocal false before trs t)
      (offsetAtLocal true before trs t) := by
  induction trs generalizing before start with
  | nil =>
    change Reading start before [] t before before
    refine ⟨fun _ u => ?_, by omega, by omega, by omega, by omega, ?_⟩
    · change u + before = t ↔ _
      omega
    · simp only [jump, secondsPerDay]
      omega
  | cons tr rest ih =>
    obtain ⟨-, -, hnext, hrest⟩ := id h
    have hle : localTime true before tr ≤ localTime false before tr := by
      simp only [localTime, if_true, Bool.false_eq_true, if_false]
      omega
    rw [offsetAtLocal_cons h, offsetAtLocal_cons h]
    by_cases hsecond : localTime true before tr ≤ t
    · rw [if_pos hsecond]
      by_cases hfirst : localTime false before tr ≤ t
      · rw [if_pos hfirst]
        exact reading_after h hs hfirst (ih hrest hnext)
      · have hnear : t < tr.moment + jump before tr.offset + tr.offset := by
          simp only [localTime, Bool.false_eq_true, if_false, jump] at hfirst ⊢
          omega
        rw [if_neg hfirst, offsetAtLocal_of_lt hrest hnext true hnear]
        exact reading_between h hs hsecond (Int.not_le.mp hfirst)
    · rw [if_neg hsecond, if_neg (fun hfirst => hsecond (Int.le_trans hle hfirst))]
      exact reading_before h (Int.not_le.mp hsecond)

end CivilTime.Zone
