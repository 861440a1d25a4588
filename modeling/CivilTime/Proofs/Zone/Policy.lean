import CivilTime.Proofs.Zone.Resolve

/-!
# Policies on the line of seconds

For two offsets, whatever zone they come from, a policy says by how many seconds a local
time is moved and which offset it is taken with. A skipped time is moved by as much as the
clock jumps, which is less than two days. It gets there if that is on the day before, the
day itself or the day after; else the days of the carry are lost.
-/

namespace CivilTime.LocalDateTime

open Zone

variable {t : LocalDateTime} {z : Table} {key : String} {policy : Policy}
  {before after offset shift : Int}

/-! ## Where a policy leads -/

/-- The policy accepts the local time. In universal time that is the local time moved by
`utc` seconds, and with the given offset it is the local time moved by `moved` seconds. -/
def TakenAs (t : LocalDateTime) (z : Table) (key : String) (policy : Policy)
    (utc offset moved : Int) : Prop :=
  ∃ r, t.inZone (some policy) z key = .ok r ∧ r.utc.IsShiftOf t utc ∧ r.offset.secs = offset ∧
    r.localDateTime.IsShiftOf t moved

/-- The policy leads to one place only. -/
theorem TakenAs.moved_eq {utc utc' offset' moved moved' : Int}
    (h : TakenAs t z key policy utc offset moved)
    (h' : TakenAs t z key policy utc' offset' moved') : moved = moved' := by
  obtain ⟨r, hr, -, -, hlocal⟩ := h
  obtain ⟨r', hr', -, -, hlocal'⟩ := h'
  rw [hr] at hr'
  obtain rfl := Except.ok.inj hr'
  exact hlocal.eq hlocal'

/-- The zone gives the offsets `before` and `after` for the two readings of the local
time. -/
structure Offsets (t : LocalDateTime) (z : Table) (before after : Int) : Prop where
  valid : t.Valid
  inZoneYears : t.InZoneYears
  offsetFor_before : z.offsetFor false t = .ok before
  offsetFor_after : z.offsetFor true t = .ok after

theorem inDay_of_offsetFor {fold : Bool} (h : z.offsetFor fold t = .ok offset) :
    InDay offset := by
  rw [Table.offsetFor] at h
  split at h
  case isTrue hday =>
    obtain rfl := Except.ok.inj h
    exact hday
  case isFalse => cases h

namespace Offsets

/-- Whatever is lost of the move, the rest of it is made. -/
theorem takenAs_lost (h : Offsets t z before after) (ho : InDay offset)
    (hresolve : resolve policy before after t.display key = .ok (offset, shift)) :
    TakenAs t z key policy
      (shift - lostDays (t.time.shift shift).2 * secondsPerDay - offset) offset
      (shift - lostDays (t.time.shift shift).2 * secondsPerDay) := by
  obtain ⟨r, hr, hoffset, hlocal, hutc⟩ :=
    exists_withOffsets h.valid h.inZoneYears ho hresolve
  rw [← inZone_eq h.valid h.inZoneYears h.offsetFor_before h.offsetFor_after] at hr
  exact ⟨r, hr, hutc.trans hlocal, hoffset, hlocal⟩

/-- The whole move is made exactly if it ends on the day before, the day itself or the day
after. -/
theorem takenAs_iff (h : Offsets t z before after) (ho : InDay offset)
    (hresolve : resolve policy before after t.display key = .ok (offset, shift)) :
    TakenAs t z key policy (shift - offset) offset shift ↔
      -secondsPerDay ≤ t.time.secs + shift ∧ t.time.secs + shift < 2 * secondsPerDay := by
  have hlost := h.takenAs_lost ho hresolve
  rw [← lostDays_shift_eq_zero_iff]
  constructor
  · intro htaken
    have := htaken.moved_eq hlost
    simp only [secondsPerDay] at this
    omega
  · intro hzero
    rwa [hzero, Int.zero_mul, Int.sub_zero] at hlost

/-- Without a move nothing is lost. -/
theorem takenAs_of_resolve_zero (h : Offsets t z before after) (ho : InDay offset)
    (hresolve : resolve policy before after t.display key = .ok (offset, 0)) :
    TakenAs t z key policy (-offset) offset 0 := by
  have honday := h.valid.2.onDay
  simp only [TimeOfDay.OnDay] at honday
  rw [← Int.zero_sub, h.takenAs_iff ho hresolve]
  simp only [secondsPerDay] at *
  omega

end Offsets

/-! ## The order of the results -/

theorem not_lt_of_isShiftOf {u v : LocalDateTime} {k k' : Int} (hu : u.IsShiftOf t k)
    (hv : v.IsShiftOf t k') (hle : k ≤ k') : ¬v < u := by
  have hseconds : u.seconds ≤ v.seconds := by
    rw [hu.seconds_eq, hv.seconds_eq]
    omega
  obtain ⟨hulo, huhi⟩ := hu.onDay
  obtain ⟨hvlo, hvhi⟩ := hv.onDay
  simp only [seconds, secondsPerDay] at *
  rintro (hdate | ⟨hdate, hsecs | ⟨-, hfrac⟩⟩)
  · have := (Date.lt_iff_dayNumber_lt hv.inRange.2 hu.inRange.2).mp hdate
    omega
  · rw [hdate] at hseconds
    omega
  · rw [hu.frac_eq, hv.frac_eq] at hfrac
    omega

theorem TakenAs.not_lt {policy' : Policy} {utc utc' offset' moved moved' : Int}
    (h : TakenAs t z key policy utc offset moved)
    (h' : TakenAs t z key policy' utc' offset' moved') (hle : utc ≤ utc')
    {r r' : OffsetDateTime} (hr : t.inZone (some policy) z key = .ok r)
    (hr' : t.inZone (some policy') z key = .ok r') : ¬r' < r := by
  obtain ⟨s, hs, hutc, -⟩ := h
  obtain ⟨s', hs', hutc', -⟩ := h'
  rw [hr] at hs
  rw [hr'] at hs'
  obtain rfl := Except.ok.inj hs
  obtain rfl := Except.ok.inj hs'
  exact not_lt_of_isShiftOf hutc hutc' hle

/-! ## All policies -/

/-- What the policies promise for the offsets `before` and `after` of a local time. -/
structure FollowsPolicies (t : LocalDateTime) (z : Table) (key : String)
    (before after : Int) : Prop where
  same : before = after → ∀ policy, TakenAs t z key policy (-before) before 0
  repeated : after < before →
    TakenAs t z key .compatible (-before) before 0 ∧ TakenAs t z key .earlier (-before) before 0 ∧
      TakenAs t z key .later (-after) after 0
  skipped : before < after →
    TakenAs t z key .compatible (-before) after (after - before) ∧
      TakenAs t z key .later (-before) after (after - before) ∧
      TakenAs t z key .earlier (-after) before (before - after)
  ordered : ∀ e c l, t.inZone (some .earlier) z key = .ok e →
    t.inZone (some .compatible) z key = .ok c → t.inZone (some .later) z key = .ok l →
    ¬c < e ∧ ¬l < c

/-- Moved out of the gap either way, the time is on the day before, the day itself or the
day after. -/
def StaysNear (t : LocalDateTime) (before after : Int) : Prop :=
  t.time.secs + (after - before) < 2 * secondsPerDay ∧
    -secondsPerDay ≤ t.time.secs + (before - after)

instance (t : LocalDateTime) (before after : Int) : Decidable (t.StaysNear before after) :=
  inferInstanceAs (Decidable (_ ∧ _))

namespace Offsets

theorem followsPolicies_self (h : Offsets t z before before) (key : String) :
    FollowsPolicies t z key before before := by
  have htaken (policy : Policy) : TakenAs t z key policy (-before) before 0 :=
    h.takenAs_of_resolve_zero (inDay_of_offsetFor h.offsetFor_before) (resolve_self before)
  refine ⟨fun _ => htaken, fun hlt => absurd hlt (Int.lt_irrefl _),
    fun hlt => absurd hlt (Int.lt_irrefl _), ?_⟩
  intro e c l he hc hl
  exact ⟨(htaken .earlier).not_lt (htaken .compatible) (Int.le_refl _) he hc,
    (htaken .compatible).not_lt (htaken .later) (Int.le_refl _) hc hl⟩

theorem followsPolicies_of_gt (h : Offsets t z before after) (hgt : after < before)
    (key : String) : FollowsPolicies t z key before after := by
  have hbefore := inDay_of_offsetFor h.offsetFor_before
  have hcompatible : TakenAs t z key .compatible (-before) before 0 :=
    h.takenAs_of_resolve_zero hbefore (resolve_of_gt hgt)
  have hearlier : TakenAs t z key .earlier (-before) before 0 :=
    h.takenAs_of_resolve_zero hbefore (resolve_of_gt hgt)
  have hlater : TakenAs t z key .later (-after) after 0 :=
    h.takenAs_of_resolve_zero (inDay_of_offsetFor h.offsetFor_after) (resolve_of_gt hgt)
  refine ⟨fun heq => by omega, fun _ => ⟨hcompatible, hearlier, hlater⟩, fun hlt => by omega, ?_⟩
  intro e c l he hc hl
  exact ⟨hearlier.not_lt hcompatible (Int.le_refl _) he hc,
    hcompatible.not_lt hlater (by omega) hc hl⟩

theorem followsPolicies_of_lt_iff (h : Offsets t z before after) (hlt : before < after)
    (key : String) : FollowsPolicies t z key before after ↔ t.StaysNear before after := by
  have honday := h.valid.2.onDay
  simp only [TimeOfDay.OnDay] at honday
  have hbefore := inDay_of_offsetFor h.offsetFor_before
  have hafter := inDay_of_offsetFor h.offsetFor_after
  have hcompatible : TakenAs t z key .compatible (after - before - after) after (after - before) ↔
    _ := h.takenAs_iff hafter (resolve_of_lt hlt)
  have hlater : TakenAs t z key .later (after - before - after) after (after - before) ↔
    _ := h.takenAs_iff hafter (resolve_of_lt hlt)
  have hearlier : TakenAs t z key .earlier (before - after - before) before (before - after) ↔
    _ := h.takenAs_iff hbefore (resolve_of_lt hlt)
  rw [show after - before - after = -before by omega] at hcompatible hlater
  rw [show before - after - before = -after by omega] at hearlier
  constructor
  · intro hfollows
    obtain ⟨hforward, -, hbackward⟩ := hfollows.skipped hlt
    exact ⟨(hcompatible.mp hforward).2, (hearlier.mp hbackward).1⟩
  · rintro ⟨hforward, hbackward⟩
    have hcompatible := hcompatible.mpr ⟨by omega, hforward⟩
    have hlater := hlater.mpr ⟨by omega, hforward⟩
    have hearlier := hearlier.mpr ⟨hbackward, by omega⟩
    refine ⟨fun heq => by omega, fun hgt => by omega, fun _ => ⟨hcompatible, hlater, hearlier⟩, ?_⟩
    intro e c l he hc hl
    exact ⟨hearlier.not_lt hcompatible (by omega) he hc,
      hcompatible.not_lt hlater (Int.le_refl _) hc hl⟩

end Offsets

/-- The policies keep their promise for a local time and its two offsets exactly if the time,
when the zone skips it, is not moved beyond the day before or the day after. -/
theorem followsPolicies_iff (ht : t.Valid) (hyear : t.InZoneYears)
    (hbefore : z.offsetFor false t = .ok before) (hafter : z.offsetFor true t = .ok after)
    (key : String) :
    FollowsPolicies t z key before after ↔ (before < after → t.StaysNear before after) := by
  have h : Offsets t z before after := ⟨ht, hyear, hbefore, hafter⟩
  rcases Int.lt_trichotomy before after with hlt | rfl | hgt
  · rw [h.followsPolicies_of_lt_iff hlt, forall_prop_of_true hlt]
  · exact iff_of_true (h.followsPolicies_self key) fun hlt => absurd hlt (Int.lt_irrefl _)
  · exact iff_of_true (h.followsPolicies_of_gt hgt key) fun hlt => by omega

/-- Noon of the day that Samoa left out, which is moved by a whole day. -/
theorem followsPolicies_skipped_day :
    FollowsPolicies ⟨⟨2011, 12, 30⟩, ⟨43200, 0⟩⟩
      (Table.ofTransitions (-36000) [⟨1325239200, 50400⟩]) "Pacific/Apia" (-36000) 50400 :=
  (followsPolicies_iff (by decide) (by decide) (by decide) (by decide) "Pacific/Apia").mpr
    fun _ => by decide

/-- A clock that jumps by 26 hours, from 12 hours behind to 14 hours ahead. An hour before
midnight of the skipped day is not moved forward to one in the morning two days later: both
days are lost, so the result is two days early. -/
theorem inZone_loses_days :
    let t : LocalDateTime := ⟨⟨1969, 12, 31⟩, ⟨82800, 0⟩⟩
    let z := Table.ofTransitions (-43200) [⟨0, 50400⟩]
    (t.Valid ∧ t.InZoneYears) ∧ z.offsetFor false t = .ok (-43200) ∧
      z.offsetFor true t = .ok 50400 ∧
      t.inZone (some .compatible) z "Far/Jump" = .ok ⟨⟨⟨1969, 12, 30⟩, ⟨39600, 0⟩⟩, ⟨50400⟩⟩ ∧
      ¬FollowsPolicies t z "Far/Jump" (-43200) 50400 := by
  intro t z
  have hresult :
      t.inZone (some .compatible) z "Far/Jump" = .ok ⟨⟨⟨1969, 12, 30⟩, ⟨39600, 0⟩⟩, ⟨50400⟩⟩ := by
    decide
  refine ⟨by decide, by decide, by decide, hresult, fun hfollows => ?_⟩
  obtain ⟨⟨r, hr, hutc, -⟩, -⟩ := hfollows.skipped (by decide)
  rw [hresult] at hr
  obtain rfl := Except.ok.inj hr
  exact absurd hutc.seconds_eq (by decide)

end CivilTime.LocalDateTime
