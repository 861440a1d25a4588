import Mathlib.Logic.ExistsUnique
import CivilTime.Zone.Resolve
import CivilTime.Proofs.LocalDateTime.Shift
import CivilTime.Proofs.Micro
import CivilTime.Proofs.Zone.Lookup

/-!
# Resolving local times

In a regular zone the offsets for the two readings of a clock tell whether there is one
moment with that local time, none or two, and every policy that accepts the local time
ends at a moment and the offset which the zone has then.
-/

namespace CivilTime

open Zone

namespace Zone

variable {policy : Policy} {before after : Int} {shown key : String}

theorem resolve_of_lt (h : before < after) :
    resolve policy before after shown key =
      match policy with
      | .refuse => .error (.skippedTime shown key)
      | .earlier => .ok (before, before - after)
      | .compatible | .later => .ok (after, after - before) := by
  cases policy <;> exact (if_neg (by omega)).trans (if_neg (by omega))

theorem resolve_self (offset : Int) : resolve policy offset offset shown key = .ok (offset, 0) :=
  if_pos rfl

theorem resolve_of_gt (h : after < before) :
    resolve policy before after shown key =
      match policy with
      | .refuse => .error (.repeatedTime shown key)
      | .later => .ok (after, 0)
      | .compatible | .earlier => .ok (before, 0) := by
  cases policy <;> exact (if_neg (by omega)).trans (if_pos h)

end Zone

namespace LocalDateTime

variable {t : LocalDateTime} {policy : Policy} {key : String}

/-- The seconds that calendar and clock have gone on since the start of 1970. -/
def clock (t : LocalDateTime) : Int := t.seconds - epochDay * secondsPerDay

theorem timestamp_eq_clock (r : OffsetDateTime) : r.timestamp = r.utc.clock := by
  have hepoch : epoch.date.dayNumber = epochDay := by decide
  simp only [OffsetDateTime.timestamp, clock, seconds, hepoch, secondsPerDay]
  omega

/-- The years in which zones can be asked. -/
def InZoneYears (t : LocalDateTime) : Prop := 1 ≤ t.date.year ∧ t.date.year ≤ 9999

instance : DecidablePred InZoneYears := fun _ => inferInstanceAs (Decidable (_ ∧ _))

theorem hasRoom_of_inZoneYears (ht : t.date.IsReal) (hyear : t.InZoneYears) : t.HasRoom 2 := by
  obtain ⟨hlo, hhi⟩ := hyear
  have hstart : (⟨0, 12, 31⟩ : Date) < t.date := by
    refine .inl ?_
    change 0 < _
    omega
  have hend : t.date < (⟨10000, 1, 1⟩ : Date) := by
    refine .inl ?_
    change _ < 10000
    omega
  rw [Date.lt_iff_dayNumber_lt (by decide) ht] at hstart
  rw [Date.lt_iff_dayNumber_lt ht (by decide)] at hend
  rw [show (⟨0, 12, 31⟩ : Date).dayNumber = 0 by decide] at hstart
  rw [show (⟨10000, 1, 1⟩ : Date).dayNumber = 3652060 by decide] at hend
  simp only [HasRoom, Date.dayNumber_min, Date.dayNumber_max]
  omega

/-- Moving by a shift and to an offset always succeeds. Days of the shift can be lost. -/
theorem exists_withOffsets {before after offset shift : Int} (ht : t.Valid)
    (hyear : t.InZoneYears) (ho : InDay offset)
    (h : resolve policy before after t.display key = .ok (offset, shift)) :
    ∃ r, t.withOffsets policy before after key = .ok r ∧ r.offset.secs = offset ∧
      r.localDateTime.IsShiftOf t (shift - lostDays (t.time.shift shift).2 * secondsPerDay) ∧
      r.utc.IsShiftOf r.localDateTime (-offset) := by
  have hoffset : -secondsPerDay ≤ -offset ∧ -offset ≤ secondsPerDay := by
    simp only [InDay] at ho
    omega
  obtain ⟨moved, hmoved, hroom, hshift⟩ :=
    exists_isShiftOf 1 ht.1 (hasRoom_of_inZoneYears ht.1.2 hyear) (by decide) shift
  obtain ⟨utc, hutc, -, hutcShift⟩ :=
    exists_isShiftOf 0 hshift.inRange hroom (by decide) (-offset)
  rw [lostDays_shift_of_le_day hshift.onDay hoffset, Int.zero_mul, Int.sub_zero] at hutcShift
  have hlocal : (⟨utc, ⟨offset⟩⟩ : OffsetDateTime).localDateTime = moved := by
    refine localDateTime_of_ofLocal? (o := ⟨offset⟩) hshift.inRange hshift.onDay ?_ ?_
    · simp only
      omega
    · exact Option.map_eq_some_iff.mpr ⟨utc, hutc, rfl⟩
  rw [← hlocal] at hshift hutcShift
  refine ⟨⟨utc, ⟨offset⟩⟩, ?_, rfl, hshift, hutcShift⟩
  rw [withOffsets, h]
  change (orExceeds (t.shifted? (t.time.shift shift)) _).bind (fun moved =>
    orExceeds ((moved.shifted? (moved.time.shift (-offset))).map _) _) = _
  rw [hmoved]
  change orExceeds ((moved.shifted? (moved.time.shift (-offset))).map _) _ = _
  rw [hutc]
  rfl

/-- Nothing is lost of a shift by at most a day. -/
theorem withOffsets_of_resolve {before after offset shift : Int} (ht : t.Valid)
    (hyear : t.InZoneYears) (ho : InDay offset)
    (hshift : -secondsPerDay ≤ shift ∧ shift ≤ secondsPerDay)
    (h : resolve policy before after t.display key = .ok (offset, shift)) :
    ∃ r, t.withOffsets policy before after key = .ok r ∧
      r.timestamp = t.clock + shift - offset ∧ r.offset.secs = offset := by
  obtain ⟨r, hr, hoffset, hlocal, hutc⟩ := exists_withOffsets ht hyear ho h
  rw [lostDays_shift_of_le_day ht.2.onDay hshift, Int.zero_mul, Int.sub_zero] at hlocal
  refine ⟨r, hr, ?_, hoffset⟩
  have hseconds := (hutc.trans hlocal).seconds_eq
  rw [timestamp_eq_clock]
  simp only [clock]
  omega

theorem inZone_eq {z : Table} (ht : t.Valid) (hyear : t.InZoneYears) {before after : Int}
    (hbefore : z.offsetFor false t = .ok before) (hafter : z.offsetFor true t = .ok after) :
    t.inZone (some policy) z key = t.withOffsets policy before after key := by
  obtain ⟨m, hm⟩ := toMicro_of_valid ht hyear
  rw [inZone, if_neg (fun hout => hout hyear), hm, hbefore, hafter]
  rfl

theorem offsetFor_eq_ok {z : Table} {initial : Int} {trs : List Transition}
    (hanswers : z.Answers initial trs) (hzone : Regular initial trs) (fold : Bool) :
    z.offsetFor fold t = .ok (offsetAtLocal fold initial trs t.clock) := by
  have h : z.offsetAt fold t.date.year (t.seconds - epochDay * secondsPerDay) =
      offsetAtLocal fold initial trs t.clock := hanswers fold t.date.year t.clock
  rw [Table.offsetFor]
  simp only [h]
  exact if_pos (hzone.inDay_offsetAfter _)

/-! ## The moments of a local time -/

/-- The policy accepts the local time, and takes it for the moment `u`. The offset is
the one that the zone has then. -/
def LeadsTo (t : LocalDateTime) (z : Table) (key : String) (initial : Int)
    (trs : List Transition) (policy : Policy) (u : Int) : Prop :=
  ∃ r, t.inZone (some policy) z key = .ok r ∧ r.timestamp = u ∧
    r.offset.secs = offsetAtMoment initial trs u

/-- How a local time can fare in a zone. -/
inductive Resolution (t : LocalDateTime) (z : Table) (key : String) (initial : Int)
    (trs : List Transition) : Prop where
  /-- The zone has the local time at one moment. -/
  | once (u : Int) (hshows : ∀ v, Shows initial trs v t.clock ↔ v = u)
      (hleads : ∀ policy, LeadsTo t z key initial trs policy u)
  /-- The zone has the local time at two moments. -/
  | twice (u v : Int) (hlt : u < v) (hshows : ∀ w, Shows initial trs w t.clock ↔ w = u ∨ w = v)
      (hrefuse : t.inZone (some .refuse) z key = .error (.repeatedTime t.display key))
      (hearlier : LeadsTo t z key initial trs .earlier u)
      (hcompatible : LeadsTo t z key initial trs .compatible u)
      (hlater : LeadsTo t z key initial trs .later v)
  /-- The zone skips the local time. -/
  | never (hshows : ∀ u, ¬Shows initial trs u t.clock)
      (hrefuse : t.inZone (some .refuse) z key = .error (.skippedTime t.display key))
      (hleads : ∀ policy, policy ≠ .refuse → ∃ u, LeadsTo t z key initial trs policy u)

/-- The zone gives the offsets `before` and `after` for the two readings of the local
time, and what they say about the zone is true. -/
structure Asked (t : LocalDateTime) (z : Table) (initial : Int) (trs : List Transition)
    (before after : Int) : Prop where
  valid : t.Valid
  inZoneYears : t.InZoneYears
  offsetFor_before : z.offsetFor false t = .ok before
  offsetFor_after : z.offsetFor true t = .ok after
  inDay_before : InDay before
  inDay_after : InDay after
  reading : ∃ start, Reading start initial trs t.clock before after

namespace Asked

variable {z : Table} {initial before after : Int} {trs : List Transition}

theorem of_regular (ht : t.Valid) (hyear : t.InZoneYears) (hzone : Regular initial trs)
    (hanswers : z.Answers initial trs) :
    Asked t z initial trs (offsetAtLocal false initial trs t.clock)
      (offsetAtLocal true initial trs t.clock) := by
  obtain ⟨start, hstarts⟩ := exists_starts initial trs
  exact ⟨ht, hyear, offsetFor_eq_ok hanswers hzone false, offsetFor_eq_ok hanswers hzone true,
    hzone.inDay_offsetAfter _, hzone.inDay_offsetAfter _, start, Zone.reading hzone hstarts t.clock⟩

theorem inZone_eq (h : Asked t z initial trs before after) (policy : Policy) (key : String) :
    t.inZone (some policy) z key = t.withOffsets policy before after key :=
  LocalDateTime.inZone_eq h.valid h.inZoneYears h.offsetFor_before h.offsetFor_after

/-- A policy leads to the moment that it moves the local time to, if the zone has the
chosen offset then. -/
theorem leadsTo (h : Asked t z initial trs before after) {offset shift u : Int}
    (hresolve : resolve policy before after t.display key = .ok (offset, shift))
    (hday : InDay offset) (hshift : -secondsPerDay ≤ shift ∧ shift ≤ secondsPerDay)
    (hu : t.clock + shift - offset = u) (hoffset : offsetAtMoment initial trs u = offset) :
    LeadsTo t z key initial trs policy u := by
  obtain ⟨r, hr, hmoment, hsecs⟩ :=
    withOffsets_of_resolve h.valid h.inZoneYears hday hshift hresolve
  exact ⟨r, (h.inZone_eq policy key).trans hr, hmoment.trans hu, hsecs.trans hoffset.symm⟩

/-- In a gap, each of the offsets is that of the moment which the other one leads to. -/
theorem never (h : Asked t z initial trs before after) (hlt : before < after) (key : String) :
    Resolution t z key initial trs := by
  obtain ⟨start, -, hnot, hfirst, hsecond, -, hjump⟩ := h.reading
  have hshift : after - before ≤ secondsPerDay := by
    simp only [jump] at hjump
    omega
  have hlate {policy : Policy}
      (hresolve : resolve policy before after t.display key = .ok (after, after - before)) :
      LeadsTo t z key initial trs policy (t.clock - before) :=
    h.leadsTo hresolve h.inDay_after (by omega) (by omega) (hfirst hlt)
  refine .never (hnot hlt) ?refused ?chosen
  case refused =>
    rw [h.inZone_eq, withOffsets, resolve_of_lt hlt]
    rfl
  case chosen =>
    intro policy hpolicy
    cases policy with
    | refuse => exact absurd rfl hpolicy
    | compatible => exact ⟨_, hlate (resolve_of_lt hlt)⟩
    | later => exact ⟨_, hlate (resolve_of_lt hlt)⟩
    | earlier =>
      refine ⟨t.clock - after, ?_⟩
      exact h.leadsTo (resolve_of_lt hlt) h.inDay_before (by omega) (by omega) (hsecond hlt)

theorem once (h : Asked t z initial trs before before) (key : String) :
    Resolution t z key initial trs := by
  obtain ⟨start, hiff, -⟩ := h.reading
  have hshows (v : Int) : Shows initial trs v t.clock ↔ v = t.clock - before := by
    rw [hiff (Int.le_refl before), or_self]
  have hself := (hshows _).mpr rfl
  rw [Shows] at hself
  refine .once _ hshows ?_
  intro policy
  exact h.leadsTo (resolve_self before) h.inDay_before (by decide) (by omega) (by omega)

theorem twice (h : Asked t z initial trs before after) (hgt : after < before) (key : String) :
    Resolution t z key initial trs := by
  obtain ⟨start, hiff, -⟩ := h.reading
  have hshows := hiff (Int.le_of_lt hgt)
  have hu := (hshows (t.clock - before)).mpr (.inl rfl)
  have hv := (hshows (t.clock - after)).mpr (.inr rfl)
  rw [Shows] at hu hv
  have hfirst {policy : Policy}
      (hresolve : resolve policy before after t.display key = .ok (before, 0)) :
      LeadsTo t z key initial trs policy (t.clock - before) :=
    h.leadsTo hresolve h.inDay_before (by decide) (by omega) (by omega)
  refine .twice _ _ (by omega) hshows ?refused ?earlier ?compatible ?later
  case refused =>
    rw [h.inZone_eq, withOffsets, resolve_of_gt hgt]
    rfl
  case earlier => exact hfirst (resolve_of_gt hgt)
  case compatible => exact hfirst (resolve_of_gt hgt)
  case later =>
    exact h.leadsTo (resolve_of_gt hgt) h.inDay_after (by decide) (by omega) (by omega)

theorem resolution (h : Asked t z initial trs before after) (key : String) :
    Resolution t z key initial trs := by
  rcases Int.lt_trichotomy before after with hlt | rfl | hgt
  · exact h.never hlt key
  · exact h.once key
  · exact h.twice hgt key

end Asked

namespace LeadsTo

variable {z : Table} {initial u : Int} {trs : List Transition}

theorem offset_eq (h : LeadsTo t z key initial trs policy u) {r : OffsetDateTime}
    (hr : t.inZone (some policy) z key = .ok r) :
    r.timestamp = u ∧ r.offset.secs = offsetAtMoment initial trs r.timestamp := by
  obtain ⟨r', hr', hmoment, hoffset⟩ := h
  rw [hr] at hr'
  obtain rfl := Except.ok.inj hr'
  rw [hmoment]
  exact ⟨rfl, hoffset⟩

theorem ne_error (h : LeadsTo t z key initial trs policy u) (fault : Fault) :
    t.inZone (some policy) z key ≠ .error fault := by
  obtain ⟨r, hr, -⟩ := h
  rw [hr]
  exact nofun

end LeadsTo

namespace Resolution

variable {z : Table} {initial : Int} {trs : List Transition}

/-- Whatever is accepted has the offset of the zone. -/
theorem offset_eq (h : Resolution t z key initial trs) {r : OffsetDateTime}
    (hr : t.inZone (some policy) z key = .ok r) :
    r.offset.secs = offsetAtMoment initial trs r.timestamp := by
  cases h with
  | once u hshows hleads => exact ((hleads policy).offset_eq hr).2
  | twice u v hlt hshows hrefuse hearlier hcompatible hlater =>
    cases policy with
    | refuse =>
      rw [hrefuse] at hr
      cases hr
    | earlier => exact (hearlier.offset_eq hr).2
    | compatible => exact (hcompatible.offset_eq hr).2
    | later => exact (hlater.offset_eq hr).2
  | never hshows hrefuse hleads =>
    by_cases hpolicy : policy = .refuse
    · rw [hpolicy, hrefuse] at hr
      cases hr
    · obtain ⟨u, hu⟩ := hleads policy hpolicy
      exact (hu.offset_eq hr).2

/-- Local times of the years in which zones can be asked never lead out of range. -/
theorem ne_outOfRange (h : Resolution t z key initial trs) (limit : Limit) :
    t.inZone (some policy) z key ≠ .error (.outOfRange limit) := by
  cases h with
  | once u hshows hleads => exact (hleads policy).ne_error _
  | twice u v hlt hshows hrefuse hearlier hcompatible hlater =>
    cases policy with
    | refuse =>
      rw [hrefuse]
      exact nofun
    | earlier => exact hearlier.ne_error _
    | compatible => exact hcompatible.ne_error _
    | later => exact hlater.ne_error _
  | never hshows hrefuse hleads =>
    by_cases hpolicy : policy = .refuse
    · rw [hpolicy, hrefuse]
      exact nofun
    · obtain ⟨u, hu⟩ := hleads policy hpolicy
      exact hu.ne_error _

/-- Without a choice, a local time is accepted exactly if there is one moment. -/
theorem accepted_iff (h : Resolution t z key initial trs) :
    (∃ r, t.inZone (some .refuse) z key = .ok r) ↔ ∃! u, Shows initial trs u t.clock := by
  cases h with
  | once u hshows hleads =>
    obtain ⟨r, hr, -⟩ := hleads .refuse
    constructor
    · intro _
      exact ⟨u, (hshows u).mpr rfl, fun v hv => (hshows v).mp hv⟩
    · intro _
      exact ⟨r, hr⟩
  | twice u v hlt hshows hrefuse =>
    rw [hrefuse]
    constructor
    · rintro ⟨r, hr⟩
      cases hr
    · rintro ⟨w, -, hone⟩
      have hu := hone u ((hshows u).mpr (.inl rfl))
      have hv := hone v ((hshows v).mpr (.inr rfl))
      omega
  | never hshows hrefuse =>
    rw [hrefuse]
    constructor
    · rintro ⟨r, hr⟩
      cases hr
    · rintro ⟨u, hu, -⟩
      exact absurd hu (hshows u)

theorem skipped_iff (h : Resolution t z key initial trs) :
    t.inZone (some .refuse) z key = .error (.skippedTime t.display key) ↔
      ¬∃ u, Shows initial trs u t.clock := by
  cases h with
  | once u hshows hleads =>
    obtain ⟨r, hr, -⟩ := hleads .refuse
    rw [hr]
    exact ⟨nofun, fun hnone => absurd ⟨u, (hshows u).mpr rfl⟩ hnone⟩
  | twice u v hlt hshows hrefuse =>
    rw [hrefuse]
    exact ⟨nofun, fun hnone => absurd ⟨u, (hshows u).mpr (.inl rfl)⟩ hnone⟩
  | never hshows hrefuse =>
    refine ⟨fun _ => ?_, fun _ => hrefuse⟩
    rintro ⟨u, hu⟩
    exact hshows u hu

theorem repeated_iff (h : Resolution t z key initial trs) :
    t.inZone (some .refuse) z key = .error (.repeatedTime t.display key) ↔
      ∃ u v, u < v ∧ ∀ w, Shows initial trs w t.clock ↔ w = u ∨ w = v := by
  cases h with
  | once u hshows hleads =>
    obtain ⟨r, hr, -⟩ := hleads .refuse
    rw [hr]
    refine ⟨nofun, ?_⟩
    rintro ⟨v, w, hlt, htwo⟩
    have hv := (hshows v).mp ((htwo v).mpr (.inl rfl))
    have hw := (hshows w).mp ((htwo w).mpr (.inr rfl))
    omega
  | twice u v hlt hshows hrefuse => exact ⟨fun _ => ⟨u, v, hlt, hshows⟩, fun _ => hrefuse⟩
  | never hshows hrefuse =>
    rw [hrefuse]
    refine ⟨nofun, ?_⟩
    rintro ⟨u, v, -, htwo⟩
    exact absurd ((htwo u).mpr (.inl rfl)) (hshows u)

/-- Between two moments, a choice leads to the one that it names. -/
theorem leadsTo_of_two (h : Resolution t z key initial trs) {u v : Int} (hlt : u < v)
    (hu : Shows initial trs u t.clock) (hv : Shows initial trs v t.clock) :
    LeadsTo t z key initial trs .earlier u ∧ LeadsTo t z key initial trs .compatible u ∧
      LeadsTo t z key initial trs .later v := by
  cases h with
  | once w hshows hleads =>
    have hu := (hshows u).mp hu
    have hv := (hshows v).mp hv
    omega
  | twice u' v' hlt' hshows hrefuse hearlier hcompatible hlater =>
    have hu := (hshows u).mp hu
    have hv := (hshows v).mp hv
    obtain ⟨rfl, rfl⟩ : u' = u ∧ v' = v := by omega
    exact ⟨hearlier, hcompatible, hlater⟩
  | never hshows => exact absurd hu (hshows u)

end Resolution

/-- A local time is accepted without a choice exactly if the zone has it at one moment,
and is reported as skipped exactly if there is none and as repeated exactly if there are
two. Of two moments a choice gives the one that it names. Every accepted local time gets
the offset that the zone has at its moment, and none leads out of range. -/
theorem inZone_exact {z : Table} {initial : Int} {trs : List Transition} (ht : t.Valid)
    (hyear : t.InZoneYears) (hzone : Regular initial trs) (hanswers : z.Answers initial trs)
    (key : String) :
    ((∃ r, t.inZone (some .refuse) z key = .ok r) ↔ ∃! u, Shows initial trs u t.clock) ∧
    (t.inZone (some .refuse) z key = .error (.skippedTime t.display key) ↔
      ¬∃ u, Shows initial trs u t.clock) ∧
    (t.inZone (some .refuse) z key = .error (.repeatedTime t.display key) ↔
      ∃ u v, u < v ∧ ∀ w, Shows initial trs w t.clock ↔ w = u ∨ w = v) ∧
    (∀ u v, u < v → Shows initial trs u t.clock → Shows initial trs v t.clock →
      LeadsTo t z key initial trs .earlier u ∧ LeadsTo t z key initial trs .compatible u ∧
        LeadsTo t z key initial trs .later v) ∧
    (∀ policy r, t.inZone (some policy) z key = .ok r →
      r.offset.secs = offsetAtMoment initial trs r.timestamp) ∧
    ∀ policy limit, t.inZone (some policy) z key ≠ .error (.outOfRange limit) := by
  have h := (Asked.of_regular ht hyear hzone hanswers).resolution key
  refine ⟨h.accepted_iff, h.skipped_iff, h.repeated_iff, ?chosen, ?offset, ?range⟩
  case chosen =>
    intro u v hlt hu hv
    exact h.leadsTo_of_two hlt hu hv
  case offset =>
    intro policy r hr
    exact h.offset_eq hr
  case range =>
    intro policy limit
    exact h.ne_outOfRange limit

/-- Half past two in the night in which summer time ends at three. -/
theorem inZone_exact_end_of_summer :
    let t : LocalDateTime := ⟨⟨2020, 10, 25⟩, ⟨9000, 0⟩⟩
    let trs : List Transition := [⟨1585443600, 7200⟩, ⟨1603587600, 3600⟩]
    let z := Table.ofTransitions 3600 trs
    (¬∃ r, t.inZone (some .refuse) z "Europe/Paris" = .ok r) ∧
      LeadsTo t z "Europe/Paris" 3600 trs .earlier 1603585800 ∧
      LeadsTo t z "Europe/Paris" 3600 trs .later 1603589400 := by
  obtain ⟨honce, -, -, htwo, -⟩ := inZone_exact (t := ⟨⟨2020, 10, 25⟩, ⟨9000, 0⟩⟩)
    (by decide) (by decide) (by decide)
    (Table.answers_ofTransitions 3600 [⟨1585443600, 7200⟩, ⟨1603587600, 3600⟩] (by decide))
    "Europe/Paris"
  obtain ⟨hearlier, -, hlater⟩ := htwo 1603585800 1603589400 (by decide) (by decide) (by decide)
  refine ⟨fun hok => ?_, hearlier, hlater⟩
  obtain ⟨u, -, hone⟩ := honce.mp hok
  have hfirst := hone 1603585800 (by decide)
  have hsecond := hone 1603589400 (by decide)
  omega

end LocalDateTime

end CivilTime
