import CivilTime.Packed
import CivilTime.Proofs.Outcome

/-!
# Unpacking what was packed

A word in the middle of packed data is read as the number that it was made of. So a
time that can be packed at all is the same when it is unpacked, also within a datetime.
-/

namespace CivilTime

namespace Bytes

theorem natAt_append {front bs back : Bytes} {start width : Nat} (hstart : front.length = start)
    (hwidth : bs.length = width) : natAt (front ++ (bs ++ back)) start width = bs.toNat := by
  subst hstart hwidth
  rw [natAt, List.drop_left, List.take_left]

theorem toNat_ofInt {width : Nat} {n : Int} (hlo : 0 ≤ n) (hhi : n < wordSize width) :
    ((ofInt width n).toNat : Int) = n := by
  rw [ofInt, toNat_ofNat, Int.emod_eq_of_lt hlo hhi, Nat.mod_eq_of_lt (by omega)]
  omega

theorem ofWord_eq_ok {n : Int} {bs : Bytes} :
    ofWord n = .ok bs ↔ (0 ≤ n ∧ n ≤ maxU32) ∧ ofInt 4 n = bs := by
  rw [ofWord]
  split
  case isTrue h => exact ⟨fun hok => ⟨h, Except.ok.inj hok⟩, fun hbs => congrArg Except.ok hbs.2⟩
  case isFalse h => exact ⟨nofun, fun hbs => absurd hbs.1 h⟩

theorem toNat_ofWord {n : Int} {bs : Bytes} (h : ofWord n = .ok bs) :
    bs.length = 4 ∧ (bs.toNat : Int) = n := by
  obtain ⟨⟨hlo, hhi⟩, rfl⟩ := ofWord_eq_ok.mp h
  have hsize : n < wordSize 4 := by
    simp only [maxU32, wordSize] at *
    omega
  exact ⟨length_ofInt 4 n, toNat_ofInt hlo hsize⟩

end Bytes

open Bytes

namespace TimeOfDay

variable {t : TimeOfDay} {bs : Bytes}

/-- The two words of a packed time, read from behind anything else. -/
theorem natAt_of_pack (h : t.pack = .ok bs) (front : Bytes) {start : Nat}
    (hstart : front.length = start) :
    bs.length = 8 ∧ natAt (front ++ bs) start 4 = t.secs ∧
      natAt (front ++ bs) (start + 4) 4 = t.frac := by
  simp only [TimeOfDay.pack, bind_eq_ok, pure_eq_ok] at h
  obtain ⟨secs, hsecs, frac, hfrac, rfl⟩ := h
  obtain ⟨hlength, hvalue⟩ := toNat_ofWord hsecs
  obtain ⟨hlength', hvalue'⟩ := toNat_ofWord hfrac
  refine ⟨by rw [List.length_append, hlength, hlength'], ?_, ?_⟩
  · rw [natAt_append hstart hlength, hvalue]
  · have hback : front ++ (secs ++ frac) = (front ++ secs) ++ (frac ++ []) := by simp
    rw [hback, natAt_append (by rw [List.length_append, hstart, hlength]) hlength', hvalue']

theorem gives_unpack_pack (t : TimeOfDay) : Gives (t.pack >>= TimeOfDay.unpack) (· = t) := by
  rw [gives_bind]
  intro bs hpack
  obtain ⟨-, hsecs, hfrac⟩ := natAt_of_pack hpack [] rfl
  rw [TimeOfDay.unpack, gives_bind]
  intro _ _
  rw [gives_pure]
  exact congr (congrArg mk hsecs) hfrac

end TimeOfDay

theorem Date.length_pack (d : Date) : d.pack.length = 6 := by
  simp [Date.pack]

theorem LocalDateTime.time_unpack {t u : LocalDateTime} {bs : Bytes} (hpack : t.pack = .ok bs)
    (hunpack : LocalDateTime.unpack bs = .ok u) : u.time = t.time := by
  simp only [LocalDateTime.pack, bind_eq_ok, pure_eq_ok] at hpack
  obtain ⟨time, htime, rfl⟩ := hpack
  obtain ⟨-, hsecs, hfrac⟩ := TimeOfDay.natAt_of_pack htime t.date.pack t.date.length_pack
  simp only [LocalDateTime.unpack, bind_eq_ok, pure_eq_ok] at hunpack
  obtain ⟨-, -, rfl⟩ := hunpack
  change TimeOfDay.mk _ _ = TimeOfDay.mk t.time.secs t.time.frac
  exact congr (congrArg TimeOfDay.mk hsecs) hfrac

theorem LocalDateTime.gives_unpack_pack (t : LocalDateTime) :
    Gives (t.pack >>= LocalDateTime.unpack) (·.time = t.time) := by
  rw [gives_bind]
  intro bs hpack u hunpack
  exact time_unpack hpack hunpack

theorem OffsetDateTime.gives_unpack_pack (t : OffsetDateTime) :
    Gives (t.pack >>= OffsetDateTime.unpack) (·.utc.time = t.utc.time) := by
  rw [gives_bind]
  intro bs hpack u hunpack
  simp only [OffsetDateTime.pack, bind_eq_ok, pure_eq_ok] at hpack
  obtain ⟨utc, hutc, rfl⟩ := hpack
  simp only [OffsetDateTime.unpack, bind_eq_ok, pure_eq_ok] at hunpack
  obtain ⟨-, -, v, hv, rfl⟩ := hunpack
  refine LocalDateTime.time_unpack hutc ?_
  rwa [List.length_append, Offset.pack, length_ofInt, Nat.add_sub_cancel, List.take_left] at hv

end CivilTime
