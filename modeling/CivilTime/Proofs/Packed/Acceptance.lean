import CivilTime.Proofs.Date.Construction
import CivilTime.Proofs.Delta.Construction
import CivilTime.Proofs.Packed.RoundTrip
import CivilTime.Proofs.Span.Construction

/-!
# Packed forms that are accepted

For deltas, spans, offsets and dates, unpacking accepts the packed forms of the values that can
be made, and no other bytes. Each word is read as the only number that is packed in it, so that
the value that is read has the bytes that it was read from. What remains is that the checks of
these kinds let through exactly the values that can be made.

Local dates right outside of the supported range can be packed, but not made; they are refused.
-/

namespace CivilTime

namespace Bytes

variable {bs : Bytes} {start width : Nat}

/-! ## Words that are read -/

theorem ofInt_toNat (bs : Bytes) : ofInt bs.length (bs.toNat : Int) = bs := by
  have hlt := toNat_lt bs
  rw [ofInt, Int.emod_eq_of_lt (Int.natCast_nonneg _) (Int.ofNat_lt.mpr hlt), Int.toNat_natCast,
    ofNat_toNat]

/-- Two's complement does not change the bytes. -/
theorem ofInt_toInt (bs : Bytes) : ofInt bs.length bs.toInt = bs := by
  rw [toInt]
  split
  case isTrue => exact ofInt_toNat bs
  case isFalse =>
    have hmod : ((bs.toNat : Int) - wordSize bs.length) % wordSize bs.length =
        (bs.toNat : Int) % wordSize bs.length := Int.sub_emod_right ..
    rw [ofInt, hmod]
    exact ofInt_toNat bs

theorem length_word (h : start + width ≤ bs.length) :
    ((bs.drop start).take width).length = width := by
  rw [List.length_take, List.length_drop]
  omega

theorem ofInt_natAt (h : start + width ≤ bs.length) :
    ofInt width (bs.natAt start width) = (bs.drop start).take width := by
  have hword := ofInt_toNat ((bs.drop start).take width)
  rwa [length_word h] at hword

theorem ofInt_intAt (h : start + width ≤ bs.length) :
    ofInt width (bs.intAt start width) = (bs.drop start).take width := by
  have hword := ofInt_toInt ((bs.drop start).take width)
  rwa [length_word h] at hword

theorem holds_natAt (h : start + width ≤ bs.length) : Holds width (bs.natAt start width) := by
  have hlt := toNat_lt ((bs.drop start).take width)
  rw [length_word h] at hlt
  exact ⟨Int.natCast_nonneg _, Int.ofNat_lt.mpr hlt⟩

/-- A word and what comes after it are what starts with the word. -/
theorem take_append_drop_add (bs : Bytes) (start width : Nat) :
    (bs.drop start).take width ++ bs.drop (start + width) = bs.drop start := by
  rw [← List.drop_drop, List.take_append_drop]

theorem take_last_word (start width : Nat) (h : bs.length = start + width) :
    (bs.drop start).take width = bs.drop start := by
  rw [List.take_of_length_le]
  rw [List.length_drop]
  omega

theorem requireLength_bind_eq_ok {α : Type} {length : Nat} {f : Unit → Outcome α} {a : α} :
    bs.requireLength length >>= f = .ok a ↔ bs.length = length ∧ f () = .ok a := by
  rw [bind_eq_ok]
  constructor
  · rintro ⟨_, hlength, ha⟩
    exact ⟨requireLength_eq_ok.mp hlength, ha⟩
  · rintro ⟨hlength, ha⟩
    exact ⟨(), requireLength_eq_ok.mpr hlength, ha⟩

end Bytes

open Bytes

variable {bs : Bytes}

theorem Delta.unpack_eq_ok_iff {d : Delta} :
    Delta.unpack bs = .ok d ↔ d.Made ∧ d.pack = bs := by
  rw [Delta.made_iff_inRange]
  constructor
  · intro h
    obtain ⟨hlength, hnew⟩ := requireLength_bind_eq_ok.mp h
    obtain ⟨hrange, rfl⟩ := Delta.new?_eq_ok.mp hnew
    refine ⟨hrange, ?_⟩
    rw [Delta.pack, ofInt_intAt (by omega), ofInt_natAt (by omega), take_last_word 8 4 hlength]
    exact take_append_drop_add bs 0 8
  · rintro ⟨hrange, rfl⟩
    rw [Delta.unpack_pack hrange.fitsWords, Delta.new?_of_inRange hrange]

theorem Date.unpack_eq_ok_iff {d : Date} : Date.unpack bs = .ok d ↔ d.Made ∧ d.pack = bs := by
  rw [Date.made_iff_inRange]
  constructor
  · intro h
    obtain ⟨hlength, hnew⟩ := requireLength_bind_eq_ok.mp h
    obtain ⟨hrange, rfl⟩ := Date.new?_eq_ok.mp hnew
    refine ⟨hrange, ?_⟩
    rw [Date.pack, ofInt_intAt (by omega), ofInt_natAt (by omega), ofInt_natAt (by omega),
      take_last_word 5 1 hlength, List.append_assoc, take_append_drop_add bs 4 1]
    exact take_append_drop_add bs 0 4
  · rintro ⟨hrange, rfl⟩
    rw [Date.unpack_pack hrange.fitsWords, Date.new?_eq_ok.mpr ⟨hrange, rfl⟩]

/-! ## Offsets -/

/-- The offset is the result of a call. -/
inductive Offset.Made : Offset → Prop
  | east {secs : Int} {o : Offset} (h : east secs = .ok o) : Made o
  | west {secs : Int} {o : Offset} (h : west secs = .ok o) : Made o
  | utc : Made utc

theorem Offset.made_iff_inRange {o : Offset} : o.Made ↔ o.InRange := by
  constructor
  · rintro (h | h | _)
    · obtain ⟨hrange, rfl⟩ := east_eq_ok.mp h
      exact hrange
    · simp only [west, bind_eq_ok, checkRange_eq_ok, pure_eq_ok] at h
      obtain ⟨_, ⟨hsecs, rfl⟩, rfl⟩ := h
      simp only [InRange]
      omega
    · decide
  · exact fun h => .east (east_eq_ok.mpr ⟨h, rfl⟩)

theorem Offset.unpack_eq_ok_iff {o : Offset} :
    Offset.unpack bs = .ok o ↔ o.Made ∧ o.pack = bs := by
  rw [Offset.made_iff_inRange]
  constructor
  · intro h
    obtain ⟨hlength, hnew⟩ := requireLength_bind_eq_ok.mp h
    obtain ⟨hrange, rfl⟩ := Offset.east_eq_ok.mp hnew
    refine ⟨hrange, ?_⟩
    rw [Offset.pack, ofInt_intAt (by omega)]
    exact take_last_word 0 4 hlength
  · rintro ⟨hrange, rfl⟩
    rw [Offset.unpack_pack hrange.fitsWords, Offset.east_eq_ok.mpr ⟨hrange, rfl⟩]

/-! ## Spans -/

namespace Span

variable {s : Span}

theorem ofParts_eq_ok {months days word nanos : Int} :
    ofParts months days word nanos = .ok s ↔
      (IsClockWord word ∧ nanos < nanosPerSecond) ∧ mk months days word nanos = s := by
  simp only [ofParts, bind_eq_ok, require_eq_ok, pure_eq_ok, exists_const]

/-- The length and two of the four words are checked. -/
theorem unpack_eq_ok_iff_words :
    Span.unpack bs = .ok s ↔ bs.length = 20 ∧
      (IsClockWord (bs.natAt 8 8) ∧ bs.natAt 16 4 < nanosPerSecond) ∧
      mk (bs.natAt 0 4) (bs.natAt 4 4) (bs.natAt 8 8) (bs.natAt 16 4) = s := by
  rw [Span.unpack, requireLength_bind_eq_ok, ofParts_eq_ok]

theorem unpack_eq_ok_iff :
    Span.unpack bs = .ok s ↔ (∃ calls, built calls = s) ∧ s.pack = bs := by
  rw [exists_built_iff]
  constructor
  · intro h
    obtain ⟨hlength, ⟨hword, hnanos⟩, rfl⟩ := unpack_eq_ok_iff_words.mp h
    refine ⟨⟨holds_natAt (by omega), holds_natAt (by omega), holds_natAt (by omega), hword,
      Int.natCast_nonneg _, hnanos⟩, ?_⟩
    rw [Span.pack, ofInt_natAt (by omega), ofInt_natAt (by omega), ofInt_natAt (by omega),
      ofInt_natAt (by omega), take_last_word 16 4 hlength, List.append_assoc, List.append_assoc,
      take_append_drop_add bs 8 8, take_append_drop_add bs 4 4]
    exact take_append_drop_add bs 0 4
  · rintro ⟨hs, rfl⟩
    rw [Span.unpack_pack hs.fitsWords, hs.ofParts]

/-- Which word is accepted as minutes and seconds does not depend on the other words. -/
theorem exists_unpack_iff :
    (∃ s, Span.unpack bs = .ok s) ↔
      bs.length = 20 ∧ MadeWord (bs.natAt 8 8) ∧ bs.natAt 16 4 < nanosPerSecond := by
  simp only [unpack_eq_ok_iff_words, madeWord_iff]
  constructor
  · rintro ⟨s, hlength, ⟨hword, hnanos⟩, -⟩
    exact ⟨hlength, ⟨holds_natAt (by omega), hword⟩, hnanos⟩
  · rintro ⟨hlength, ⟨-, hword⟩, hnanos⟩
    exact ⟨_, hlength, ⟨hword, hnanos⟩, rfl⟩

end Span

/-- Bytes are unpacked exactly if they are the packed form of a value that can be made, and then
give this value. For spans this comes down to the clock word being one that a builder gives. -/
theorem unpack_accepts_made (bs : Bytes) :
    (∀ d, Delta.unpack bs = .ok d ↔ d.Made ∧ d.pack = bs) ∧
    (∀ s, Span.unpack bs = .ok s ↔ (∃ calls, Span.built calls = s) ∧ s.pack = bs) ∧
    (∀ o, Offset.unpack bs = .ok o ↔ o.Made ∧ o.pack = bs) ∧
    (∀ d, Date.unpack bs = .ok d ↔ d.Made ∧ d.pack = bs) ∧
    ((∃ s, Span.unpack bs = .ok s) ↔
      bs.length = 20 ∧ Span.MadeWord (bs.natAt 8 8) ∧ bs.natAt 16 4 < nanosPerSecond) :=
  ⟨fun _ => Delta.unpack_eq_ok_iff, fun _ => Span.unpack_eq_ok_iff,
    fun _ => Offset.unpack_eq_ok_iff, fun _ => Date.unpack_eq_ok_iff, Span.exists_unpack_iff⟩

end CivilTime
