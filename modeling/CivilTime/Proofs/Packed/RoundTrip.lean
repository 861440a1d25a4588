import CivilTime.Proofs.Date.RoundTrip
import CivilTime.Proofs.Packed
import CivilTime.Proofs.TimeOfDay.Sum

/-!
# Packed forms that are read back

Each number of a packed form has a word of its own, with a sign or without one. A number that
its word has room for is read back from it, whatever is packed beside it. So a value whose
numbers all have room is packed without a fault. When it is unpacked, the kinds that are checked
are made anew from the same numbers, and the others have them as they were.
-/

namespace CivilTime

namespace Bytes

variable {front bs : Bytes} {start width : Nat} {n : Int}

/-! ## Words -/

/-- A word of `width` bytes without a sign has room for the number. -/
def Holds (width : Nat) (n : Int) : Prop := 0 ≤ n ∧ n < wordSize width

/-- A word of `width` bytes in two's complement has room for the number. -/
def HoldsSigned (width : Nat) (n : Int) : Prop :=
  -(wordSize width : Int) ≤ 2 * n ∧ 2 * n < wordSize width

theorem wordSize_pos (width : Nat) : 0 < wordSize width := by
  induction width with
  | zero => exact Nat.one_pos
  | succ width ih =>
    rw [wordSize]
    omega

theorem toInt_ofInt (h : HoldsSigned width n) : (ofInt width n).toInt = n := by
  have hpos := wordSize_pos width
  obtain ⟨hlo, hhi⟩ := h
  have hnat : ((ofInt width n).toNat : Int) = n % wordSize width := by
    have hnonneg := Int.emod_nonneg n (Int.natCast_ne_zero.mpr (Nat.ne_of_gt hpos))
    have hlt := Int.emod_lt_of_pos n (Int.natCast_pos.mpr hpos)
    rw [ofInt, toNat_ofNat, Nat.mod_eq_of_lt (by omega), Int.toNat_of_nonneg hnonneg]
  rw [toInt, length_ofInt]
  by_cases hneg : n < 0
  · have hmod : n % wordSize width = n + wordSize width := by
      rw [← Int.add_emod_right, Int.emod_eq_of_lt (by omega) (by omega)]
    rw [if_neg (by omega)]
    omega
  · have hmod : n % wordSize width = n := Int.emod_eq_of_lt (by omega) (by omega)
    rw [if_pos (by omega)]
    omega

/-! ## Words beside other words -/

theorem drop_append_of_length_le (h : front.length ≤ start) :
    (front ++ bs).drop start = bs.drop (start - front.length) := by
  rw [List.drop_append, List.drop_eq_nil_of_le h, List.nil_append]

/-- What is packed in front of a word does not matter. -/
@[simp] theorem natAt_append_of_length_le (h : front.length ≤ start) :
    natAt (front ++ bs) start width = natAt bs (start - front.length) width := by
  rw [natAt, natAt, drop_append_of_length_le h]

@[simp] theorem intAt_append_of_length_le (h : front.length ≤ start) :
    intAt (front ++ bs) start width = intAt bs (start - front.length) width := by
  rw [intAt, intAt, drop_append_of_length_le h]

@[simp] theorem natAt_ofInt_append (h : Holds width n) (bs : Bytes) :
    natAt (ofInt width n ++ bs) 0 width = n := by
  rw [natAt, List.drop_zero, List.take_left' (length_ofInt width n), toNat_ofInt h.1 h.2]

@[simp] theorem natAt_ofInt (h : Holds width n) : natAt (ofInt width n) 0 width = n := by
  rw [← List.append_nil (ofInt width n), natAt_ofInt_append h]

@[simp] theorem intAt_ofInt_append (h : HoldsSigned width n) (bs : Bytes) :
    intAt (ofInt width n ++ bs) 0 width = n := by
  rw [intAt, List.drop_zero, List.take_left' (length_ofInt width n), toInt_ofInt h]

@[simp] theorem intAt_ofInt (h : HoldsSigned width n) : intAt (ofInt width n) 0 width = n := by
  rw [← List.append_nil (ofInt width n), intAt_ofInt_append h]

theorem requireLength_eq_ok {length : Nat} :
    bs.requireLength length = .ok () ↔ bs.length = length := by
  rw [requireLength]
  split
  case isTrue h => exact ⟨fun _ => h, fun _ => rfl⟩
  case isFalse h => exact ⟨nofun, fun hlength => absurd hlength h⟩

theorem ofWord_of_holds (h : Holds 4 n) : ofWord n = .ok (ofInt 4 n) := by
  refine ofWord_eq_ok.mpr ⟨⟨h.1, ?_⟩, rfl⟩
  have := h.2
  simp only [wordSize, maxU32] at *
  omega

end Bytes

open Bytes

/-! ## Values that are made anew -/

/-- The words of the packed form have room for the numbers. -/
def Delta.FitsWords (d : Delta) : Prop := HoldsSigned 8 d.secs ∧ Holds 4 d.nanos

theorem Delta.InRange.fitsWords {d : Delta} (h : d.InRange) : d.FitsWords := by
  obtain ⟨hcanonical, hmin, hmax⟩ := h
  change -9223372036854776 < d.secs ∨ -9223372036854776 = d.secs ∧ 193000000 ≤ d.nanos at hmin
  change d.secs < 9223372036854775 ∨ d.secs = 9223372036854775 ∧ d.nanos ≤ 807000000 at hmax
  simp only [FitsWords, HoldsSigned, Holds, Canonical, nanosPerSecond, wordSize] at *
  omega

theorem Delta.new?_of_inRange {d : Delta} (h : d.InRange) : Delta.new? d.secs d.nanos = .ok d := by
  obtain ⟨hsecs, hnanos⟩ := h.fitsWords
  have hcheck : check? ⟨d.secs, d.nanos⟩ = some d := if_pos h.2
  simp only [new?, bind_eq_ok, checkRange_eq_ok, require_eq_ok, orExceeds_eq_ok]
  refine ⟨_, ⟨?_, rfl⟩, _, ⟨?_, rfl⟩, (), h.1.2, hcheck⟩
  · simp only [HoldsSigned, wordSize, minI64, maxI64] at *
    omega
  · simp only [Holds, wordSize, maxU32] at *
    omega

theorem Delta.unpack_pack {d : Delta} (h : d.FitsWords) :
    Delta.unpack d.pack = Delta.new? d.secs d.nanos := by
  have hlength : d.pack.length = 12 := by simp [Delta.pack]
  rw [Delta.unpack, requireLength_eq_ok.mpr hlength, ok_bind]
  simp [Delta.pack, h.1, h.2]

@[inherit_doc Delta.FitsWords]
def Span.FitsWords (s : Span) : Prop :=
  Holds 4 s.months ∧ Holds 4 s.days ∧ Holds 8 s.word ∧ Holds 4 s.nanos

theorem Span.unpack_pack {s : Span} (h : s.FitsWords) :
    Span.unpack s.pack = Span.ofParts s.months s.days s.word s.nanos := by
  obtain ⟨hmonths, hdays, hword, hnanos⟩ := h
  have hlength : s.pack.length = 20 := by simp [Span.pack]
  rw [Span.unpack, requireLength_eq_ok.mpr hlength, ok_bind]
  simp [Span.pack, hmonths, hdays, hword, hnanos]

@[inherit_doc Delta.FitsWords]
def Offset.FitsWords (o : Offset) : Prop := HoldsSigned 4 o.secs

theorem Offset.InRange.fitsWords {o : Offset} (h : o.InRange) : o.FitsWords := by
  simp only [InRange, FitsWords, HoldsSigned, wordSize] at *
  omega

theorem Offset.east_eq_ok {secs : Int} {o : Offset} :
    Offset.east secs = .ok o ↔ (mk secs).InRange ∧ mk secs = o := by
  simp only [east, bind_eq_ok, checkRange_eq_ok, pure_eq_ok]
  constructor
  · rintro ⟨_, ⟨hsecs, rfl⟩, ho⟩
    exact ⟨hsecs, ho⟩
  · rintro ⟨hsecs, ho⟩
    exact ⟨_, ⟨hsecs, rfl⟩, ho⟩

theorem Offset.unpack_pack {o : Offset} (h : o.FitsWords) :
    Offset.unpack o.pack = Offset.east o.secs := by
  have hlength : o.pack.length = 4 := by simp [Offset.pack]
  have hsecs : HoldsSigned 4 o.secs := h
  rw [Offset.unpack, requireLength_eq_ok.mpr hlength, ok_bind]
  simp [Offset.pack, hsecs]

@[inherit_doc Delta.FitsWords]
def Date.FitsWords (d : Date) : Prop := HoldsSigned 4 d.year ∧ Holds 1 d.month ∧ Holds 1 d.day

/-- The months and days of the calendar have room, so that only the year counts. -/
theorem Date.IsReal.fitsWords {d : Date} (h : d.IsReal) (hyear : HoldsSigned 4 d.year) :
    d.FitsWords := by
  have hlength := Calendar.daysInMonth_bounds d.year d.month
  obtain ⟨hmonth, hday⟩ := h
  refine ⟨hyear, ?_, ?_⟩
  · simp only [Holds, wordSize]
    omega
  · simp only [Holds, wordSize]
    omega

theorem Date.InRange.fitsWords {d : Date} (h : d.InRange) : d.FitsWords := by
  refine h.2.fitsWords ?_
  have := h.1
  simp only [YearInRange, minYear, maxYear, HoldsSigned, wordSize] at *
  omega

theorem Date.unpack_pack {d : Date} (h : d.FitsWords) :
    Date.unpack d.pack = Date.new? d.year d.month d.day := by
  obtain ⟨hyear, hmonth, hday⟩ := h
  rw [Date.unpack, requireLength_eq_ok.mpr d.length_pack, ok_bind]
  simp [Date.pack, hyear, hmonth, hday]

/-! ## Values that are taken as they are -/

@[inherit_doc Delta.FitsWords]
def TimeOfDay.FitsWords (t : TimeOfDay) : Prop := Holds 4 t.secs ∧ Holds 4 t.frac

theorem TimeOfDay.OnClock.fitsWords {t : TimeOfDay} (h : t.OnClock) : t.FitsWords := by
  simp only [OnClock, FitsWords, Holds, secondsPerDay, nanosPerSecond, wordSize] at *
  omega

theorem TimeOfDay.pack_of_fitsWords {t : TimeOfDay} (h : t.FitsWords) :
    t.pack = .ok (ofInt 4 t.secs ++ ofInt 4 t.frac) := by
  rw [TimeOfDay.pack, ofWord_of_holds h.1, ofWord_of_holds h.2]
  rfl

theorem TimeOfDay.unpack_pack {t : TimeOfDay} (h : t.FitsWords) :
    t.pack >>= TimeOfDay.unpack = .ok t := by
  obtain ⟨hsecs, hfrac⟩ := h
  have hlength : (ofInt 4 t.secs ++ ofInt 4 t.frac).length = 8 := by simp
  rw [TimeOfDay.pack_of_fitsWords ⟨hsecs, hfrac⟩, ok_bind, TimeOfDay.unpack,
    requireLength_eq_ok.mpr hlength, ok_bind]
  simp [hsecs, hfrac, pure_eq_ok]

@[inherit_doc Delta.FitsWords]
def LocalDateTime.FitsWords (t : LocalDateTime) : Prop := t.date.FitsWords ∧ t.time.FitsWords

theorem LocalDateTime.Valid.fitsWords {t : LocalDateTime} (h : t.Valid) : t.FitsWords :=
  ⟨h.1.fitsWords, h.2.onClock.fitsWords⟩

theorem LocalDateTime.pack_of_fitsWords {t : LocalDateTime} (h : t.FitsWords) :
    t.pack = .ok (t.date.pack ++ (ofInt 4 t.time.secs ++ ofInt 4 t.time.frac)) := by
  rw [LocalDateTime.pack, TimeOfDay.pack_of_fitsWords h.2]
  rfl

theorem LocalDateTime.unpack_packed {t : LocalDateTime} (h : t.FitsWords) :
    LocalDateTime.unpack (t.date.pack ++ (ofInt 4 t.time.secs ++ ofInt 4 t.time.frac)) = .ok t := by
  obtain ⟨⟨hyear, hmonth, hday⟩, hsecs, hfrac⟩ := h
  have hlength : (t.date.pack ++ (ofInt 4 t.time.secs ++ ofInt 4 t.time.frac)).length = 14 := by
    simp [Date.length_pack]
  rw [LocalDateTime.unpack, requireLength_eq_ok.mpr hlength, ok_bind]
  simp [Date.pack, hyear, hmonth, hday, hsecs, hfrac, pure_eq_ok]

theorem LocalDateTime.unpack_pack {t : LocalDateTime} (h : t.FitsWords) :
    t.pack >>= LocalDateTime.unpack = .ok t := by
  rw [LocalDateTime.pack_of_fitsWords h, ok_bind]
  exact LocalDateTime.unpack_packed h

@[inherit_doc Delta.FitsWords]
def OffsetDateTime.FitsWords (t : OffsetDateTime) : Prop := t.utc.FitsWords ∧ t.offset.FitsWords

theorem OffsetDateTime.Valid.fitsWords {t : OffsetDateTime} (h : t.Valid) : t.FitsWords :=
  ⟨h.1.fitsWords, h.2.fitsWords⟩

theorem OffsetDateTime.unpack_pack {t : OffsetDateTime} (h : t.FitsWords) :
    t.pack >>= OffsetDateTime.unpack = .ok t := by
  obtain ⟨hutc, hsecs⟩ := h
  have hoffset : HoldsSigned 4 t.offset.secs := hsecs
  rw [OffsetDateTime.pack, LocalDateTime.pack_of_fitsWords hutc, ok_bind]
  generalize hbs : t.utc.date.pack ++ (ofInt 4 t.utc.time.secs ++ ofInt 4 t.utc.time.frac) = bs
  change OffsetDateTime.unpack (bs ++ t.offset.pack) = _
  have hcut : (bs ++ t.offset.pack).length - 4 = bs.length := by simp [Offset.pack]
  have hlast : requireLength t.offset.pack 4 = .ok () :=
    requireLength_eq_ok.mpr (by simp [Offset.pack])
  have hunpack : LocalDateTime.unpack bs = .ok t.utc := by
    rw [← hbs]
    exact LocalDateTime.unpack_packed hutc
  simp only [OffsetDateTime.unpack, hcut, List.drop_left, List.take_left, hlast, hunpack, ok_bind]
  simp [Offset.pack, hoffset, pure_eq_ok]

end CivilTime
