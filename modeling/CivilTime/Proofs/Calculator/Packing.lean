import CivilTime.Calculator.Value
import CivilTime.Proofs.Span

/-!
# Values that are packed and unpacked

Every value that a constructor or a builder makes can be packed: its numbers have room in the
words of the layout of its kind. Unpacking gives the value back with all its parts, also those
that comparisons leave out, such as the offset of a moment.
-/

namespace CivilTime

/-- The kind of the values that have a layout. -/
def Layout.kind : Layout → Kind
  | delta => .delta
  | span => .span
  | offset => .offset
  | months => .months
  | days => .days
  | date => .date
  | time => .time
  | localDateTime => .localDateTime
  | offsetDateTime => .offsetDateTime

namespace Value

variable {v payload : Value} {layout : Layout}

/-- The words of the packed form have room for the numbers of the value. A count of months or
days is not put into words. -/
def FitsWords : Value → Prop
  | delta d => d.FitsWords
  | span s => s.FitsWords
  | offset o => o.FitsWords
  | date d => d.FitsWords
  | time t => t.FitsWords
  | localDateTime t => t.FitsWords
  | offsetDateTime t => t.FitsWords
  | _ => True

/-- The values that constructors and builders make. -/
def Constructible : Value → Prop
  | delta d => d.InRange
  | span s => ∃ calls, Span.built calls = s
  | offset o => o.InRange
  | months m => m.InRange
  | days d => d.InRange
  | date d => d.InRange
  | time t => t.Valid
  | localDateTime t => t.Valid
  | offsetDateTime t => t.Valid
  | _ => False

theorem Constructible.fitsWords (h : v.Constructible) : v.FitsWords := by
  cases v with
  | delta => exact Delta.InRange.fitsWords h
  | span s =>
    obtain ⟨calls, rfl⟩ := h
    exact (Span.wellFormed_built calls).fitsWords
  | offset => exact Offset.InRange.fitsWords h
  | date => exact Date.InRange.fitsWords h
  | time => exact (TimeOfDay.Valid.onClock h).fitsWords
  | localDateTime => exact LocalDateTime.Valid.fitsWords h
  | offsetDateTime => exact OffsetDateTime.Valid.fitsWords h
  | _ => trivial

theorem kind_of_pack (h : v.pack = .ok (layout, payload)) : layout.kind = v.kind := by
  cases v with
  | delta | span | offset | months | days | date =>
    cases h
    rfl
  | time | localDateTime | offsetDateTime =>
    simp only [pack, bind_eq_ok, pure_eq_ok] at h
    obtain ⟨bs, -, h⟩ := h
    cases h
    rfl
  | _ => cases h

theorem repack_eq_ok {w : Value} :
    v.repack = .ok w ↔
      ∃ layout payload, v.pack = .ok (layout, payload) ∧ unpack layout payload = .ok w := by
  rw [repack, bind_eq_ok, Prod.exists]

/-! ## Each kind -/

/-- A value with a packed form of bytes becomes what its bytes are unpacked to. -/
theorem repack_eq_map {α : Type} {x : Outcome Bytes} {read : Bytes → Outcome α} {make : α → Value}
    (hpack : v.pack = x >>= fun bs => .ok (layout, bytes bs))
    (hunpack : ∀ bs, unpack layout (bytes bs) = make <$> read bs) :
    v.repack = make <$> (x >>= read) := by
  rw [repack, hpack]
  cases x with
  | ok bs => exact hunpack bs
  | error fault => rfl

theorem repack_delta {d : Delta} (h : d.FitsWords) :
    (delta d).repack = delta <$> Delta.new? d.secs d.nanos := by
  rw [repack_eq_map (x := .ok d.pack) rfl fun _ => rfl, ok_bind, Delta.unpack_pack h]

theorem repack_span {s : Span} (h : s.FitsWords) :
    (span s).repack = span <$> Span.ofParts s.months s.days s.word s.nanos := by
  rw [repack_eq_map (x := .ok s.pack) rfl fun _ => rfl, ok_bind, Span.unpack_pack h]

theorem repack_offset {o : Offset} (h : o.FitsWords) :
    (offset o).repack = offset <$> Offset.east o.secs := by
  rw [repack_eq_map (x := .ok o.pack) rfl fun _ => rfl, ok_bind, Offset.unpack_pack h]

theorem repack_date {d : Date} (h : d.FitsWords) :
    (date d).repack = date <$> Date.new? d.year d.month d.day := by
  rw [repack_eq_map (x := .ok d.pack) rfl fun _ => rfl, ok_bind, Date.unpack_pack h]

theorem repack_time {t : TimeOfDay} (h : t.FitsWords) : (time t).repack = .ok (time t) := by
  rw [repack_eq_map (x := t.pack) rfl fun _ => rfl, TimeOfDay.unpack_pack h]
  rfl

theorem repack_localDateTime {t : LocalDateTime} (h : t.FitsWords) :
    (localDateTime t).repack = .ok (localDateTime t) := by
  rw [repack_eq_map (x := t.pack) rfl fun _ => rfl, LocalDateTime.unpack_pack h]
  rfl

theorem repack_offsetDateTime {t : OffsetDateTime} (h : t.FitsWords) :
    (offsetDateTime t).repack = .ok (offsetDateTime t) := by
  rw [repack_eq_map (x := t.pack) rfl fun _ => rfl, OffsetDateTime.unpack_pack h]
  rfl

theorem repack_months {m : Months} (h : m.InRange) : (months m).repack = .ok (months m) := by
  have hnew : Months.new? m.count = .ok m := by
    simp only [Months.new?, bind_eq_ok, checkRange_eq_ok, pure_eq_ok]
    exact ⟨_, ⟨h, rfl⟩, rfl⟩
  exact congrArg (months <$> ·) hnew

theorem repack_days {d : Days} (h : d.InRange) : (days d).repack = .ok (days d) := by
  have hnew : Days.new? d.count = .ok d := by
    simp only [Days.new?, bind_eq_ok, checkRange_eq_ok, pure_eq_ok]
    exact ⟨_, ⟨h, rfl⟩, rfl⟩
  exact congrArg (days <$> ·) hnew

theorem Constructible.repack (h : v.Constructible) : v.repack = .ok v := by
  cases v with
  | delta d =>
    rw [repack_delta h.fitsWords, Delta.new?_of_inRange h]
    rfl
  | span s =>
    have hfits : s.FitsWords := h.fitsWords
    obtain ⟨calls, rfl⟩ := h
    rw [repack_span hfits, (Span.wellFormed_built calls).ofParts]
    rfl
  | offset o =>
    rw [repack_offset h.fitsWords, Offset.east_eq_ok.mpr ⟨h, rfl⟩]
    rfl
  | months m => exact repack_months h
  | days d => exact repack_days h
  | date d =>
    rw [repack_date h.fitsWords, Date.new?_eq_ok.mpr ⟨h, rfl⟩]
    rfl
  | time t => exact repack_time h.fitsWords
  | localDateTime t => exact repack_localDateTime h.fitsWords
  | offsetDateTime t => exact repack_offsetDateTime h.fitsWords
  | _ => exact h.elim

/-- A value as constructors and builders make it has room in the words of the layout of its
kind, is packed, and is unpacked as it was. -/
theorem unpack_pack_exact (h : v.Constructible) :
    v.FitsWords ∧ ∃ layout payload, v.pack = .ok (layout, payload) ∧ layout.kind = v.kind ∧
      unpack layout payload = .ok v := by
  obtain ⟨layout, payload, hpack, hunpack⟩ := repack_eq_ok.mp h.repack
  exact ⟨h.fitsWords, layout, payload, hpack, kind_of_pack hpack, hunpack⟩

/-- The largest clock word there is, with as many minutes as fit beside second 60. -/
theorem unpack_pack_exact_longest_clock :
    let s : Span := ⟨0, 0, 18446744073709551603, 0⟩
    Span.built [.hms 1200959900632132 15 60] = s ∧
      ∃ layout payload, (span s).pack = .ok (layout, payload) ∧ layout.kind = .span ∧
        unpack layout payload = .ok (span s) := by
  intro s
  have hbuilt : Span.built [.hms 1200959900632132 15 60] = s := by decide
  exact ⟨hbuilt, (unpack_pack_exact (v := span s) ⟨_, hbuilt⟩).2⟩

end Value

end CivilTime
