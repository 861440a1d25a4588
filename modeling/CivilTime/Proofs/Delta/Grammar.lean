import CivilTime.Proofs.Delta.Construction
import CivilTime.Proofs.Text.Numeral

/-!
# The texts that are read as deltas

The text of a delta is `P0D`, or a number of seconds between `PT` and `S`, with up to nine
decimals and a minus sign in front if it is negative. A delta is read from exactly these texts,
and is the number that is written, to the last decimal. A number beyond the range of deltas and
one with too many digits are faults of their own; whatever else a text is, the fault is its
format. The text that a delta is written as is read back as the delta.
-/

namespace CivilTime

open Text

/-! ## Numbers of seconds -/

/-- A number of seconds as it is written, with up to nine decimals. -/
structure SecondsText where
  whole : Numeral
  decimals : Option (ShortNumeral 9)

namespace SecondsText

/-- The decimals without the bound on their number. -/
def fraction (x : SecondsText) : Option Numeral := x.decimals.map (·.toNumeral)

/-- The text that the parts make up. -/
def chars (x : SecondsText) : List Char :=
  'P' :: 'T' :: (x.whole.digits ++ (decimalChars x.fraction ++ ['S']))

/-- The number of seconds. -/
def value (x : SecondsText) : ℚ := x.whole.value + decimalValue (decimalDigits x.fraction)

/-- The delta of so many seconds, which can be out of range. -/
def magnitude (x : SecondsText) : Delta :=
  ⟨x.whole.value, readFraction 9 (decimalDigits x.fraction)⟩

variable {cs : List Char}

theorem length_decimals_le (x : SecondsText) : (decimalDigits x.fraction).length ≤ 9 := by
  obtain ⟨whole, decimals⟩ := x
  cases decimals with
  | none => exact Nat.zero_le 9
  | some n => exact n.length_le

theorem canonical_magnitude (x : SecondsText) : x.magnitude.Canonical := by
  have := readFraction_lt 9 (isDigit_of_mem_decimalDigits x.fraction)
  simp only [magnitude, Delta.Canonical, nanosPerSecond]
  omega

/-- Nine decimals are nanoseconds, so that nothing is cut off. -/
theorem total_magnitude (x : SecondsText) :
    (x.magnitude.total : ℚ) = x.value * nanosPerSecond := by
  have hdecimals := readFraction_eq_of_length_le x.length_decimals_le
  simp only [magnitude, Delta.total, value, nanosPerSecond]
  push_cast
  rw [hdecimals]
  ring

/-! ### Reading -/

theorem noDigitAhead_decimals (x : SecondsText) :
    NoDigitAhead (decimalChars x.fraction ++ ['S']) := by
  cases x.fraction with
  | none => exact noDigitAhead_cons.mpr (by decide)
  | some n => exact noDigitAhead_cons.mpr (by decide)

theorem takeFraction?_decimals (x : SecondsText) :
    takeFraction? (decimalChars x.fraction ++ ['S']) =
      some (decimalDigits x.fraction, ['S']) := by
  cases x.fraction with
  | none => rfl
  | some n => exact n.takeDigits?_append (noDigitAhead_cons.mpr (by decide))

theorem readMagnitude?_chars (x : SecondsText) :
    Delta.readMagnitude? x.chars = some (x.magnitude.secs, x.magnitude.nanos) := by
  have hP := expect?_eq_some_iff.mpr (Eq.refl x.chars)
  have hT := expect?_eq_some_iff.mpr
    (Eq.refl ('T' :: (x.whole.digits ++ (decimalChars x.fraction ++ ['S']))))
  have hS := expect?_eq_some_iff.mpr (Eq.refl ['S'])
  have hlength := x.length_decimals_le
  rw [Delta.readMagnitude?]
  simp only [Option.bind_eq_bind]
  rw [hP, Option.bind_some, hT, Option.bind_some,
    x.whole.takeDigits?_append x.noDigitAhead_decimals, Option.bind_some]
  simp only [takeFraction?_decimals, Option.bind_some, hS, hlength, true_and, if_true]
  rfl

theorem exists_of_readMagnitude? {secs nanos : Int}
    (h : Delta.readMagnitude? cs = some (secs, nanos)) :
    ∃ x : SecondsText, x.chars = cs ∧ x.magnitude = ⟨secs, nanos⟩ := by
  simp only [Delta.readMagnitude?, bind, Option.bind_eq_some_iff, Prod.exists] at h
  obtain ⟨cs₁, hP, cs₂, hT, whole', cs₃, hwhole, frac, cs₄, hfrac, cs₅, hS, hfields⟩ := h
  obtain ⟨⟨hlength, rfl⟩, hnumbers⟩ := Option.ite_none_right_eq_some.mp hfields
  obtain ⟨whole, rfl, rfl⟩ := exists_numeral_of_takeDigits? hwhole
  obtain ⟨decimals, rfl, rfl⟩ := exists_decimals_of_takeFraction? hfrac
  obtain rfl := expect?_eq_some_iff.mp hP
  obtain rfl := expect?_eq_some_iff.mp hT
  obtain rfl := expect?_eq_some_iff.mp hS
  obtain ⟨rfl, rfl⟩ := Prod.mk.inj (Option.some.inj hnumbers)
  cases decimals with
  | none => exact ⟨⟨whole, none⟩, rfl, rfl⟩
  | some n => exact ⟨⟨whole, some ⟨n, hlength⟩⟩, rfl, rfl⟩

/-- The digits of the whole seconds come first. -/
theorem firstNumber_chars (x : SecondsText) : firstNumber x.chars = x.whole.digits :=
  firstNumber_append x.whole.isDigit x.whole.ne_nil x.noDigitAhead_decimals

end SecondsText

/-! ## Deltas -/

/-- The parts of the text of a delta. -/
inductive DeltaText where
  /-- The zero delta, as it is written. -/
  | zero
  | plain (x : SecondsText)
  | negative (x : SecondsText)

namespace DeltaText

/-- The text that the parts make up. -/
def chars : DeltaText → List Char
  | zero => ['P', '0', 'D']
  | plain x => x.chars
  | negative x => '-' :: x.chars

/-- The number of seconds. -/
def seconds : DeltaText → ℚ
  | zero => 0
  | plain x => x.value
  | negative x => -x.value

/-- The digits of the first number in the text. -/
def numeral : DeltaText → List Char
  | zero => ['0']
  | plain x | negative x => x.whole.digits

/-- The number has no more digits than are read. -/
def Readable (x : DeltaText) : Prop := x.numeral.length ≤ mostDigits

instance : DecidablePred Readable := fun _ => inferInstanceAs (Decidable (_ ≤ _))

/-- There are no more seconds than in the longest delta, either way. -/
def InRange (x : DeltaText) : Prop := |x.seconds| * nanosPerSecond ≤ Delta.max.total

/-- The sign and the numbers that are read. -/
def fields : DeltaText → Bool × Int × Int
  | zero => (false, 0, 0)
  | plain x => (false, x.magnitude.secs, x.magnitude.nanos)
  | negative x => (true, x.magnitude.secs, x.magnitude.nanos)

variable {cs : List Char}

theorem readFields?_chars (x : DeltaText) : Delta.readFields? x.chars = some x.fields := by
  cases x with
  | zero => rfl
  | plain x =>
    have hread := x.readMagnitude?_chars
    rw [chars, Delta.readFields?.eq_def, if_neg (by simp [SecondsText.chars])]
    exact congrArg (Option.map _) hread
  | negative x =>
    have hread := x.readMagnitude?_chars
    rw [chars, Delta.readFields?.eq_def, if_neg (by simp)]
    exact congrArg (Option.map _) hread

theorem exists_of_readFields? {numbers : Bool × Int × Int}
    (h : Delta.readFields? cs = some numbers) : ∃ x : DeltaText, x.chars = cs ∧ x.fields = numbers := by
  rw [Delta.readFields?.eq_def] at h
  split at h
  case isTrue hzero => exact ⟨zero, hzero.symm, Option.some.inj h⟩
  case isFalse =>
    split at h
    all_goals
      obtain ⟨⟨secs, nanos⟩, hread, rfl⟩ := Option.map_eq_some_iff.mp h
      obtain ⟨x, rfl, hx⟩ := SecondsText.exists_of_readMagnitude? hread
    · exact ⟨negative x, rfl, by rw [fields, hx]⟩
    · exact ⟨plain x, rfl, by rw [fields, hx]⟩

theorem firstNumber_chars (x : DeltaText) : firstNumber x.chars = x.numeral := by
  cases x with
  | zero => rfl
  | plain x | negative x => exact x.firstNumber_chars

theorem requireReadable_chars (x : DeltaText) :
    requireReadable x.chars =
      if x.Readable then .ok () else .error (.tooManyDigits x.numeral.length) := by
  rw [requireReadable, x.firstNumber_chars]
  rfl

/-! ### The delta of a text -/

/-- The delta of so many seconds, which can be out of range. -/
def delta : DeltaText → Delta
  | zero => .zero
  | plain x => x.magnitude
  | negative x => -x.magnitude

theorem canonical_delta (x : DeltaText) : x.delta.Canonical := by
  cases x with
  | zero => exact Delta.canonical_zero
  | plain x => exact x.canonical_magnitude
  | negative x => exact Delta.canonical_neg x.canonical_magnitude

theorem total_delta (x : DeltaText) : (x.delta.total : ℚ) = x.seconds * nanosPerSecond := by
  cases x with
  | zero => simp [delta, seconds]
  | plain x => exact x.total_magnitude
  | negative x =>
    rw [delta, Delta.total_neg, Int.cast_neg, x.total_magnitude, seconds]
    ring

/-- A canonical delta is told by its number of seconds. -/
theorem delta_eq_iff {x : DeltaText} {d : Delta} :
    x.delta = d ↔ d.Canonical ∧ (d.total : ℚ) = x.seconds * nanosPerSecond := by
  constructor
  · rintro rfl
    exact ⟨x.canonical_delta, x.total_delta⟩
  · rintro ⟨hcanonical, htotal⟩
    refine Delta.eq_of_total_eq x.canonical_delta hcanonical ?_
    exact_mod_cast x.total_delta.trans htotal.symm

theorem inRange_iff (x : DeltaText) : x.InRange ↔ x.delta.InRange := by
  have hnanos : |x.seconds| * nanosPerSecond = (|x.delta.total| : ℤ) := by
    rw [Int.cast_abs, x.total_delta, abs_mul]
    rfl
  rw [InRange, hnanos, Delta.inRange_iff x.canonical_delta, ← abs_le]
  exact Int.cast_le

instance : DecidablePred InRange := fun x => decidable_of_iff _ x.inRange_iff.symm

end DeltaText

namespace Delta

variable {s : String} {d : Delta} {x : DeltaText}

theorem inRange_neg_iff (h : d.Canonical) : (-d).InRange ↔ d.InRange := by
  rw [inRange_iff h, inRange_iff (canonical_neg h), total_neg]
  omega

theorem orExceeds_check? (h : d.Canonical) (limit : Limit) :
    orExceeds d.check? limit = if d.InRange then .ok d else .error (.outOfRange limit) := by
  by_cases hrange : d.InRange
  · rw [if_pos hrange, check?, if_pos hrange.2]
    rfl
  · rw [if_neg hrange, check?, if_neg fun hbounds => hrange ⟨h, hbounds⟩]
    rfl

/-! ## Reading -/

/-- The sign is put on only after the magnitude has been checked. This makes no difference, since
the range is symmetric. -/
theorem parse_of_text (h : x.chars = s.toList) :
    parse s =
      if x.Readable then
        if x.InRange then .ok x.delta else .error (.outOfRange .delta)
      else .error (.tooManyDigits x.numeral.length) := by
  rw [parse, parseFields, ← h, x.readFields?_chars]
  dsimp only
  rw [x.requireReadable_chars]
  by_cases hreadable : x.Readable
  · have hrange := x.inRange_iff
    simp only [if_pos hreadable, hrange]
    cases x with
    | zero => rfl
    | plain x =>
      simp only [DeltaText.fields, ok_bind, pure_bind, Bool.false_eq_true, if_false, bind_pure]
      exact orExceeds_check? x.canonical_magnitude .delta
    | negative x =>
      simp only [DeltaText.fields, ok_bind, pure_bind, if_true]
      rw [orExceeds_check? x.canonical_magnitude]
      simp only [DeltaText.delta, inRange_neg_iff x.canonical_magnitude]
      split <;> rfl
  · rw [if_neg hreadable, if_neg hreadable]
    rfl

theorem parse_of_no_text (h : ¬∃ x : DeltaText, x.chars = s.toList) :
    parse s = .error (.badText s) := by
  have hnone : readFields? s.toList = none := by
    rw [Option.eq_none_iff_forall_ne_some]
    intro numbers hread
    obtain ⟨x, hx, -⟩ := DeltaText.exists_of_readFields? hread
    exact h ⟨x, hx⟩
  rw [parse, parseFields, hnone]
  rfl

/-- What becomes of a text, which is that of a delta or not. -/
inductive Parsed (s : String) : Outcome Delta → Prop
  | read {x : DeltaText} (hx : x.chars = s.toList) (hreadable : x.Readable) (hrange : x.InRange) :
      Parsed s (.ok x.delta)
  | exceeds {x : DeltaText} (hx : x.chars = s.toList) (hreadable : x.Readable)
      (hrange : ¬x.InRange) : Parsed s (.error (.outOfRange .delta))
  | tooLong {x : DeltaText} (hx : x.chars = s.toList) (hreadable : ¬x.Readable) :
      Parsed s (.error (.tooManyDigits x.numeral.length))
  | noText (h : ¬∃ x : DeltaText, x.chars = s.toList) : Parsed s (.error (.badText s))

theorem parsed_of_eq {outcome : Outcome Delta} (h : parse s = outcome) : Parsed s outcome := by
  subst h
  by_cases htext : ∃ x : DeltaText, x.chars = s.toList
  · obtain ⟨x, hx⟩ := htext
    rw [parse_of_text hx]
    split
    case isTrue hreadable =>
      split
      case isTrue hrange => exact .read hx hreadable hrange
      case isFalse hrange => exact .exceeds hx hreadable hrange
    case isFalse hreadable => exact .tooLong hx hreadable
  · rw [parse_of_no_text htext]
    exact .noText htext

/-! ## Writing -/

/-- A delta that is not negative is written as a number of seconds that makes it up. -/
theorem exists_secondsText (hcanonical : d.Canonical) (hsecs : 0 ≤ d.secs) :
    ∃ x : SecondsText, x.chars = 'P' :: 'T' :: integer d.secs ++ fractionChars d.nanos ++ ['S'] ∧
      x.whole.digits = digits d.secs.toNat ∧ x.magnitude = d := by
  obtain ⟨secs, nanos⟩ := d
  simp only [Canonical, nanosPerSecond] at hcanonical hsecs
  let whole : Numeral := ⟨digits secs.toNat, isDigit_of_mem_digits _, digits_ne_nil _⟩
  have hwhole : (whole.value : Int) = secs := by
    rw [Numeral.value, readDigits_digits, Int.toNat_of_nonneg hsecs]
  have hinteger : integer secs = whole.digits := by
    rw [integer, if_neg (by omega), show secs.natAbs = secs.toNat by omega]
  by_cases hnanos : nanos = 0
  · refine ⟨⟨whole, none⟩, ?_, rfl, ?_⟩
    · rw [fractionChars, if_pos hnanos, hinteger]
      simp [SecondsText.chars, SecondsText.fraction, decimalChars]
    · rw [hnanos]
      exact congrArg (mk · 0) hwhole
  · have hlength : (padded 9 nanos.toNat).length = 9 := length_padded (by decide) (by omega)
    let decimals : ShortNumeral 9 :=
      { digits := dropTrailingZeros (padded 9 nanos.toNat)
        isDigit := fun c hc => isDigit_of_mem_padded _ _ c (mem_of_mem_dropTrailingZeros hc)
        ne_nil := dropTrailingZeros_padded_ne_nil (by omega)
        length_le := Nat.le_trans (length_dropTrailingZeros_le _) (Nat.le_of_eq hlength) }
    have hdecimals : (readFraction 9 decimals.digits : Int) = nanos := by
      rw [readFraction_dropTrailingZeros (Nat.le_of_eq hlength),
        readFraction_padded (by decide) (Nat.le_refl 9) (by omega)]
      omega
    refine ⟨⟨whole, some decimals⟩, ?_, rfl, ?_⟩
    · rw [fractionChars, if_neg hnanos, hinteger]
      simp [SecondsText.chars, SecondsText.fraction, decimalChars, decimals]
    · exact congr (congrArg mk hwhole) hdecimals

/-- What a delta in range is written as is a text that stands for it. -/
theorem exists_text (h : d.InRange) :
    ∃ x : DeltaText, x.chars = d.toChars ∧ x.Readable ∧ x.delta = d := by
  have habs := inRange_abs h
  have hbounds := (inRange_iff habs.1).mp habs
  have htotal := total_abs h.1
  have hcanonical := habs.1
  simp only [Canonical, total, nanosPerSecond, maxTotal] at hcanonical hbounds htotal
  have hreadable : (digits d.abs.secs.toNat).length ≤ mostDigits :=
    Nat.le_trans (@length_digits_le _ 16 (by decide) (by omega)) (by decide)
  obtain ⟨x, hchars, hdigits, hx⟩ := exists_secondsText habs.1 (by omega)
  rw [toChars]
  split
  case isTrue hzero =>
    refine ⟨.zero, rfl, by decide, ?_⟩
    simp only [isZero, Bool.and_eq_true, decide_eq_true_eq] at hzero
    exact (congr (congrArg mk hzero.1) hzero.2).symm
  case isFalse =>
    split
    case isTrue hneg =>
      refine ⟨.negative x, congrArg ('-' :: ·) hchars, ?_, ?_⟩
      · rwa [DeltaText.Readable, DeltaText.numeral, hdigits]
      · refine eq_of_total_eq (canonical_neg x.canonical_magnitude) h.1 ?_
        rw [DeltaText.delta, hx, abs, if_pos hneg, total_neg, total_neg, Int.neg_neg]
    case isFalse hpos =>
      refine ⟨.plain x, hchars, ?_, ?_⟩
      · rwa [DeltaText.Readable, DeltaText.numeral, hdigits]
      · exact hx.trans (if_neg hpos)

theorem parse_format (h : d.InRange) : parse d.format = .ok d := by
  obtain ⟨x, hchars, hreadable, rfl⟩ := exists_text h
  rw [parse_of_text (x := x) (by rw [hchars, format, String.toList_ofList]), if_pos hreadable,
    if_pos (x.inRange_iff.mpr h)]

/-! ## Texts and deltas -/

/-- A delta is read back from the text that it is written as. A text is read exactly if it is that
of a delta in range, without more digits than are read, and then as the delta with this number of
seconds. If it is that of a delta beyond the range, this is the fault, and the format is the fault
if it is no text of a delta at all. -/
theorem text_exact :
    (∀ d : Delta, d.InRange → parse d.format = .ok d) ∧
    ∀ s : String,
      (∀ d, parse s = .ok d ↔
        ∃ x : DeltaText, x.chars = s.toList ∧ x.Readable ∧ x.InRange ∧
          d.Canonical ∧ (d.total : ℚ) = x.seconds * nanosPerSecond) ∧
      (parse s = .error (.outOfRange .delta) ↔
        ∃ x : DeltaText, x.chars = s.toList ∧ x.Readable ∧ ¬x.InRange) ∧
      (parse s = .error (.badText s) ↔ ¬∃ x : DeltaText, x.chars = s.toList) ∧
      ((∃ count, parse s = .error (.tooManyDigits count)) ↔
        ∃ x : DeltaText, x.chars = s.toList ∧ ¬x.Readable) ∧
      (Fault.badText s).message = "Invalid format: " ++ quote s := by
  refine ⟨fun d => parse_format, fun s => ⟨fun d => ?ok, ?exceeds, ?format, ?digits, rfl⟩⟩
  case ok =>
    constructor
    · intro hparse
      cases parsed_of_eq hparse with
      | read hx hreadable hrange =>
        exact ⟨_, hx, hreadable, hrange, DeltaText.delta_eq_iff.mp rfl⟩
    · rintro ⟨x, hx, hreadable, hrange, hd⟩
      rw [parse_of_text hx, if_pos hreadable, if_pos hrange, DeltaText.delta_eq_iff.mpr hd]
  case exceeds =>
    constructor
    · intro hparse
      cases parsed_of_eq hparse with
      | exceeds hx hreadable hrange => exact ⟨_, hx, hreadable, hrange⟩
    · rintro ⟨x, hx, hreadable, hrange⟩
      rw [parse_of_text hx, if_pos hreadable, if_neg hrange]
  case format =>
    constructor
    · intro hparse
      cases parsed_of_eq hparse with
      | noText h => exact h
    · exact parse_of_no_text
  case digits =>
    constructor
    · rintro ⟨count, hparse⟩
      cases parsed_of_eq hparse with
      | tooLong hx hreadable => exact ⟨_, hx, hreadable⟩
    · rintro ⟨x, hx, hreadable⟩
      exact ⟨x.numeral.length, by rw [parse_of_text hx, if_neg hreadable]⟩

/-- The least delta, and the text of a nanosecond more than there can be. -/
theorem text_exact_at_ends :
    (min.InRange ∧ min.format = "-PT9223372036854775.807S") ∧
      parse "-PT9223372036854775.807S" = .ok min ∧
      parse "PT9223372036854775.807000001S" = .error (.outOfRange .delta) := by
  have htext : min.format = "-PT9223372036854775.807S" := by decide +kernel
  have hread := text_exact.1 min (by decide)
  rw [htext] at hread
  let x : SecondsText := ⟨.padded 16 9223372036854775, some ⟨.padded 9 807000001, by decide +kernel⟩⟩
  have hchars : x.chars = "PT9223372036854775.807000001S".toList := by decide +kernel
  have hrange : ¬(DeltaText.plain x).delta.InRange := by decide +kernel
  refine ⟨⟨by decide, htext⟩, hread, ((text_exact.2 _).2.1).mpr ⟨.plain x, hchars, ?_, ?_⟩⟩
  · decide +kernel
  · rwa [DeltaText.inRange_iff]

end Delta

end CivilTime
