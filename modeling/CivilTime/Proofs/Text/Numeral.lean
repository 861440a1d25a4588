import Mathlib.Data.Rat.Floor
import CivilTime.Proofs.Text.Digits

/-!
# Numerals and white space

The texts that are read consist of numerals, white space and separators. Each reader takes
what stands at the front of a text as one such part, and finds every part that is there, as
long as the part after it does not start with a character of the same sort.

The decimals after a point stand for a fraction of one. Reading some places of them gives the
whole number of units of the last place that the fraction contains.
-/

namespace CivilTime.Text

/-- A number as it is written: digits, at least one of them. -/
structure Numeral where
  digits : List Char
  isDigit : ∀ c ∈ digits, c.isDigit
  ne_nil : digits ≠ []

/-- A number that is written with at most `most` digits. -/
structure ShortNumeral (most : Nat) extends Numeral where
  length_le : digits.length ≤ most

/-- White space, or none. -/
structure Blanks where
  chars : List Char
  isBlank : ∀ c ∈ chars, isBlank c

/-- The number that a numeral stands for. -/
def Numeral.value (n : Numeral) : Nat := readDigits n.digits

/-- A number with zeros in front, to make at least `width` digits. -/
def Numeral.padded (width n : Nat) : Numeral :=
  ⟨Text.padded width n, isDigit_of_mem_padded width n, padded_ne_nil width n⟩

@[simp] theorem Numeral.value_padded (width n : Nat) : (padded width n).value = n :=
  readDigits_padded width n

/-- The point and the decimals after it, or nothing. -/
def decimalChars : Option Numeral → List Char
  | none => []
  | some n => '.' :: n.digits

/-- The digits of the decimals, of which there may be none. -/
def decimalDigits : Option Numeral → List Char
  | none => []
  | some n => n.digits

theorem isDigit_of_mem_decimalDigits (decimals : Option Numeral) :
    ∀ c ∈ decimalDigits decimals, c.isDigit := by
  cases decimals with
  | none => exact nofun
  | some n => exact n.isDigit

/-! ## White space -/

/-- The text does not start with white space. -/
def NoBlankAhead (cs : List Char) : Prop := ∀ c ∈ cs.head?, ¬isBlank c

@[simp] theorem noBlankAhead_nil : NoBlankAhead [] := nofun

@[simp] theorem noBlankAhead_cons {c : Char} {cs : List Char} :
    NoBlankAhead (c :: cs) ↔ ¬isBlank c := by
  simp [NoBlankAhead]

theorem not_isDigit_of_isBlank {c : Char} (h : isBlank c) : ¬c.isDigit := by
  simp only [isBlank, Bool.or_eq_true, Bool.and_eq_true, decide_eq_true_eq] at h
  rcases h with rfl | ⟨-, hhi⟩
  · decide
  · intro hdigit
    simp only [Char.isDigit, Bool.and_eq_true, decide_eq_true_eq] at hdigit
    exact absurd (Char.le_trans (show '0' ≤ c from hdigit.1) hhi) (by decide)

variable {cs rest ds : List Char} {c : Char}

/-- White space keeps the digits before it apart from those after it. -/
theorem Blanks.noDigitAhead_append (b : Blanks) (h : NoDigitAhead rest) :
    NoDigitAhead (b.chars ++ rest) := by
  obtain ⟨chars, hchars⟩ := b
  cases chars with
  | nil => exact h
  | cons c chars =>
    exact noDigitAhead_cons.mpr (not_isDigit_of_isBlank (hchars c List.mem_cons_self))

theorem exists_blanks (cs : List Char) : ∃ b : Blanks, cs = b.chars ++ skipBlank cs :=
  ⟨⟨cs.takeWhile isBlank, fun _ hc => List.all_eq_true.mp List.all_takeWhile _ hc⟩,
    List.takeWhile_append_dropWhile.symm⟩

theorem skipBlank_append (b : Blanks) (h : NoBlankAhead rest) :
    skipBlank (b.chars ++ rest) = rest := by
  rw [skipBlank, List.dropWhile_append_of_pos b.isBlank]
  cases rest with
  | nil => rfl
  | cons c rest => rw [List.dropWhile_cons_of_neg (noBlankAhead_cons.mp h)]

/-! ## Separators -/

theorem expect?_eq_some_iff : expect? c cs = some rest ↔ cs = c :: rest := by
  cases cs with
  | nil => simp only [expect?, reduceCtorEq]
  | cons d cs =>
    simp only [expect?, Option.ite_none_right_eq_some, Option.some.injEq, List.cons.injEq]

theorem exists_blanks_of_expect? (h : expect? c (skipBlank cs) = some rest) :
    ∃ b : Blanks, cs = b.chars ++ c :: rest := by
  obtain ⟨b, hb⟩ := exists_blanks cs
  exact ⟨b, by rw [← expect?_eq_some_iff.mp h, ← hb]⟩

theorem expect?_skipBlank_append (hc : ¬isBlank c) (b : Blanks) (rest : List Char) :
    expect? c (skipBlank (b.chars ++ c :: rest)) = some rest := by
  rw [skipBlank_append b (noBlankAhead_cons.mpr hc)]
  exact expect?_eq_some_iff.mpr rfl

/-! ## Numerals -/

theorem exists_numeral_of_takeDigits? (h : takeDigits? cs = some (ds, rest)) :
    ∃ n : Numeral, n.digits = ds ∧ cs = n.digits ++ rest := by
  have hdigit := takeDigits?_isDigit h
  rw [takeDigits?] at h
  split at h
  case isTrue => cases h
  case isFalse hne =>
    obtain ⟨rfl, rfl⟩ := Prod.mk.inj (Option.some.inj h)
    exact ⟨⟨_, hdigit, hne⟩, rfl, List.takeWhile_append_dropWhile.symm⟩

theorem Numeral.takeDigits?_append (n : Numeral) (h : NoDigitAhead rest) :
    takeDigits? (n.digits ++ rest) = some (n.digits, rest) :=
  Text.takeDigits?_append n.isDigit n.ne_nil h

theorem exists_numeral_of_takeDigitsUpTo? {most : Nat}
    (h : takeDigitsUpTo? most cs = some (ds, rest)) :
    ∃ n : ShortNumeral most, n.digits = ds ∧ cs = n.digits ++ rest := by
  obtain ⟨htake, hlength⟩ := Option.filter_eq_some_iff.mp h
  obtain ⟨n, rfl, hcs⟩ := exists_numeral_of_takeDigits? htake
  exact ⟨⟨n, of_decide_eq_true hlength⟩, rfl, hcs⟩

theorem ShortNumeral.takeDigitsUpTo?_append {most : Nat} (n : ShortNumeral most)
    (h : NoDigitAhead rest) : takeDigitsUpTo? most (n.digits ++ rest) = some (n.digits, rest) :=
  Text.takeDigitsUpTo?_append n.isDigit n.ne_nil n.length_le h

theorem exists_decimals_of_takeFraction? (h : takeFraction? cs = some (ds, rest)) :
    ∃ decimals, decimalDigits decimals = ds ∧ cs = decimalChars decimals ++ rest := by
  rw [takeFraction?.eq_def] at h
  split at h
  case h_1 =>
    obtain ⟨n, hdigits, hcs⟩ := exists_numeral_of_takeDigits? h
    exact ⟨some n, hdigits, congrArg ('.' :: ·) hcs⟩
  case h_2 =>
    obtain ⟨rfl, rfl⟩ := Prod.mk.inj (Option.some.inj h)
    exact ⟨none, rfl, rfl⟩

/-! ## Decimals -/

/-- The fraction of one that decimals stand for. -/
def decimalValue : List Char → ℚ
  | [] => 0
  | c :: cs => (digitValue c + decimalValue cs) / 10

theorem decimalValue_bounds (h : ∀ c ∈ ds, c.isDigit) :
    0 ≤ decimalValue ds ∧ decimalValue ds < 1 := by
  induction ds with
  | nil => exact ⟨Rat.le_refl, by decide⟩
  | cons c cs ih =>
    have hrest := ih fun d hd => h d (List.mem_cons_of_mem _ hd)
    have hfirst : (digitValue c : ℚ) ≤ 9 := by
      exact_mod_cast digitValue_le (h c List.mem_cons_self)
    have hnonneg : (0 : ℚ) ≤ digitValue c := Nat.cast_nonneg _
    rw [decimalValue]
    constructor
    · linarith
    · linarith

theorem readDigits_cons (c : Char) (cs : List Char) :
    readDigits (c :: cs) = digitValue c * 10 ^ cs.length + readDigits cs := by
  induction cs using List.reverseRecOn with
  | nil => simp [readDigits]
  | append_singleton cs d ih =>
    rw [← List.cons_append, readDigits_append_singleton, readDigits_append_singleton, ih,
      List.length_append, List.length_singleton, pow_succ]
    ring

/-- The first decimal counts most, and the others are those of the places after it. -/
theorem readFraction_cons (places : Nat) (c : Char) (cs : List Char) :
    readFraction (places + 1) (c :: cs) =
      digitValue c * 10 ^ places + readFraction places cs := by
  have hlength : ((cs.take places).rightpad places '0').length = places := by
    simp only [List.rightpad, List.length_append, List.length_replicate, List.length_take]
    omega
  have hpad : ((c :: cs).take (places + 1)).rightpad (places + 1) '0' =
      c :: (cs.take places).rightpad places '0' := by
    simp [List.rightpad]
  rw [readFraction, hpad, readDigits_cons, hlength]
  rfl

/-- What is read of decimals is their fraction in units of the last place, rounded down. -/
theorem readFraction_eq_floor (places : Nat) (h : ∀ c ∈ ds, c.isDigit) :
    (readFraction places ds : ℤ) = ⌊decimalValue ds * 10 ^ places⌋ := by
  induction places generalizing ds with
  | zero =>
    have hzero : ⌊decimalValue ds⌋ = 0 := Int.floor_eq_zero_iff.mpr (decimalValue_bounds h)
    rw [pow_zero, mul_one, hzero]
    simp [readFraction, List.rightpad]
  | succ places ih =>
    cases ds with
    | nil =>
      have hzero := readDigits_replicate_zero_append (places + 1) []
      rw [List.append_nil] at hzero
      simp [readFraction, List.rightpad, decimalValue, hzero]
    | cons c cs =>
      have hshift : decimalValue (c :: cs) * 10 ^ (places + 1) =
          ((digitValue c * 10 ^ places : ℕ) : ℚ) + decimalValue cs * 10 ^ places := by
        rw [decimalValue, pow_succ]
        push_cast
        ring
      rw [readFraction_cons, hshift, Int.floor_natCast_add,
        ← ih fun d hd => h d (List.mem_cons_of_mem _ hd)]
      push_cast
      rfl

/-- Decimals that are all read are read exactly. -/
theorem readFraction_eq_of_length_le {places : Nat} {ds : List Char} (h : ds.length ≤ places) :
    (readFraction places ds : ℚ) = decimalValue ds * 10 ^ places := by
  induction places generalizing ds with
  | zero =>
    obtain rfl := List.length_eq_zero_iff.mp (Nat.le_zero.mp h)
    simp [readFraction, List.rightpad, decimalValue]
  | succ places ih =>
    cases ds with
    | nil =>
      have hzero := readDigits_replicate_zero_append (places + 1) []
      rw [List.append_nil] at hzero
      simp [readFraction, List.rightpad, decimalValue, hzero]
    | cons c cs =>
      have hrest := ih (Nat.le_of_succ_le_succ h)
      rw [readFraction_cons, decimalValue, pow_succ]
      push_cast
      rw [hrest]
      ring

/-! ## Zeros at the end of decimals -/

theorem exists_eq_append_zeros (ds : List Char) :
    ∃ k, ds = dropTrailingZeros ds ++ List.replicate k '0' := by
  have hzeros : ds.reverse.takeWhile (· = '0') =
      List.replicate (ds.reverse.takeWhile (· = '0')).length '0' := by
    refine List.eq_replicate_iff.mpr ⟨rfl, fun c hc => ?_⟩
    have hzero := List.all_eq_true.mp List.all_takeWhile c hc
    exact of_decide_eq_true hzero
  refine ⟨(ds.reverse.takeWhile (· = '0')).length, ?_⟩
  calc ds = (ds.reverse.takeWhile (· = '0') ++ ds.reverse.dropWhile (· = '0')).reverse := by
        rw [List.takeWhile_append_dropWhile, List.reverse_reverse]
    _ = dropTrailingZeros ds ++ (ds.reverse.takeWhile (· = '0')).reverse := List.reverse_append
    _ = _ := by rw [hzeros, List.reverse_replicate, List.length_replicate]

theorem mem_of_mem_dropTrailingZeros (h : c ∈ dropTrailingZeros ds) : c ∈ ds := by
  obtain ⟨k, hk⟩ := exists_eq_append_zeros ds
  rw [hk]
  exact List.mem_append_left _ h

theorem length_dropTrailingZeros_le (ds : List Char) :
    (dropTrailingZeros ds).length ≤ ds.length := by
  obtain ⟨k, hk⟩ := exists_eq_append_zeros ds
  have hlength := congrArg List.length hk
  rw [List.length_append] at hlength
  omega

theorem decimalValue_append_zeros (ds : List Char) (k : Nat) :
    decimalValue (ds ++ List.replicate k '0') = decimalValue ds := by
  induction ds with
  | nil =>
    induction k with
    | zero => rfl
    | succ k ih =>
      rw [List.nil_append] at ih ⊢
      calc decimalValue ('0' :: List.replicate k '0')
          = ((0 : ℕ) + decimalValue (List.replicate k '0')) / 10 := rfl
        _ = decimalValue [] := by rw [ih, decimalValue]; norm_num
  | cons c cs ih => rw [List.cons_append, decimalValue, ih, decimalValue]

/-- Zeros at the end do not count. -/
theorem readFraction_dropTrailingZeros {places : Nat} (h : ds.length ≤ places) :
    readFraction places (dropTrailingZeros ds) = readFraction places ds := by
  obtain ⟨k, hk⟩ := exists_eq_append_zeros ds
  have hvalue : decimalValue ds = decimalValue (dropTrailingZeros ds) := by
    rw [← decimalValue_append_zeros (dropTrailingZeros ds) k, ← hk]
  have hshort := Nat.le_trans (length_dropTrailingZeros_le ds) h
  have hread : (readFraction places (dropTrailingZeros ds) : ℚ) = readFraction places ds := by
    rw [readFraction_eq_of_length_le h, readFraction_eq_of_length_le hshort, hvalue]
  exact_mod_cast hread

/-- A number other than zero has a digit that is kept. -/
theorem dropTrailingZeros_padded_ne_nil {width n : Nat} (h : n ≠ 0) :
    dropTrailingZeros (padded width n) ≠ [] := by
  intro hnil
  obtain ⟨k, hk⟩ := exists_eq_append_zeros (padded width n)
  have hread := readDigits_replicate_zero_append k []
  rw [List.append_nil] at hread
  rw [hnil, List.nil_append] at hk
  rw [← hk, readDigits_padded, readDigits_nil] at hread
  exact h hread

end CivilTime.Text
