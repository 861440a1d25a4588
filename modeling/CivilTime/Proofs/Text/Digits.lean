import Mathlib.Algebra.Group.Nat.Defs
import Mathlib.Data.List.Induction
import CivilTime.Text.Digits
import CivilTime.Text.Reader

/-!
# Numbers that are written and read

As many digits as a number has, so large it can be at most. A number that is written with
enough places is read back from them, as a whole number and as a decimal fraction, as long
as no other digit comes right after it.
-/

namespace CivilTime.Text

theorem digitValue_le {c : Char} (h : c.isDigit) : digitValue c ≤ 9 := by
  simp only [Char.isDigit, ge_iff_le, Bool.and_eq_true, decide_eq_true_eq, UInt32.le_iff_toNat_le]
    at h
  have hhi : c.toNat ≤ 57 := h.2
  rw [digitValue]
  omega

theorem readDigits_lt {ds : List Char} (h : ∀ c ∈ ds, c.isDigit) :
    readDigits ds < 10 ^ ds.length := by
  induction ds using List.reverseRecOn with
  | nil => decide
  | append_singleton ds c ih =>
    have hinit := ih fun c hc => h c (List.mem_append_left _ hc)
    have hlast := digitValue_le (h c (List.mem_append_right _ List.mem_cons_self))
    rw [readDigits_append_singleton, List.length_append, List.length_singleton, Nat.pow_succ]
    omega

theorem readFraction_lt {ds : List Char} (places : Nat) (h : ∀ c ∈ ds, c.isDigit) :
    readFraction places ds < 10 ^ places := by
  have hlength : ((ds.take places).rightpad places '0').length = places := by
    simp only [List.rightpad, List.length_append, List.length_replicate, List.length_take]
    omega
  have hlt : readFraction places ds < 10 ^ ((ds.take places).rightpad places '0').length := by
    refine readDigits_lt fun c hc => ?_
    rcases List.mem_append.mp hc with hc | hc
    · exact h c (List.mem_of_mem_take hc)
    · rw [List.eq_of_mem_replicate hc]
      decide
  rwa [hlength] at hlt

theorem takeDigits?_isDigit {cs ds rest : List Char} (h : takeDigits? cs = some (ds, rest)) :
    ∀ c ∈ ds, c.isDigit := by
  rw [takeDigits?] at h
  split at h
  · cases h
  · obtain ⟨rfl, -⟩ := Prod.mk.inj (Option.some.inj h)
    intro c hc
    exact List.all_eq_true.mp List.all_takeWhile c hc

theorem takeFraction?_isDigit {cs ds rest : List Char} (h : takeFraction? cs = some (ds, rest)) :
    ∀ c ∈ ds, c.isDigit := by
  rw [takeFraction?.eq_def] at h
  split at h
  · exact takeDigits?_isDigit h
  · obtain ⟨rfl, -⟩ := Prod.mk.inj (Option.some.inj h)
    exact nofun

/-! ## Digits that are written -/

theorem isDigit_digitChar {n : Nat} (h : n < 10) : (digitChar n).isDigit := by
  have : ∀ k, k < 10 → (digitChar k).isDigit := by decide
  exact this n h

theorem isDigit_of_mem_digits (n : Nat) : ∀ c ∈ digits n, c.isDigit := by
  induction n using Nat.strongRecOn with
  | _ n ih =>
    rw [digits]
    split
    case isTrue hsmall =>
      intro c hc
      rw [List.mem_singleton.mp hc]
      exact isDigit_digitChar hsmall
    case isFalse =>
      intro c hc
      rcases List.mem_append.mp hc with hc | hc
      · exact ih (n / 10) (by omega) c hc
      · rw [List.mem_singleton.mp hc]
        exact isDigit_digitChar (Nat.mod_lt _ (by decide))

theorem digits_ne_nil (n : Nat) : digits n ≠ [] := by
  rw [digits]
  split <;> simp

theorem length_digits_le {n width : Nat} (hpos : 0 < width) (h : n < 10 ^ width) :
    (digits n).length ≤ width := by
  induction width generalizing n with
  | zero => exact absurd hpos (Nat.lt_irrefl 0)
  | succ width ih =>
    rw [digits]
    split
    case isTrue => simp
    case isFalse hlarge =>
      have hwidth : 0 < width := by
        refine Nat.pos_of_ne_zero fun hzero => ?_
        rw [hzero, Nat.pow_succ, Nat.pow_zero] at h
        omega
      rw [Nat.pow_succ] at h
      have := ih hwidth (show n / 10 < 10 ^ width by omega)
      rw [List.length_append, List.length_singleton]
      omega

theorem isDigit_of_mem_padded (width n : Nat) : ∀ c ∈ padded width n, c.isDigit := by
  intro c hc
  rcases List.mem_append.mp hc with hc | hc
  · rw [List.eq_of_mem_replicate hc]
    decide
  · exact isDigit_of_mem_digits n c hc

theorem padded_ne_nil (width n : Nat) : padded width n ≠ [] := by
  intro h
  exact digits_ne_nil n (List.append_eq_nil_iff.mp h).2

theorem length_padded {width n : Nat} (hpos : 0 < width) (h : n < 10 ^ width) :
    (padded width n).length = width := by
  have := length_digits_le hpos h
  rw [padded, List.length_leftpad]
  omega

/-- Zeros in front do not count. -/
theorem readDigits_replicate_zero_append (k : Nat) (ds : List Char) :
    readDigits (List.replicate k '0' ++ ds) = readDigits ds := by
  induction k with
  | zero => rfl
  | succ k ih => exact ih

@[simp] theorem readDigits_padded (width n : Nat) : readDigits (padded width n) = n := by
  rw [padded, List.leftpad, readDigits_replicate_zero_append, readDigits_digits]

/-- Numbers that are written with as many places are read from texts that go on after them. -/
theorem padded_append_inj {width n m : Nat} {rest rest' : List Char} (hpos : 0 < width)
    (hn : n < 10 ^ width) (hm : m < 10 ^ width)
    (h : padded width n ++ rest = padded width m ++ rest') : n = m ∧ rest = rest' := by
  have hlength : (padded width n).length = (padded width m).length := by
    rw [length_padded hpos hn, length_padded hpos hm]
  obtain ⟨hdigits, hrest⟩ := List.append_inj h hlength
  refine ⟨?_, hrest⟩
  rw [← readDigits_padded width n, hdigits, readDigits_padded]

/-- Each zero at the end is a factor of ten. -/
theorem readDigits_append_replicate_zero (ds : List Char) (k : Nat) :
    readDigits (ds ++ List.replicate k '0') = readDigits ds * 10 ^ k := by
  induction k with
  | zero => simp
  | succ k ih =>
    rw [List.replicate_succ', ← List.append_assoc, readDigits_append_singleton, ih]
    calc 10 * (readDigits ds * 10 ^ k) + digitValue '0'
      _ = readDigits ds * 10 ^ k * 10 := by rw [show digitValue '0' = 0 from rfl]; omega
      _ = readDigits ds * 10 ^ (k + 1) := by rw [Nat.pow_succ, Nat.mul_assoc]

/-- Decimals that are written with fewer places than are read. -/
theorem readFraction_padded {places width n : Nat} (hpos : 0 < width) (hle : width ≤ places)
    (h : n < 10 ^ width) : readFraction places (padded width n) = n * 10 ^ (places - width) := by
  have hlength := length_padded hpos h
  rw [readFraction, List.take_of_length_le (by omega), List.rightpad,
    readDigits_append_replicate_zero, readDigits_padded, hlength]

/-! ## Digits in front of something else -/

/-- The text does not start with a digit. -/
def NoDigitAhead (cs : List Char) : Prop := ∀ c ∈ cs.head?, ¬c.isDigit

@[simp] theorem noDigitAhead_nil : NoDigitAhead [] := nofun

@[simp] theorem noDigitAhead_cons {c : Char} {cs : List Char} :
    NoDigitAhead (c :: cs) ↔ ¬c.isDigit := by
  simp [NoDigitAhead]

section

variable {ds rest : List Char}

theorem takeWhile_isDigit_append (hds : ∀ c ∈ ds, c.isDigit) (hrest : NoDigitAhead rest) :
    (ds ++ rest).takeWhile Char.isDigit = ds := by
  rw [List.takeWhile_append_of_pos hds]
  cases rest with
  | nil => simp
  | cons c rest => rw [List.takeWhile_cons_of_neg (noDigitAhead_cons.mp hrest), List.append_nil]

theorem dropWhile_isDigit_append (hds : ∀ c ∈ ds, c.isDigit) (hrest : NoDigitAhead rest) :
    (ds ++ rest).dropWhile Char.isDigit = rest := by
  rw [List.dropWhile_append_of_pos hds]
  cases rest with
  | nil => rfl
  | cons c rest => rw [List.dropWhile_cons_of_neg (noDigitAhead_cons.mp hrest)]

theorem takeDigits?_append (hds : ∀ c ∈ ds, c.isDigit) (hne : ds ≠ [])
    (hrest : NoDigitAhead rest) : takeDigits? (ds ++ rest) = some (ds, rest) := by
  rw [takeDigits?, takeWhile_isDigit_append hds hrest, dropWhile_isDigit_append hds hrest,
    if_neg hne]

theorem takeDigitsUpTo?_append {most : Nat} (hds : ∀ c ∈ ds, c.isDigit) (hne : ds ≠ [])
    (hmost : ds.length ≤ most) (hrest : NoDigitAhead rest) :
    takeDigitsUpTo? most (ds ++ rest) = some (ds, rest) := by
  rw [takeDigitsUpTo?, takeDigits?_append hds hne hrest, Option.filter_some, if_pos (by simpa)]

/-- A number is read up to its end if it has no more places than it is written with. -/
theorem takeDigitsUpTo?_padded {width n : Nat} (hpos : 0 < width) (h : n < 10 ^ width)
    (hrest : NoDigitAhead rest) :
    takeDigitsUpTo? width (padded width n ++ rest) = some (padded width n, rest) :=
  takeDigitsUpTo?_append (isDigit_of_mem_padded width n) (padded_ne_nil width n)
    (Nat.le_of_eq (length_padded hpos h)) hrest

@[simp] theorem skipBlank_nil : skipBlank [] = [] := rfl

/-- A separator is found where it is, since it is no white space. -/
theorem expect?_skipBlank_cons {c : Char} (hc : isBlank c = false) (cs : List Char) :
    expect? c (skipBlank (c :: cs)) = some cs := by
  rw [skipBlank, List.dropWhile_cons_of_neg (by simp [hc]), expect?, if_pos rfl]

theorem firstNumber_append (hds : ∀ c ∈ ds, c.isDigit) (hne : ds ≠ [])
    (hrest : NoDigitAhead rest) : firstNumber (ds ++ rest) = ds := by
  cases ds with
  | nil => exact absurd rfl hne
  | cons d ds =>
    rw [firstNumber, List.cons_append, List.dropWhile_cons_of_neg, ← List.cons_append,
      takeWhile_isDigit_append hds hrest]
    simp [hds d List.mem_cons_self]

end

end CivilTime.Text
