/-!
# Decimal digits

Numbers are written with ASCII digits and read back from them. Everything here
works on lists of characters, so that the lengths and values of digit texts can
be reasoned about by induction.
-/

namespace CivilTime.Text

/-- The digit for `n`, which is below ten. -/
def digitChar (n : Nat) : Char := Char.ofNat (48 + n)

/-- The number that an ASCII digit stands for. -/
def digitValue (c : Char) : Nat := c.toNat - 48

/-- The decimal digits of `n`, most significant first, without leading zeros. -/
def digits (n : Nat) : List Char :=
  if n < 10 then [digitChar n] else digits (n / 10) ++ [digitChar (n % 10)]

/-- The number that a list of digits stands for. The empty list is zero. -/
def readDigits (ds : List Char) : Nat :=
  ds.foldl (fun n c => 10 * n + digitValue c) 0

/-- The digits of `n`, filled up with zeros on the left to at least `width` places. -/
def padded (width n : Nat) : List Char := (digits n).leftpad width '0'

/-- An integer in decimal, with a minus sign when it is negative. -/
def integer (n : Int) : List Char :=
  if n < 0 then '-' :: digits n.natAbs else digits n.natAbs

/-- The digits `ds` of a decimal fraction, cut or filled up with zeros on the
right to exactly `places` places, as a number of units of the last place. -/
def readFraction (places : Nat) (ds : List Char) : Nat :=
  readDigits ((ds.take places).rightpad places '0')

/-- A list of digits without the zeros at its end. -/
def dropTrailingZeros (ds : List Char) : List Char :=
  (ds.reverse.dropWhile (· = '0')).reverse

@[simp] theorem readDigits_nil : readDigits [] = 0 := rfl

theorem readDigits_append_singleton (ds : List Char) (c : Char) :
    readDigits (ds ++ [c]) = 10 * readDigits ds + digitValue c := by
  simp [readDigits, List.foldl_append]

theorem digitValue_digitChar {n : Nat} (h : n < 10) : digitValue (digitChar n) = n := by
  have : ∀ k, k < 10 → digitValue (digitChar k) = k := by decide
  exact this n h

/-- Reading the digits of a number gives the number back. -/
@[simp] theorem readDigits_digits (n : Nat) : readDigits (digits n) = n := by
  induction n using Nat.strongRecOn with
  | _ n ih =>
    rw [digits]
    split
    · next h => simp [readDigits, digitValue_digitChar h]
    · next h =>
      rw [readDigits_append_singleton, ih (n / 10) (by omega),
        digitValue_digitChar (Nat.mod_lt _ (by decide))]
      omega

end CivilTime.Text
