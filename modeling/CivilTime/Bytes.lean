/-!
# Words of bytes

Integers as words of a fixed number of bytes. The packed forms of this library
store the least significant byte first; zone files store it last.
-/

namespace CivilTime

/-- A string of bytes. -/
abbrev Bytes := List UInt8

namespace Bytes

/-- The number that bytes stand for, least significant first. -/
def toNat : Bytes → Nat
  | [] => 0
  | b :: bs => b.toNat + 256 * toNat bs

/-- The low `width` bytes of a number, least significant first. -/
def ofNat : Nat → Nat → Bytes
  | 0, _ => []
  | width + 1, n => UInt8.ofNat (n % 256) :: ofNat width (n / 256)

/-- The number of values that a word of `width` bytes can have. -/
def wordSize : Nat → Nat
  | 0 => 1
  | width + 1 => 256 * wordSize width

/-- The number that bytes stand for in two's complement, least significant first. -/
def toInt (bs : Bytes) : Int :=
  if 2 * bs.toNat < wordSize bs.length then bs.toNat else bs.toNat - wordSize bs.length

/-- An integer as `width` bytes in two's complement, least significant first. -/
def ofInt (width : Nat) (n : Int) : Bytes := ofNat width (n % wordSize width).toNat

@[simp] theorem length_ofNat (width n : Nat) : (ofNat width n).length = width := by
  induction width generalizing n with
  | zero => rfl
  | succ width ih => simp [ofNat, ih]

@[simp] theorem length_ofInt (width : Nat) (n : Int) : (ofInt width n).length = width :=
  length_ofNat _ _

/-- Reading the low bytes of a number gives it back modulo the size of the word. -/
theorem toNat_ofNat (width n : Nat) : (ofNat width n).toNat = n % wordSize width := by
  induction width generalizing n with
  | zero => simp [ofNat, toNat, wordSize, Nat.mod_one]
  | succ width ih =>
    rw [ofNat, toNat, ih, wordSize, Nat.mod_mul]
    simp

theorem toNat_lt (bs : Bytes) : bs.toNat < wordSize bs.length := by
  induction bs with
  | nil => simp [toNat, wordSize]
  | cons b bs ih =>
    have hb : b.toNat < 256 := b.toNat_lt_size
    rw [toNat, List.length_cons, wordSize]
    omega

/-- Bytes are the low bytes of the number that they stand for. -/
@[simp] theorem ofNat_toNat (bs : Bytes) : ofNat bs.length (toNat bs) = bs := by
  induction bs with
  | nil => rfl
  | cons b bs ih =>
    have hb : b.toNat < 256 := b.toNat_lt_size
    rw [List.length_cons, ofNat, toNat]
    rw [show (b.toNat + 256 * toNat bs) % 256 = b.toNat by omega,
      show (b.toNat + 256 * toNat bs) / 256 = toNat bs by omega, ih]
    simp

end Bytes

end CivilTime
