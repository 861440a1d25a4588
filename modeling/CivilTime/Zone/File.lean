import CivilTime.Bytes
import CivilTime.Zone.Table

/-!
# Zone files

A zone file is a sequence of big-endian words. A header gives the number of
transitions, of offset types and so on, and a block of data follows. Files of
version 1 have 4-byte moments and end there. Later versions go on with a second
header and a block with 8-byte moments, which count instead of the first, and
then a line of text with the rule for the time after the last transition. A file
that cannot be read is refused with the first flaw that is met.
-/

namespace CivilTime.Zone.File

open Bytes

/-- The four bytes that all zone files start with. -/
def magic : Bytes := [0x54, 0x5a, 0x69, 0x66]

/-- Whether some data could be a zone file, by its first bytes. -/
def hasMagic (bs : Bytes) : Bool := bs.take 4 = magic

/-- The counts of what a block of data holds. -/
structure Header where
  version : Nat
  utcFlags : Nat
  standardFlags : Nat
  leaps : Nat
  transitions : Nat
  types : Nat
  chars : Nat
  deriving Repr

/-- The number that big-endian bytes stand for. -/
def bigNat (bs : Bytes) : Nat := toNat bs.reverse

/-- The integer that big-endian bytes stand for in two's complement. -/
def bigInt (bs : Bytes) : Int := toInt bs.reverse

/-- The first `n` bytes and the rest. -/
def take (n : Nat) (bs : Bytes) : Outcome (Bytes × Bytes) :=
  if n ≤ bs.length then .ok (bs.take n, bs.drop n) else .error (.malformedZone (.cutOff n))

/-- Cuts bytes into `count` items of `size` bytes each. -/
def items {α : Type} (size : Nat) (item : Bytes → α) : Nat → Bytes → List α
  | 0, _ => []
  | count + 1, bs => item (bs.take size) :: items size item count (bs.drop size)

/-- Reads `count` items of `size` bytes each, all at once. -/
def readMany {α : Type} (size : Nat) (item : Bytes → α) (count : Nat) (bs : Bytes) :
    Outcome (List α × Bytes) := do
  let (part, bs) ← take (count * size) bs
  return (items size item count part, bs)

/-- The version that its mark stands for: a zero byte for 1, or a digit. -/
def versionOf : Bytes → Outcome Nat
  | [0] => .ok 1
  | [mark] =>
    if 0x30 ≤ mark ∧ mark ≤ 0x39 then .ok (mark.toNat - 0x30)
    else .error (.malformedZone (.version [mark]))
  | mark => .error (.malformedZone (.version mark))

/-- Reads a header: the magic bytes, the mark for the version, fifteen unused bytes
and six counts. -/
def readHeader (bs : Bytes) : Outcome (Header × Bytes) := do
  if !hasMagic bs then
    throw (.malformedZone .magic)
  let version ← versionOf ((bs.drop 4).take 1)
  let (part, rest) ← take 24 (bs.drop 20)
  let count (i : Nat) : Nat := bigNat ((part.drop (4 * i)).take 4)
  return (⟨version, count 0, count 1, count 2, count 3, count 4, count 5⟩, rest)

/-- The length of a block of data with moments of `width` bytes. -/
def Header.blockLength (h : Header) (width : Nat) : Nat :=
  h.transitions * (width + 1) + h.types * 6 + h.chars + h.leaps * (width + 4) +
    h.standardFlags + h.utcFlags

/-- An offset, and whether it is for summer. -/
structure OffsetType where
  offset : Int
  isSummer : Bool
  deriving Repr

/-- The data of a block that matters: the transitions with the number of the type
that each goes over to, and the types. -/
structure Block where
  transitions : List (Int × Nat)
  types : List OffsetType
  deriving Repr

/-- An offset type of six bytes: the offset, whether it is for summer, and the place
of its name. -/
def typeOf (bs : Bytes) : OffsetType := ⟨bigInt (bs.take 4), (bs.drop 4).headD 0 ≠ 0⟩

/-- Reads offset types, one after the other. -/
def readTypes : Nat → Bytes → Outcome (List OffsetType × Bytes)
  | 0, bs => .ok ([], bs)
  | count + 1, bs => do
    let (part, bs) ← take 6 bs
    let (types, bs) ← readTypes count bs
    return (typeOf part :: types, bs)

/-- Reads the transitions and the types of a block of data with moments of `width`
bytes. The names and what else there is in the block are skipped. -/
def readBlock (h : Header) (width : Nat) (bs : Bytes) : Outcome (Block × Bytes) := do
  let (moments, bs) ← readMany width bigInt h.transitions bs
  let (numbers, bs) ← readMany 1 bigNat h.transitions bs
  let (types, bs) ← readTypes h.types bs
  return (⟨moments.zip numbers, types⟩,
    bs.drop (h.chars + h.leaps * (width + 4) + h.standardFlags + h.utcFlags))

/-- The line of text after a block, between two line ends. -/
def readLine : Bytes → Outcome Bytes
  | 10 :: bs =>
    let line := bs.takeWhile (· ≠ 10)
    if line.length < bs.length then .ok line else .error (.malformedZone .lineEnd)
  | bs => .error (.malformedZone (.lineStart (bs.take 1)))

/-- The transitions of a block, with the offsets of the types they go over to. -/
def Block.offsets (block : Block) : Outcome (List Transition) :=
  block.transitions.mapM fun (moment, number) =>
    match block.types[number]? with
    | some t => .ok (Transition.mk moment t.offset)
    | none => .error (.malformedZone (.typeNumber number))

/-- The offset that stays if there is no rule: that of the last transition, or of the
last type if there is no transition. -/
def Block.lastOffset (block : Block) (transitions : List Transition) : Outcome Int :=
  match transitions.getLast?, block.types.getLast? with
  | some t, _ => .ok t.offset
  | none, some t => .ok t.offset
  | none, none => .error (.malformedZone .noOffset)

/-- Puts a table together. Before the first transition the first type that is not for
summer counts. -/
def toTable (block : Block) (line : Bytes) : Outcome Table := do
  let transitions ← block.offsets
  let footer ←
    if line = [] then Footer.fixed <$> block.lastOffset transitions else Footer.read line
  let first := block.types.head?.elim 0 (·.offset)
  let early := (block.types.find? fun t => !t.isSummer).elim first (·.offset)
  return ⟨first, early, transitions, footer⟩

/-- Reads a zone file. -/
def read (bs : Bytes) : Outcome Table := do
  let (header, bs) ← readHeader bs
  if header.version = 1 then
    let (block, _) ← readBlock header 4 bs
    toTable block []
  else
    let (header, bs) ← readHeader (bs.drop (header.blockLength 4))
    let (block, bs) ← readBlock header 8 bs
    toTable block (← if header.version < 2 then .ok [] else readLine bs)

end CivilTime.Zone.File
