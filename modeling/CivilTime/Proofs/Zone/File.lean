import CivilTime.Proofs.Outcome
import CivilTime.Zone.File

/-!
# Faults of zone files

A file that cannot be read is refused with a flaw of its own. In particular reading never
says that there is no zone, which is reserved for keys without a file.
-/

namespace CivilTime.Zone.File

/-- The fault is a flaw of a zone file. -/
def IsFlaw (fault : Fault) : Prop := ∃ flaw, fault = .malformedZone flaw

theorem failsWith_take (n : Nat) (bs : Bytes) : FailsWith (take n bs) IsFlaw :=
  failsWith_ite (fun _ => failsWith_ok) fun _ => failsWith_error.mpr ⟨_, rfl⟩

theorem failsWith_readMany {α : Type} (size : Nat) (item : Bytes → α) (count : Nat) (bs : Bytes) :
    FailsWith (readMany size item count bs) IsFlaw :=
  (failsWith_take _ bs).bind fun _ => failsWith_pure

theorem failsWith_versionOf (mark : Bytes) : FailsWith (versionOf mark) IsFlaw := by
  fun_cases versionOf mark with
  | case1 | case2 => exact failsWith_ok
  | case3 | case4 => exact failsWith_error.mpr ⟨_, rfl⟩

theorem failsWith_readHeader (bs : Bytes) : FailsWith (readHeader bs) IsFlaw := by
  rw [readHeader]
  split
  case isTrue => exact failsWith_error.mpr ⟨_, rfl⟩
  case isFalse =>
    exact (failsWith_versionOf _).bind fun _ => (failsWith_take _ _).bind fun _ => failsWith_pure

theorem failsWith_readTypes (count : Nat) (bs : Bytes) : FailsWith (readTypes count bs) IsFlaw := by
  induction count generalizing bs with
  | zero => exact failsWith_ok
  | succ count ih =>
    exact (failsWith_take 6 bs).bind fun _ => (ih _).bind fun _ => failsWith_pure

theorem failsWith_readBlock (h : Header) (width : Nat) (bs : Bytes) :
    FailsWith (readBlock h width bs) IsFlaw :=
  (failsWith_readMany _ _ _ _).bind fun _ => (failsWith_readMany _ _ _ _).bind fun _ =>
    (failsWith_readTypes _ _).bind fun _ => failsWith_pure

theorem failsWith_readLine (bs : Bytes) : FailsWith (readLine bs) IsFlaw := by
  fun_cases readLine bs with
  | case1 => exact failsWith_ok
  | case2 | case3 => exact failsWith_error.mpr ⟨_, rfl⟩

theorem failsWith_offsets (block : Block) : FailsWith block.offsets IsFlaw := by
  refine failsWith_mapM ?_
  rintro ⟨moment, number⟩ -
  dsimp only
  split
  case h_1 => exact failsWith_ok
  case h_2 => exact failsWith_error.mpr ⟨_, rfl⟩

theorem failsWith_lastOffset (block : Block) (transitions : List Transition) :
    FailsWith (block.lastOffset transitions) IsFlaw := by
  rw [Block.lastOffset]
  split
  case h_1 | h_2 => exact failsWith_ok
  case h_3 => exact failsWith_error.mpr ⟨_, rfl⟩

theorem failsWith_readFooter (line : Bytes) : FailsWith (Footer.read line) IsFlaw := by
  rw [Footer.read]
  cases Footer.readChars _ with
  | ok footer => exact failsWith_ok
  | error flaw => exact failsWith_error.mpr ⟨_, rfl⟩

theorem failsWith_toTable (block : Block) (line : Bytes) : FailsWith (toTable block line) IsFlaw := by
  refine (failsWith_offsets block).bind fun transitions => failsWith_ite (fun _ => ?_) fun _ => ?_
  · exact ((failsWith_lastOffset block transitions).map _).bind fun _ => failsWith_pure
  · exact (failsWith_readFooter line).bind fun _ => failsWith_pure

/-- Whatever is wrong with a file, the fault is a flaw of the file. -/
theorem failsWith_read (bs : Bytes) : FailsWith (read bs) IsFlaw := by
  refine (failsWith_readHeader bs).bind fun (header, rest) => failsWith_ite (fun _ => ?_) fun _ => ?_
  · exact (failsWith_readBlock _ _ _).bind fun _ => failsWith_toTable _ _
  · refine (failsWith_readHeader _).bind fun (header, rest) =>
      (failsWith_readBlock _ _ _).bind fun (block, rest) =>
        failsWith_ite (fun _ => failsWith_toTable block []) fun _ => ?_
    exact (failsWith_readLine rest).bind fun _ => failsWith_toTable _ _

end CivilTime.Zone.File
