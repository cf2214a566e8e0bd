import Xinim.Ext2.Alloc

/-! Mounting an ext2 image (vfs/ext2.cpp): `validate_superblock`, the
parameters `read_superblock` derives into its `uint32_t` members, and the
divisions `read_group_descriptors` and `read_inode` then make with them.

A division by zero or a shift out of range is undefined in C++; the model
returns `none` there, and `some` of what the code returns otherwise. The
validator checks the magic and four counts only, so an image it accepts may
still fault: the block size and the inode size are taken as they stand. -/

namespace Xinim.Ext2

structure SuperblockImage where
  sInodesCount : ℕ
  sBlocksCount : ℕ
  sLogBlockSize : ℕ
  sBlocksPerGroup : ℕ
  sInodesPerGroup : ℕ
  sMagic : ℕ
  sRevLevel : ℕ
  sInodeSize : ℕ
  deriving DecidableEq, Repr

def ext2Magic : ℕ := 0xEF53
def ext2DynamicRev : ℕ := 1
def ext2GoodOldInodeSize : ℕ := 128

/-- A division the code makes: undefined when the divisor is zero. -/
def divChecked (a b : ℕ) : Option ℕ := if b = 0 then none else some (a / b)

/-- The revision and state checks only log a warning. -/
def validateSuperblock (sb : SuperblockImage) : ℤ :=
  if sb.sMagic ≠ ext2Magic then -eInval
  else if sb.sBlocksCount = 0 ∨ sb.sInodesCount = 0 then -eInval
  else if sb.sBlocksPerGroup = 0 ∨ sb.sInodesPerGroup = 0 then -eInval
  else 0

/-- `1024 << s_log_block_size` is a shift of the 32-bit `int` 1024: its value
modulo `2 ^ 32` below 32 and undefined from 32 on. -/
def shiftedBlockSize (log : ℕ) : Option ℕ :=
  if log < 32 then some (1024 * 2 ^ log % 2 ^ 32) else none

structure MountParams where
  blockSize : ℕ
  inodeSize : ℕ
  numBlockGroups : ℕ
  deriving DecidableEq, Repr

/-- The number of blocks `read_group_descriptors` reads: the `size_t`
division of the table's size rounded up to whole blocks. -/
def readGroupDescriptors (p : MountParams) : Option ℕ :=
  divChecked (p.numBlockGroups * groupDescriptorSize + p.blockSize - 1) p.blockSize

def MountParams.ofSuperblock (sb : SuperblockImage) (blockSize : ℕ) : MountParams where
  blockSize
  inodeSize := if sb.sRevLevel = ext2DynamicRev then sb.sInodeSize else ext2GoodOldInodeSize
  -- the sum wraps in uint32_t before the division
  numBlockGroups := (sb.sBlocksCount + sb.sBlocksPerGroup + 2 ^ 32 - 1) % 2 ^ 32 / sb.sBlocksPerGroup

/-- `read_superblock` after the device read: validate, derive the parameters
and read the group descriptor table. -/
def readSuperblock (sb : SuperblockImage) : Option (Except ℤ MountParams) := do
  let ret := validateSuperblock sb
  if ret < 0 then return .error ret
  let blockSize ← shiftedBlockSize sb.sLogBlockSize
  let p := MountParams.ofSuperblock sb blockSize
  let _ ← readGroupDescriptors p
  return .ok p

/-- Where `read_inode` reads inode `inodeNum` from: the block of the group's
inode table (`bgInodeTable` of each group) and the byte position in it. -/
def readInodePlace (sb : SuperblockImage) (p : MountParams) (bgInodeTable : ℕ → ℕ)
    (inodeNum : ℕ) : Option (Except ℤ (ℕ × ℕ)) := do
  if inodeNum = 0 ∨ inodeNum > sb.sInodesCount then return .error (-eInval)
  let group ← divChecked (inodeNum - 1) sb.sInodesPerGroup
  let index := (inodeNum - 1) % sb.sInodesPerGroup
  if group ≥ p.numBlockGroups then return .error (-eInval)
  let inodesPerBlock ← divChecked p.blockSize p.inodeSize
  let blockOffset ← divChecked index inodesPerBlock
  return .ok ((bgInodeTable group + blockOffset) % 2 ^ 32,
    index % inodesPerBlock * p.inodeSize % 2 ^ 32)

variable {sb : SuperblockImage} {p : MountParams}

@[simp] theorem divChecked_eq_none {a b : ℕ} : divChecked a b = none ↔ b = 0 := by
  unfold divChecked; split_ifs <;> simp_all

def unsizedInodeImage : SuperblockImage where
  sInodesCount := 16
  sBlocksCount := 64
  sLogBlockSize := 0
  sBlocksPerGroup := 8192
  sInodesPerGroup := 16
  sMagic := ext2Magic
  sRevLevel := ext2DynamicRev
  sInodeSize := 0

/-- `validate_superblock` accepts the image and the mount succeeds with inode
size 0, so `read_inode` of inode 1 divides by zero; with a log block size of
22 the block size wraps to 0 and the mount itself divides by zero in
`read_group_descriptors`; and a block count of `2 ^ 32 - 1` wraps the group
count to 0. -/
theorem accepted_superblock_divides_by_zero :
    validateSuperblock unsizedInodeImage = 0 ∧
      readSuperblock unsizedInodeImage = some (.ok ⟨1024, 0, 1⟩) ∧
      (∀ bgInodeTable, readInodePlace unsizedInodeImage ⟨1024, 0, 1⟩ bgInodeTable 1 = none) ∧
      readSuperblock { unsizedInodeImage with sLogBlockSize := 22 } = none ∧
      readSuperblock { unsizedInodeImage with sBlocksCount := 2 ^ 32 - 1, sRevLevel := 0 } =
        some (.ok ⟨1024, 128, 0⟩) :=
  ⟨rfl, rfl, fun _ => rfl, rfl, rfl⟩

end Xinim.Ext2
