import Mathlib.Algebra.BigOperators.Group.Finset.Basic
import Xinim.Data.Bitmap

/-! The block and inode allocators of the ext2 driver (vfs/ext2.cpp). The
superblock and the group descriptors are the copies `Ext2Filesystem` keeps in
memory; the blocks are what `read_block` returns through the buffer cache,
each block a function from byte offsets (below `block_size_`) to bytes. A
bitmap is the `std::vector<uint8_t>` of one block, bit `i` in byte `i / 8`.

Numbers are naturals below their C++ width; a `uint32_t` sum or difference
that can wrap is taken modulo `2 ^ 32`, and a counter that `++` or `--` can
wrap modulo its width. The device under the cache is taken to answer every
read; a write fails only on a read-only mount. -/

namespace Xinim.Ext2

def eInval : ℤ := 22
def eNoSpc : ℤ := 28
def eRofs : ℤ := 30

def sIfmt : ℕ := 0xF000
def sIfdir : ℕ := 0x4000

structure Superblock where
  sInodesCount : ℕ
  sBlocksCount : ℕ
  sFreeBlocksCount : ℕ
  sFreeInodesCount : ℕ
  sFirstDataBlock : ℕ
  sBlocksPerGroup : ℕ
  sInodesPerGroup : ℕ

structure GroupDescriptor where
  bgBlockBitmap : ℕ
  bgInodeBitmap : ℕ
  bgInodeTable : ℕ
  bgFreeBlocksCount : ℕ
  bgFreeInodesCount : ℕ
  bgUsedDirsCount : ℕ
  bgPad : ℕ
  bgReserved : ℕ × ℕ × ℕ

def leBytes (width x : ℕ) : List UInt8 := (List.range width).map fun k => UInt8.ofNat (x / 256 ^ k)

def groupDescriptorSize : ℕ := 32

def GroupDescriptor.bytes (d : GroupDescriptor) : List UInt8 :=
  leBytes 4 d.bgBlockBitmap ++ leBytes 4 d.bgInodeBitmap ++ leBytes 4 d.bgInodeTable ++
    leBytes 2 d.bgFreeBlocksCount ++ leBytes 2 d.bgFreeInodesCount ++
    leBytes 2 d.bgUsedDirsCount ++ leBytes 2 d.bgPad ++ leBytes 4 d.bgReserved.1 ++
    leBytes 4 d.bgReserved.2.1 ++ leBytes 4 d.bgReserved.2.2

/-- `Ext2Filesystem` with what it inherits from `BlockFilesystem`: the
counters `free_blocks_` and `free_inodes_`, the mount's read-only flag, and
the blocks as the buffer cache returns them. `group_descriptors_` holds
`num_block_groups_` entries; every access is below that. -/
structure Ext2Filesystem where
  superblock : Superblock
  groupDescriptors : ℕ → GroupDescriptor
  numBlockGroups : ℕ
  blockSize : ℕ
  inodeSize : ℕ
  freeBlocks : ℕ
  freeInodes : ℕ
  readOnly : Bool
  blocks : ℕ → ℕ → UInt8

/-- `test_bit`: a bit past the end of the vector reads as clear. -/
def testBit (bitmap : ℕ → UInt8) (size bitIndex : ℕ) : Bool :=
  if size ≤ bitIndex / 8 then false else Bitmap.test bitmap bitIndex

def setBit (bitmap : ℕ → UInt8) (size bitIndex : ℕ) : ℕ → UInt8 :=
  if bitIndex / 8 < size then Bitmap.set bitmap bitIndex else bitmap

def clearBit (bitmap : ℕ → UInt8) (size bitIndex : ℕ) : ℕ → UInt8 :=
  if bitIndex / 8 < size then Bitmap.clear bitmap bitIndex else bitmap

def findFreeBit (bitmap : ℕ → UInt8) (size : ℕ) : Option ℕ :=
  (List.range (size * 8)).find? fun i => !testBit bitmap size i

namespace Ext2Filesystem

variable (fs : Ext2Filesystem)

def getBlockGroup (inodeNum : ℕ) : ℕ :=
  (inodeNum + 2 ^ 32 - 1) % 2 ^ 32 / fs.superblock.sInodesPerGroup

def getGroupIndex (inodeNum : ℕ) : ℕ :=
  (inodeNum + 2 ^ 32 - 1) % 2 ^ 32 % fs.superblock.sInodesPerGroup

def writeBlock (blockNum : ℕ) (buffer : ℕ → UInt8) : Except ℤ Ext2Filesystem :=
  if fs.readOnly then .error (-eRofs)
  else .ok { fs with blocks := Function.update fs.blocks blockNum buffer }

def readDataBlock (blockNum : ℕ) : Except ℤ (ℕ → UInt8) :=
  -- block 0 is a hole and reads as zeros
  if blockNum = 0 then .ok fun _ => 0
  else if fs.superblock.sBlocksCount ≤ blockNum then .error (-eInval)
  else .ok (fs.blocks blockNum)

def writeDataBlock (blockNum : ℕ) (buffer : ℕ → UInt8) : Except ℤ Ext2Filesystem :=
  if blockNum = 0 ∨ fs.superblock.sBlocksCount ≤ blockNum then .error (-eInval)
  else fs.writeBlock blockNum buffer

def gdtBlock : ℕ := if fs.blockSize = 1024 then 2 else 1

def gdtBlocks : ℕ :=
  (fs.numBlockGroups * groupDescriptorSize + fs.blockSize - 1) / fs.blockSize

def gdtBuffer (k : ℕ) : UInt8 :=
  if k < fs.numBlockGroups * groupDescriptorSize then
    (fs.groupDescriptors (k / groupDescriptorSize)).bytes.getD (k % groupDescriptorSize) 0
  else 0

/-- `write_group_descriptors`: `write_blocks` writes the table's blocks one
by one through `write_block`, which fails only on a read-only mount and then
at the first block. Its callers here drop the result. -/
def writeGroupDescriptors : Ext2Filesystem :=
  if fs.readOnly then fs
  else { fs with blocks := fun b =>
    if fs.gdtBlock ≤ b ∧ b < fs.gdtBlock + fs.gdtBlocks then
      fun j => fs.gdtBuffer ((b - fs.gdtBlock) * fs.blockSize + j)
    else fs.blocks b }

/-- The common middle of `allocate_block` and `allocate_inode` at one group:
read the bitmap, find its first clear bit, set it and write the bitmap back.
`none` is the loop's `continue`. -/
def claimBit (bitmapBlock : ℕ) : Option (Except ℤ (Ext2Filesystem × ℕ)) :=
  match fs.readDataBlock bitmapBlock with
  | .error _ => none
  | .ok bitmap =>
    match findFreeBit bitmap fs.blockSize with
    | none => none
    | some bitIndex =>
      some ((fs.writeDataBlock bitmapBlock (setBit bitmap fs.blockSize bitIndex)).map
        fun fs => (fs, bitIndex))

/-- The common middle of `free_block` and `free_inode`: read the bitmap,
and clear the bit and write the bitmap back unless the bit is already clear
(`none`). -/
def releaseBit (bitmapBlock bitIndex : ℕ) : Except ℤ (Option Ext2Filesystem) :=
  match fs.readDataBlock bitmapBlock with
  | .error ret => .error ret
  | .ok bitmap =>
    if !testBit bitmap fs.blockSize bitIndex then .ok none
    else (fs.writeDataBlock bitmapBlock (clearBit bitmap fs.blockSize bitIndex)).map some

def allocateBlockIn (group : ℕ) : Option (Except ℤ (Ext2Filesystem × ℕ)) :=
  let gd := fs.groupDescriptors group
  if gd.bgFreeBlocksCount = 0 then none
  else (fs.claimBit gd.bgBlockBitmap).map fun claimed => claimed.map fun (fs, bitIndex) =>
    let sb := fs.superblock
    let blockNum := (sb.sFirstDataBlock + group * sb.sBlocksPerGroup + bitIndex) % 2 ^ 32
    let fs := { fs with
      groupDescriptors := Function.update fs.groupDescriptors group
        { gd with bgFreeBlocksCount := gd.bgFreeBlocksCount - 1 }
      superblock := { sb with sFreeBlocksCount := (sb.sFreeBlocksCount + 2 ^ 32 - 1) % 2 ^ 32 }
      freeBlocks := (fs.freeBlocks + 2 ^ 64 - 1) % 2 ^ 64 }
    (fs.writeGroupDescriptors, blockNum)

/-- `allocate_block`: the groups from the preferred one on, wrapping, the
first that yields a block. -/
def allocateBlock (preferredGroup : ℕ) : Except ℤ (Ext2Filesystem × ℕ) :=
  let n := fs.numBlockGroups
  let preferredGroup := if n ≤ preferredGroup then 0 else preferredGroup
  (((List.range n).map fun attempt => (preferredGroup + attempt) % 2 ^ 32 % n).findSome?
    fs.allocateBlockIn).getD (.error (-eNoSpc))

def freeBlock (blockNum : ℕ) : Except ℤ Ext2Filesystem :=
  let sb := fs.superblock
  if blockNum = 0 ∨ sb.sBlocksCount ≤ blockNum then .error (-eInval)
  else
    let relativeBlock := (blockNum + 2 ^ 32 - sb.sFirstDataBlock) % 2 ^ 32
    let group := relativeBlock / sb.sBlocksPerGroup
    let bitIndex := relativeBlock % sb.sBlocksPerGroup
    if fs.numBlockGroups ≤ group then .error (-eInval)
    else
      let gd := fs.groupDescriptors group
      match fs.releaseBit gd.bgBlockBitmap bitIndex with
      | .error ret => .error ret
      | .ok none => .ok fs
      | .ok (some fs) =>
        let sb := fs.superblock
        let fs := { fs with
          groupDescriptors := Function.update fs.groupDescriptors group
            { gd with bgFreeBlocksCount := (gd.bgFreeBlocksCount + 1) % 2 ^ 16 }
          superblock := { sb with sFreeBlocksCount := (sb.sFreeBlocksCount + 1) % 2 ^ 32 }
          freeBlocks := (fs.freeBlocks + 1) % 2 ^ 64 }
        .ok fs.writeGroupDescriptors

def allocateInodeIn (isDirectory : Bool) (group : ℕ) :
    Option (Except ℤ (Ext2Filesystem × ℕ)) :=
  let gd := fs.groupDescriptors group
  if gd.bgFreeInodesCount = 0 then none
  else (fs.claimBit gd.bgInodeBitmap).map fun claimed => claimed.map fun (fs, bitIndex) =>
    let sb := fs.superblock
    let inodeNum := (1 + group * sb.sInodesPerGroup + bitIndex) % 2 ^ 32
    let fs := { fs with
      groupDescriptors := Function.update fs.groupDescriptors group
        { gd with
          bgFreeInodesCount := gd.bgFreeInodesCount - 1
          bgUsedDirsCount :=
            if isDirectory then (gd.bgUsedDirsCount + 1) % 2 ^ 16 else gd.bgUsedDirsCount }
      superblock := { sb with sFreeInodesCount := (sb.sFreeInodesCount + 2 ^ 32 - 1) % 2 ^ 32 }
      freeInodes := (fs.freeInodes + 2 ^ 64 - 1) % 2 ^ 64 }
    (fs.writeGroupDescriptors, inodeNum)

/-- `allocate_inode`: from the parent directory's group on, unchecked. -/
def allocateInode (parentDirInode : ℕ) (isDirectory : Bool) : Except ℤ (Ext2Filesystem × ℕ) :=
  let n := fs.numBlockGroups
  let preferredGroup := fs.getBlockGroup parentDirInode
  (((List.range n).map fun attempt => (preferredGroup + attempt) % 2 ^ 32 % n).findSome?
    (fs.allocateInodeIn isDirectory)).getD (.error (-eNoSpc))

def readInodeMode (inodeNum : ℕ) : Except ℤ ℕ :=
  if inodeNum = 0 ∨ fs.superblock.sInodesCount < inodeNum then .error (-eInval)
  else
    let group := fs.getBlockGroup inodeNum
    let index := fs.getGroupIndex inodeNum
    if fs.numBlockGroups ≤ group then .error (-eInval)
    else
      let inodesPerBlock := fs.blockSize / fs.inodeSize
      let blockBuffer :=
        fs.blocks (((fs.groupDescriptors group).bgInodeTable + index / inodesPerBlock) % 2 ^ 32)
      let inodePos := index % inodesPerBlock * fs.inodeSize
      .ok ((blockBuffer inodePos).toNat + 256 * (blockBuffer (inodePos + 1)).toNat)

def freeInode (inodeNum : ℕ) : Except ℤ Ext2Filesystem :=
  if inodeNum = 0 ∨ fs.superblock.sInodesCount < inodeNum then .error (-eInval)
  else
    let group := fs.getBlockGroup inodeNum
    let bitIndex := fs.getGroupIndex inodeNum
    if fs.numBlockGroups ≤ group then .error (-eInval)
    else
      -- whether to count a directory less is read from the inode on disk
      let isDirectory := match fs.readInodeMode inodeNum with
        | .ok mode => mode &&& sIfmt == sIfdir
        | .error _ => false
      let gd := fs.groupDescriptors group
      match fs.releaseBit gd.bgInodeBitmap bitIndex with
      | .error ret => .error ret
      | .ok none => .ok fs
      | .ok (some fs) =>
        let sb := fs.superblock
        let fs := { fs with
          groupDescriptors := Function.update fs.groupDescriptors group
            { gd with
              bgFreeInodesCount := (gd.bgFreeInodesCount + 1) % 2 ^ 16
              bgUsedDirsCount :=
                if isDirectory ∧ 0 < gd.bgUsedDirsCount then gd.bgUsedDirsCount - 1
                else gd.bgUsedDirsCount }
          superblock := { sb with sFreeInodesCount := (sb.sFreeInodesCount + 1) % 2 ^ 32 }
          freeInodes := (fs.freeInodes + 1) % 2 ^ 64 }
        .ok fs.writeGroupDescriptors

/-- The block bitmap bits of `group` that stand for blocks of the
filesystem: at most `s_blocks_per_group`, fewer in the last group. -/
def blocksInGroup (group : ℕ) : ℕ :=
  min fs.superblock.sBlocksPerGroup
    (fs.superblock.sBlocksCount - (fs.superblock.sFirstDataBlock + group * fs.superblock.sBlocksPerGroup))

def inodesInGroup (group : ℕ) : ℕ :=
  min fs.superblock.sInodesPerGroup
    (fs.superblock.sInodesCount - group * fs.superblock.sInodesPerGroup)

def bitmapAt (bitmapBlock : ℕ) : ℕ → UInt8 :=
  if bitmapBlock = 0 then fun _ => 0 else fs.blocks bitmapBlock

def clearBits (bitmap : ℕ → UInt8) (size n : ℕ) : ℕ :=
  (List.range n).countP fun i => !testBit bitmap size i

/-- The counters agree with the bitmaps: each group counts the clear bits of
its blocks and inodes that exist, the superblock counts the sums, and the
cached totals repeat the superblock. -/
structure Counted : Prop where
  groupBlocks : ∀ g < fs.numBlockGroups, (fs.groupDescriptors g).bgFreeBlocksCount =
    clearBits (fs.bitmapAt (fs.groupDescriptors g).bgBlockBitmap) fs.blockSize (fs.blocksInGroup g)
  groupInodes : ∀ g < fs.numBlockGroups, (fs.groupDescriptors g).bgFreeInodesCount =
    clearBits (fs.bitmapAt (fs.groupDescriptors g).bgInodeBitmap) fs.blockSize (fs.inodesInGroup g)
  superBlocks : fs.superblock.sFreeBlocksCount =
    ∑ g ∈ Finset.range fs.numBlockGroups, (fs.groupDescriptors g).bgFreeBlocksCount
  superInodes : fs.superblock.sFreeInodesCount =
    ∑ g ∈ Finset.range fs.numBlockGroups, (fs.groupDescriptors g).bgFreeInodesCount
  cachedBlocks : fs.freeBlocks = fs.superblock.sFreeBlocksCount
  cachedInodes : fs.freeInodes = fs.superblock.sFreeInodesCount

instance : Decidable fs.Counted :=
  decidable_of_iff
    ((∀ g < fs.numBlockGroups, (fs.groupDescriptors g).bgFreeBlocksCount =
      clearBits (fs.bitmapAt (fs.groupDescriptors g).bgBlockBitmap) fs.blockSize (fs.blocksInGroup g)) ∧
    (∀ g < fs.numBlockGroups, (fs.groupDescriptors g).bgFreeInodesCount =
      clearBits (fs.bitmapAt (fs.groupDescriptors g).bgInodeBitmap) fs.blockSize (fs.inodesInGroup g)) ∧
    fs.superblock.sFreeBlocksCount =
      ∑ g ∈ Finset.range fs.numBlockGroups, (fs.groupDescriptors g).bgFreeBlocksCount ∧
    fs.superblock.sFreeInodesCount =
      ∑ g ∈ Finset.range fs.numBlockGroups, (fs.groupDescriptors g).bgFreeInodesCount ∧
    fs.freeBlocks = fs.superblock.sFreeBlocksCount ∧ fs.freeInodes = fs.superblock.sFreeInodesCount)
    ⟨fun ⟨a, b, c, d, e, f⟩ => ⟨a, b, c, d, e, f⟩, fun ⟨a, b, c, d, e, f⟩ => ⟨a, b, c, d, e, f⟩⟩

end Ext2Filesystem

/-- One group of 1 KiB blocks as mke2fs lays it out, cut down to 64 blocks
and 16 inodes: the superblock in block 1, the descriptor table in block 2,
the block and inode bitmaps in blocks 3 and 4 and the inode table from block
5. Blocks 1 to 6 and inodes 1 to 10 are in use, and the inode table is zero. -/
def freshFs : Ext2Filesystem where
  superblock := ⟨16, 64, 57, 6, 1, 8192, 16⟩
  groupDescriptors := fun _ => ⟨3, 4, 5, 57, 6, 0, 0, (0, 0, 0)⟩
  numBlockGroups := 1
  blockSize := 1024
  inodeSize := 128
  freeBlocks := 57
  freeInodes := 6
  readOnly := false
  blocks := fun b k => if b = 3 ∧ k = 0 then 0x3F else if b = 4 ∧ k = 0 then 0xFF
    else if b = 4 ∧ k = 1 then 0x03 else 0

theorem freed_directory_inode_stays_counted :
    freshFs.Counted ∧ (freshFs.groupDescriptors 0).bgUsedDirsCount = 0 ∧
    ((freshFs.allocateInode 2 true).bind fun (fs, inodeNum) => fs.freeInode inodeNum).map
      (fun fs => ((fs.groupDescriptors 0).bgFreeInodesCount, (fs.groupDescriptors 0).bgUsedDirsCount)) =
      .ok (6, 1) := by
  decide +kernel

end Xinim.Ext2
