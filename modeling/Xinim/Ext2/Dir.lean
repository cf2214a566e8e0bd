import Xinim.Ext2.Node

/-! Directories of `Ext2Node` (vfs/ext2.cpp): the variable-length records of
a directory block, the walks of `readdir` and `lookup` over the directory's
bytes, and `add_directory_entry`, `remove_directory_entry` and
`find_directory_entry` over its blocks.

A record is read in place from the block's `std::vector<uint8_t>`: the inode
number (4 bytes), `rec_len` (2), `name_len` (1), `file_type` (1), then the
name; a field past the vector's end is an `outOfBounds` fault. An offset
inside a block is below `block_size`, so adding a `rec_len` to it does not
wrap; the offset into the whole directory is a `uint32_t` and does. The
loops over the records of one block move forward by `rec_len` and stop at a
zero one, so `block_size` turns are enough. The outer loops of `readdir` and
`lookup` have no bound: they run here for `fuel` turns, and `none` is a walk
still going when the fuel is spent. -/

namespace Xinim.Ext2

def eNoEnt : ℤ := 2

def eNotDir : ℤ := 20

def ext2NameLen : ℕ := 255

def fieldAt (buffer : ℕ → UInt8) : ℕ → ℕ → ℕ
  | _, 0 => 0
  | off, width + 1 => (buffer off).toNat + 2 ^ 8 * fieldAt buffer (off + 1) width

def readField (buffer : ℕ → UInt8) (blockSize off width : ℕ) : Except Fault ℕ :=
  if off + width ≤ blockSize then .ok (fieldAt buffer off width) else .error .outOfBounds

def writeBytes (buffer : ℕ → UInt8) (blockSize off : ℕ) (bytes : List UInt8) : Except Fault (ℕ → UInt8) :=
  if off + bytes.length ≤ blockSize then
    .ok fun j => if off ≤ j ∧ j < off + bytes.length then bytes.getD (j - off) 0 else buffer j
  else .error .outOfBounds

namespace DirEntry

variable (buffer : ℕ → UInt8) (blockSize off : ℕ)

def inode : Except Fault ℕ := readField buffer blockSize off 4

def recLen : Except Fault ℕ := readField buffer blockSize (off + 4) 2

def nameLen : Except Fault ℕ := readField buffer blockSize (off + 6) 1

def name (n : ℕ) : Except Fault (List UInt8) :=
  if off + 8 + n ≤ blockSize then .ok ((List.range n).map fun k => buffer (off + 8 + k))
  else .error .outOfBounds

/-- `entry->inode != 0 && entry->name_len > 0` of `readdir` and `lookup`,
with the name of such a record. -/
def liveName : Except Fault (Option (List UInt8)) := do
  if (← inode buffer blockSize off) = 0 then return none
  let n ← nameLen buffer blockSize off
  if n = 0 then return none
  return some (← name buffer blockSize off n)

/-- `entry->inode != 0 && entry->name_len == name.length() && memcmp(...) == 0`
of `remove_directory_entry` and `find_directory_entry`. -/
def isNamed (target : List UInt8) : Except Fault Bool := do
  if (← inode buffer blockSize off) = 0 then return false
  if (← nameLen buffer blockSize off) ≠ target.length then return false
  return (← name buffer blockSize off target.length) == target

def write (inodeNum recLen : ℕ) (target : List UInt8) (fileType : UInt8) : Except Fault (ℕ → UInt8) := do
  let buffer ← writeBytes buffer blockSize off (leBytes 4 inodeNum)
  let buffer ← writeBytes buffer blockSize (off + 4) (leBytes 2 recLen)
  let buffer ← writeBytes buffer blockSize (off + 6) (leBytes 1 target.length)
  let buffer ← writeBytes buffer blockSize (off + 7) [fileType]
  writeBytes buffer blockSize (off + 8) target

end DirEntry

def calculateRecLen (nameLen : ℕ) : ℕ := (8 + nameLen + 3) / 4 * 4

def isDirectory (node : Ext2Node) : Bool := node.inode.iMode &&& sIfmt == sIfdir

section WriteBytes

variable {b b' : ℕ → UInt8} {blockSize off : ℕ} {bytes : List UInt8}

end WriteBytes

/-- The inner loop of `readdir` over one block from `blockOffset`, the
directory's `offset` moving with it; a zero `rec_len` ends it where it is. -/
def readdirBlock (buffer : ℕ → UInt8) (blockSize dirSize : ℕ) :
    ℕ → ℕ → ℕ → List (List UInt8) → Except Fault (ℕ × List (List UInt8))
  | 0, offset, _, entries => return (offset, entries)
  | fuel + 1, offset, blockOffset, entries => do
    if blockOffset < blockSize ∧ offset < dirSize then
      let recLen ← DirEntry.recLen buffer blockSize blockOffset
      if recLen = 0 then return (offset, entries)
      let named ← DirEntry.liveName buffer blockSize blockOffset
      readdirBlock buffer blockSize dirSize fuel ((offset + recLen) % 2 ^ 32) (blockOffset + recLen)
        (entries ++ named.toList)
    else return (offset, entries)

/-- Where the scan of one block for a name ends: at a record in use with that
name, or at the offset the directory walk goes on from. -/
inductive BlockScan
  | found (inodeNum : ℕ)
  | next (offset : ℕ)
  deriving DecidableEq, Repr

def lookupBlock (buffer : ℕ → UInt8) (blockSize dirSize : ℕ) (target : List UInt8) :
    ℕ → ℕ → ℕ → Except Fault BlockScan
  | 0, offset, _ => return .next offset
  | fuel + 1, offset, blockOffset => do
    if blockOffset < blockSize ∧ offset < dirSize then
      let recLen ← DirEntry.recLen buffer blockSize blockOffset
      if recLen = 0 then return .next offset
      if (← DirEntry.liveName buffer blockSize blockOffset) = some target then
        return .found (← DirEntry.inode buffer blockSize blockOffset)
      lookupBlock buffer blockSize dirSize target fuel ((offset + recLen) % 2 ^ 32) (blockOffset + recLen)
    else return .next offset

namespace Ext2Node

open NodeM

/-- `get_data_block` whose caller stops or skips the block on an error. -/
def tryDataBlock (blockIdx : ℕ) : NodeM (Option ℕ) :=
  tryCatch (some <$> getDataBlock blockIdx) fun _ => pure none

def readdirLoop (dirSize : ℕ) : ℕ → ℕ → List (List UInt8) → NodeM (Option (List (List UInt8)))
  | 0, _, _ => return none
  | fuel + 1, offset, entries => do
    if offset < dirSize then
      let blockSize := (← getFs).blockSize
      let some blockNum ← tryDataBlock (offset / blockSize) | return some entries
      let some buffer ← tryReadBlock blockNum | return some entries
      let (offset, entries) ← readdirBlock buffer blockSize dirSize blockSize offset (offset % blockSize) entries
      readdirLoop dirSize fuel offset entries
    else return some entries

/-- `readdir`, for at most `fuel` turns of its outer loop: the names of the
records in use. -/
def readdir (fuel : ℕ) : NodeM (Option (List (List UInt8))) := do
  let node ← getNode
  if !isDirectory node then return some []
  readdirLoop node.inode.iSize fuel 0 []

def lookupLoop (target : List UInt8) (dirSize : ℕ) : ℕ → ℕ → NodeM (Option (Option ℕ))
  | 0, _ => return none
  | fuel + 1, offset => do
    if offset < dirSize then
      let blockSize := (← getFs).blockSize
      let some blockNum ← tryDataBlock (offset / blockSize) | return some none
      let some buffer ← tryReadBlock blockNum | return some none
      match ← lookupBlock buffer blockSize dirSize target blockSize offset (offset % blockSize) with
      | .found inodeNum => return some (some inodeNum)
      | .next offset => lookupLoop target dirSize fuel offset
    else return some none

/-- `lookup`, for at most `fuel` turns of its outer loop: the inode number
the returned node is made from. -/
def lookup (target : List UInt8) (fuel : ℕ) : NodeM (Option (Option ℕ)) := do
  let node ← getNode
  if !isDirectory node then return some none
  lookupLoop target node.inode.iSize fuel 0

/-- The loop over the blocks `0 .. dir_blocks` of `add_directory_entry`,
`remove_directory_entry` and `find_directory_entry`: a block that cannot be
mapped or read is skipped, and the first block `visit` returns a result for
ends it. -/
def scanBlocks {α : Type} (visit : ℕ → ℕ → (ℕ → UInt8) → NodeM (Option α)) : List ℕ → NodeM (Option α)
  | [] => return none
  | blockIdx :: rest => do
    let some blockNum ← tryDataBlock blockIdx | scanBlocks visit rest
    let some buffer ← tryReadBlock blockNum | scanBlocks visit rest
    match ← visit blockIdx blockNum buffer with
    | some a => return some a
    | none => scanBlocks visit rest

def dirBlocks (iSize blockSize : ℕ) : ℕ := (iSize + blockSize - 1) % 2 ^ 32 / blockSize

end Ext2Node

/-- The scan of `remove_directory_entry` and `find_directory_entry` over one
block: the first record in use named `target`, with the record before it. -/
def findInBlock (buffer : ℕ → UInt8) (blockSize : ℕ) (target : List UInt8) :
    ℕ → Option ℕ → ℕ → Except Fault (Option (Option ℕ × ℕ))
  | 0, _, _ => return none
  | fuel + 1, prev, offset => do
    if offset < blockSize then
      let recLen ← DirEntry.recLen buffer blockSize offset
      if recLen = 0 then return none
      if ← DirEntry.isNamed buffer blockSize offset target then return some (prev, offset)
      findInBlock buffer blockSize target fuel (some offset) (offset + recLen)
    else return none

/-- The scan of `add_directory_entry` over one block: its last record, split
when the slack past its own length holds `requiredLen` bytes. -/
def splitLast (buffer : ℕ → UInt8) (blockSize requiredLen newInodeNum : ℕ) (target : List UInt8)
    (fileType : UInt8) : ℕ → ℕ → Except Fault (Option (ℕ → UInt8))
  | 0, _ => return none
  | fuel + 1, offset => do
    if offset < blockSize then
      let recLen ← DirEntry.recLen buffer blockSize offset
      if recLen = 0 then return none
      let nextOffset := offset + recLen
      if blockSize ≤ nextOffset ∨ blockSize < nextOffset + 8 then
        let actualLen := calculateRecLen (← DirEntry.nameLen buffer blockSize offset)
        -- `uint16_t available = entry->rec_len - actual_len`
        let available := (recLen + 2 ^ 16 - actualLen) % 2 ^ 16
        if requiredLen ≤ available then
          let buffer ← writeBytes buffer blockSize (offset + 4) (leBytes 2 actualLen)
          return some (← DirEntry.write buffer blockSize (offset + actualLen) newInodeNum available target fileType)
        return none
      splitLast buffer blockSize requiredLen newInodeNum target fileType fuel nextOffset
    else return none

namespace Ext2Node

open NodeM

def findDirectoryEntry (target : List UInt8) : NodeM (ℕ × ℕ) := do
  let node ← getNode
  if !isDirectory node then throw (-eNotDir)
  let blockSize := (← getFs).blockSize
  let found ← scanBlocks (fun blockIdx _ buffer => do
      return (← findInBlock buffer blockSize target blockSize none 0).map fun (_, offset) => (blockIdx, offset))
    (List.range (dirBlocks node.inode.iSize blockSize))
  let some place := found | throw (-eNoEnt)
  return place

def removeDirectoryEntry (target : List UInt8) : NodeM Unit := do
  let node ← getNode
  if !isDirectory node then throw (-eNotDir)
  let blockSize := (← getFs).blockSize
  let removed ← scanBlocks (fun _ blockNum buffer => do
      let some (prev, offset) ← findInBlock buffer blockSize target blockSize none 0 | return none
      let buffer ← match prev with
        | some prevOffset => do
          -- `prev_entry->rec_len += entry->rec_len` in `uint16_t`
          let merged := ((← DirEntry.recLen buffer blockSize prevOffset) +
            (← DirEntry.recLen buffer blockSize offset)) % 2 ^ 16
          writeBytes buffer blockSize (prevOffset + 4) (leBytes 2 merged)
        | none => writeBytes buffer blockSize offset (leBytes 4 0)
      writeBlock blockNum buffer
      return some ())
    (List.range (dirBlocks node.inode.iSize blockSize))
  if removed.isNone then throw (-eNoEnt)

def addDirectoryEntry (target : List UInt8) (newInodeNum : ℕ) (fileType : UInt8) : NodeM Unit := do
  let node ← getNode
  if !isDirectory node then throw (-eNotDir)
  if ext2NameLen < target.length then throw (-eInval)
  let blockSize := (← getFs).blockSize
  let requiredLen := calculateRecLen target.length
  let count := dirBlocks node.inode.iSize blockSize
  let added ← scanBlocks (fun _ blockNum buffer => do
      let some buffer ← splitLast buffer blockSize requiredLen newInodeNum target fileType blockSize 0
        | return none
      writeBlock blockNum buffer
      return some ())
    (List.range count)
  if added.isSome then return
  let newBlockNum ← allocateDataBlock count
  -- `entry->rec_len = block_size` keeps the low 16 bits of the block size
  let buffer ← DirEntry.write (fun _ => 0) blockSize 0 newInodeNum (blockSize % 2 ^ 16) target fileType
  writeBlock newBlockNum buffer
  setISize (((← getNode).inode.iSize + blockSize) % 2 ^ 32)

section Stall

variable {s : Ext2Filesystem × Ext2Node} {buffer : ℕ → UInt8} {blockSize dirSize offset blockOffset fuel : ℕ}

/-! A record whose `rec_len` reads as 0 ends the walk of its block where it
started, so the outer loop reads the same block at the same offset again: a
walk that reaches one never leaves it. -/

theorem readdirBlock_of_zero (entries : List (List UInt8)) (running : 0 < fuel) (inBlock : blockOffset < blockSize)
    (inDir : offset < dirSize) (zero : DirEntry.recLen buffer blockSize blockOffset = .ok 0) :
    readdirBlock buffer blockSize dirSize fuel offset blockOffset entries = .ok (offset, entries) := by
  obtain ⟨fuel, rfl⟩ := Nat.exists_eq_add_of_lt running
  simp [readdirBlock, inBlock, inDir, zero, bind, Except.bind, pure, Except.pure]

theorem lookupBlock_of_zero (target : List UInt8) (running : 0 < fuel) (inBlock : blockOffset < blockSize)
    (inDir : offset < dirSize) (zero : DirEntry.recLen buffer blockSize blockOffset = .ok 0) :
    lookupBlock buffer blockSize dirSize target fuel offset blockOffset = .ok (.next offset) := by
  obtain ⟨fuel, rfl⟩ := Nat.exists_eq_add_of_lt running
  simp [lookupBlock, inBlock, inDir, zero, bind, Except.bind, pure, Except.pure]

variable {blockNum : ℕ}

theorem readdirLoop_stalls (inDir : offset < dirSize) (positive : 0 < s.1.blockSize)
    (mapped : (tryDataBlock (offset / s.1.blockSize)).run.run s = .ok (.ok (some blockNum), s))
    (read : s.1.readDataBlock blockNum = .ok buffer)
    (zero : DirEntry.recLen buffer s.1.blockSize (offset % s.1.blockSize) = .ok 0) :
    ∀ fuel entries, (readdirLoop dirSize fuel offset entries).run.run s = .ok (.ok none, s) := by
  intro fuel
  induction fuel with
  | zero => intro entries; rfl
  | succ fuel ih =>
    intro entries
    have walk := readdirBlock_of_zero entries positive (Nat.mod_lt _ positive) inDir zero
    simp only [readdirLoop, if_pos inDir]
    rw [run_getFs_bind, run_bind_of_ok mapped, run_tryReadBlock_bind, read]
    dsimp only [Except.toOption]
    rw [run_lift_bind walk]
    exact ih entries

theorem lookupLoop_stalls (target : List UInt8) (inDir : offset < dirSize) (positive : 0 < s.1.blockSize)
    (mapped : (tryDataBlock (offset / s.1.blockSize)).run.run s = .ok (.ok (some blockNum), s))
    (read : s.1.readDataBlock blockNum = .ok buffer)
    (zero : DirEntry.recLen buffer s.1.blockSize (offset % s.1.blockSize) = .ok 0) :
    ∀ fuel, (lookupLoop target dirSize fuel offset).run.run s = .ok (.ok none, s) := by
  intro fuel
  induction fuel with
  | zero => rfl
  | succ fuel ih =>
    have walk := lookupBlock_of_zero target positive (Nat.mod_lt _ positive) inDir zero
    simp only [lookupLoop, if_pos inDir]
    rw [run_getFs_bind, run_bind_of_ok mapped, run_tryReadBlock_bind, read]
    dsimp only [Except.toOption]
    rw [run_lift_bind walk]
    exact ih

end Stall

/-- A directory of `freshFs` one block long whose block, block 7, was never
written: all its bytes are 0. -/
def zeroedDir : Ext2Node := ⟨12, ⟨0x41ED, 1024, fun slot => if slot.val = 0 then 7 else 0⟩⟩

theorem zeroed_block_stalls_readdir_and_lookup (target : List UInt8) (fuel : ℕ) :
    (readdir fuel).run.run (freshFs, zeroedDir) = .ok (.ok none, (freshFs, zeroedDir)) ∧
      (lookup target fuel).run.run (freshFs, zeroedDir) = .ok (.ok none, (freshFs, zeroedDir)) := by
  have mapped : (tryDataBlock (0 / freshFs.blockSize)).run.run (freshFs, zeroedDir) =
      .ok (.ok (some 7), (freshFs, zeroedDir)) := rfl
  have zero : DirEntry.recLen (freshFs.blocks 7) freshFs.blockSize (0 % freshFs.blockSize) = .ok 0 := by decide
  have directory : isDirectory zeroedDir = true := by decide
  constructor
  · simp only [readdir]
    rw [run_getNode_bind]
    simp only [directory, Bool.not_true, Bool.false_eq_true, if_false]
    exact readdirLoop_stalls (s := (freshFs, zeroedDir)) (by decide) (by decide) mapped rfl zero fuel []
  · simp only [lookup]
    rw [run_getNode_bind]
    simp only [directory, Bool.not_true, Bool.false_eq_true, if_false]
    exact lookupLoop_stalls (s := (freshFs, zeroedDir)) target (by decide) (by decide) mapped rfl zero fuel

/-- `freshFs` with blocks of 64 KiB, the largest size `1024 << s_log_block_size`
takes on an ext2 volume. -/
def wideFs : Ext2Filesystem := { freshFs with blockSize := 65536 }

def emptyDir : Ext2Node := ⟨12, ⟨0x41ED, 0, fun _ => 0⟩⟩

/-- Adding `a` to the empty directory runs to its end, growing the directory
to one block, block 7, whose one record has `rec_len` 0; looking for `a` then
finds nothing. -/
theorem added_entry_lost_in_widest_block :
    ((do addDirectoryEntry [0x61] 13 1; findDirectoryEntry [0x61] : NodeM (ℕ × ℕ)).run.run (wideFs, emptyDir)).map
        (fun (found, fs, node) => (found, node.inode.iSize, node.inode.iBlock 0, fieldAt (fs.blocks 7) 4 2)) =
      .ok (.error (-eNoEnt), 65536, 7, 0) := by
  decide +kernel

end Ext2Node

end Xinim.Ext2
