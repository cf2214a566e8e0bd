import Xinim.Data.Bytes
import Xinim.Ext2.Alloc

/-! `Ext2Node`'s block map and file contents (vfs/ext2.cpp): `get_data_block`
and `allocate_data_block` over the twelve direct pointers and the single,
double and triple indirect blocks, `free_data_blocks`, and `read`, `write`
and `truncate` of a regular file.

A call runs in `NodeM`: it can return a negative errno (`throw`), which keeps
what it changed before, and it can index a `std::vector<uint32_t>` past its
end, a `Fault` that ends the run. An indirect block is read into a vector of
`block_size / 4` entries, each four bytes low byte first. -/

namespace Xinim.Ext2

def eIsDir : ℤ := 21

def sIfreg : ℕ := 0x8000

def ndirBlocks : ℕ := 12

def indBlock : Fin 15 := 12

def dindBlock : Fin 15 := 13

def tindBlock : Fin 15 := 14

structure Inode where
  iMode : ℕ
  iSize : ℕ
  iBlock : Fin 15 → ℕ

structure Ext2Node where
  inodeNum : ℕ
  inode : Inode

def wordAt (table : ℕ → UInt8) (k : ℕ) : ℕ :=
  (table (4 * k)).toNat + 2 ^ 8 * (table (4 * k + 1)).toNat +
    2 ^ 16 * (table (4 * k + 2)).toNat + 2 ^ 24 * (table (4 * k + 3)).toNat

def setWord (table : ℕ → UInt8) (k v : ℕ) : ℕ → UInt8 := fun j =>
  if j / 4 = k then UInt8.ofNat (v / 2 ^ (8 * (j % 4))) else table j

/-- `table[k]` of a vector of `bpi` entries; past its end the access faults. -/
def entry (table : ℕ → UInt8) (bpi k : ℕ) : Except Fault ℕ :=
  if k < bpi then .ok (wordAt table k) else .error .outOfBounds

def setEntry (table : ℕ → UInt8) (bpi k v : ℕ) : Except Fault (ℕ → UInt8) :=
  if k < bpi then .ok (setWord table k v) else .error .outOfBounds

/-- A call on a node: an errno thrown keeps the state it reached, a fault
ends the run. -/
abbrev NodeM := ExceptT ℤ (StateT (Ext2Filesystem × Ext2Node) (Except Fault))

namespace NodeM

def getFs : NodeM Ext2Filesystem := return (← get).1

def getNode : NodeM Ext2Node := return (← get).2

def setFs (fs : Ext2Filesystem) : NodeM Unit := modify fun s => (fs, s.2)

def setIBlock (slot : Fin 15) (b : ℕ) : NodeM Unit :=
  modify fun s => (s.1, { s.2 with inode.iBlock := Function.update s.2.inode.iBlock slot b })

def setISize (size : ℕ) : NodeM Unit :=
  modify fun s => (s.1, { s.2 with inode.iSize := size })

def readBlock (blockNum : ℕ) : NodeM (ℕ → UInt8) := do
  match (← getFs).readDataBlock blockNum with
  | .ok buffer => return buffer
  | .error ret => throw ret

/-- `read_data_block` whose caller goes on without the block on an error. -/
def tryReadBlock (blockNum : ℕ) : NodeM (Option (ℕ → UInt8)) := do
  return ((← getFs).readDataBlock blockNum).toOption

def writeBlock (blockNum : ℕ) (buffer : ℕ → UInt8) : NodeM Unit := do
  match (← getFs).writeDataBlock blockNum buffer with
  | .ok fs => setFs fs
  | .error ret => throw ret

/-- `write_data_block` whose result the caller drops. -/
def writeBlockUnchecked (blockNum : ℕ) (buffer : ℕ → UInt8) : NodeM Unit := do
  match (← getFs).writeDataBlock blockNum buffer with
  | .ok fs => setFs fs
  | .error _ => pure ()

def allocateBlock (group : ℕ) : NodeM ℕ := do
  match (← getFs).allocateBlock group with
  | .ok (fs, blockNum) =>
    setFs fs
    return blockNum
  | .error ret => throw ret

/-- `free_block` whose result the caller drops. -/
def freeBlockUnchecked (blockNum : ℕ) : NodeM Unit := do
  match (← getFs).freeBlock blockNum with
  | .ok fs => setFs fs
  | .error _ => pure ()

def readEntry (tableBlock bpi idx : ℕ) : NodeM ℕ := do
  let table ← readBlock tableBlock
  entry table bpi idx

section Run

variable {α β : Type} {s : Ext2Filesystem × Ext2Node} {f : α → NodeM β}

/-! How a call that starts with a known step runs: the rules that symbolic
runs of the node's operations rewrite with. -/

theorem run_bind_of_ok {x : NodeM α} {a : α} {s' : Ext2Filesystem × Ext2Node}
    (ran : x.run.run s = .ok (.ok a, s')) : (x >>= f).run.run s = (f a).run.run s' := by
  rw [ExceptT.run_bind, StateT.run_bind, ran]
  rfl

theorem run_getFs_bind {f : Ext2Filesystem → NodeM β} : (getFs >>= f).run.run s = (f s.1).run.run s := rfl

theorem run_getNode_bind {f : Ext2Node → NodeM β} : (getNode >>= f).run.run s = (f s.2).run.run s := rfl

theorem run_tryReadBlock_bind {blockNum : ℕ} {f : Option (ℕ → UInt8) → NodeM β} :
    (tryReadBlock blockNum >>= f).run.run s = (f (s.1.readDataBlock blockNum).toOption).run.run s := rfl

theorem run_lift_bind {e : Except Fault α} {a : α} (ok : e = .ok a) :
    ((liftM e : NodeM α) >>= f).run.run s = (f a).run.run s := by
  subst ok
  rfl

end Run

end NodeM

namespace Ext2Node

open NodeM

def getDataBlock (blockIdx : ℕ) : NodeM ℕ := do
  let fs ← getFs
  let node ← getNode
  let bpi := fs.blockSize / 4
  if h : blockIdx < ndirBlocks then return node.inode.iBlock ⟨blockIdx, by unfold ndirBlocks at h; omega⟩
  let blockIdx := blockIdx - ndirBlocks
  if blockIdx < bpi then
    let ind := node.inode.iBlock indBlock
    if ind = 0 then return 0
    return ← readEntry ind bpi blockIdx
  let blockIdx := blockIdx - bpi
  -- `blocks_per_indirect * blocks_per_indirect` is a `uint32_t` product
  let bpi2 := bpi * bpi % 2 ^ 32
  if blockIdx < bpi2 then
    let dind := node.inode.iBlock dindBlock
    if dind = 0 then return 0
    let ind ← readEntry dind bpi (blockIdx / bpi)
    if ind = 0 then return 0
    return ← readEntry ind bpi (blockIdx % bpi)
  -- the triple indirect branch takes every index left, with no upper bound
  let blockIdx := blockIdx - bpi2
  let tind := node.inode.iBlock tindBlock
  if tind = 0 then return 0
  let dind ← readEntry tind bpi (blockIdx / bpi2)
  if dind = 0 then return 0
  let remaining := blockIdx % bpi2
  let ind ← readEntry dind bpi (remaining / bpi)
  if ind = 0 then return 0
  readEntry ind bpi (remaining % bpi)

/-- `i_block[slot]`, allocated and zeroed if it is 0 (the zeroing write is
unchecked). -/
def ensureTop (group : ℕ) (slot : Fin 15) : NodeM ℕ := do
  let current := (← getNode).inode.iBlock slot
  if current ≠ 0 then return current
  let b ← allocateBlock group
  setIBlock slot b
  writeBlockUnchecked b fun _ => 0
  return b

/-- `table[idx]` of the table in block `tableBlock`, allocated if it is 0: the
new block goes into the table, which is written back, and is freed again if
that write fails. An intermediate block is zeroed before the table is
written; a data block is not. -/
def allocateEntry (zeroFirst : Bool) (group tableBlock : ℕ) (table : ℕ → UInt8) (bpi idx : ℕ) :
    NodeM ℕ := do
  let current ← entry table bpi idx
  if current ≠ 0 then return current
  let b ← allocateBlock group
  let table ← setEntry table bpi idx b
  if zeroFirst then writeBlockUnchecked b fun _ => 0
  tryCatch (writeBlock tableBlock table) fun ret => do
    freeBlockUnchecked b
    throw ret
  return b

def allocateDataBlock (blockIdx : ℕ) : NodeM ℕ := do
  let fs ← getFs
  let node ← getNode
  let bpi := fs.blockSize / 4
  let group := fs.getBlockGroup node.inodeNum
  if h : blockIdx < ndirBlocks then
    let slot : Fin 15 := ⟨blockIdx, by unfold ndirBlocks at h; omega⟩
    if node.inode.iBlock slot ≠ 0 then return node.inode.iBlock slot
    let blockNum ← allocateBlock group
    setIBlock slot blockNum
    return blockNum
  let blockIdx := blockIdx - ndirBlocks
  if blockIdx < bpi then
    let ind ← ensureTop group indBlock
    let indirect ← readBlock ind
    return ← allocateEntry false group ind indirect bpi blockIdx
  let blockIdx := blockIdx - bpi
  let bpi2 := bpi * bpi % 2 ^ 32
  if blockIdx < bpi2 then
    let dind ← ensureTop group dindBlock
    let dindirect ← readBlock dind
    let ind ← allocateEntry true group dind dindirect bpi (blockIdx / bpi)
    let indirect ← readBlock ind
    return ← allocateEntry false group ind indirect bpi (blockIdx % bpi)
  let blockIdx := blockIdx - bpi2
  let tind ← ensureTop group tindBlock
  let tindirect ← readBlock tind
  let dind ← allocateEntry true group tind tindirect bpi (blockIdx / bpi2)
  let dindirect ← readBlock dind
  let remaining := blockIdx % bpi2
  let ind ← allocateEntry true group dind dindirect bpi (remaining / bpi)
  let indirect ← readBlock ind
  allocateEntry false group ind indirect bpi (remaining % bpi)

def tripleMapped : Ext2Node := ⟨11, ⟨0x81A4, 0, fun slot => if slot = tindBlock then 7 else 0⟩⟩

/-- `12 + B/4 + (B/4)^2 + (B/4)^3` for blocks of 1 KiB: the first index past
what the triple indirect block maps. -/
def tripleCapacity : ℕ := 12 + 256 + 256 ^ 2 + 256 ^ 3

theorem index_past_triple_capacity_faults :
    ((getDataBlock tripleCapacity).run.run (freshFs, tripleMapped)).map (fun _ => ()) =
      .error .outOfBounds ∧
    ((allocateDataBlock tripleCapacity).run.run (freshFs, tripleMapped)).map (fun _ => ()) =
      .error .outOfBounds := by
  decide +kernel

/-- Set entry `idx` of the table in block `tableBlock` to 0 and write the
table back, unless the table cannot be read; the write is unchecked. -/
def clearEntry (tableBlock bpi idx : ℕ) : NodeM Unit := do
  match ← tryReadBlock tableBlock with
  | none => pure ()
  | some table => writeBlockUnchecked tableBlock (← setEntry table bpi idx 0)

def clearPointer (blockIdx : ℕ) : NodeM Unit := do
  let fs ← getFs
  let node ← getNode
  let bpi := fs.blockSize / 4
  let bpi2 := bpi * bpi % 2 ^ 32
  if h : blockIdx < ndirBlocks then
    setIBlock ⟨blockIdx, by unfold ndirBlocks at h; omega⟩ 0
  else if blockIdx < (ndirBlocks + bpi) % 2 ^ 32 then
    let ind := node.inode.iBlock indBlock
    if ind ≠ 0 then clearEntry ind bpi (blockIdx - ndirBlocks)
  else if blockIdx < (ndirBlocks + bpi + bpi2) % 2 ^ 32 then
    let dindIdx := (blockIdx + 2 ^ 32 - (ndirBlocks + bpi)) % 2 ^ 32
    let dind := node.inode.iBlock dindBlock
    if dind ≠ 0 then
      match ← tryReadBlock dind with
      | none => pure ()
      | some dindirect =>
        let ind ← entry dindirect bpi (dindIdx / bpi)
        if ind ≠ 0 then clearEntry ind bpi (dindIdx % bpi)
  else
    let tindIdx := (blockIdx + 2 ^ 32 - (ndirBlocks + bpi + bpi2)) % 2 ^ 32
    let remaining := tindIdx % bpi2
    let tind := node.inode.iBlock tindBlock
    if tind ≠ 0 then
      match ← tryReadBlock tind with
      | none => pure ()
      | some tindirect =>
        let dind ← entry tindirect bpi (tindIdx / bpi2)
        if dind ≠ 0 then
          match ← tryReadBlock dind with
          | none => pure ()
          | some dindirect =>
            let ind ← entry dindirect bpi (remaining / bpi)
            if ind ≠ 0 then clearEntry ind bpi (remaining % bpi)

/-- The loop of `free_data_blocks` from `blockIdx`, with `blocksFreed` freed so
far; it stops at `start_block + count` (a `uint32_t` sum) or once `count`
blocks are freed, so `count` turns are enough. -/
def freeLoop (startBlock count : ℕ) : ℕ → ℕ → ℕ → NodeM ℕ
  | 0, _, blocksFreed => return blocksFreed
  | fuel + 1, blockIdx, blocksFreed => do
    if blockIdx < (startBlock + count) % 2 ^ 32 ∧ blocksFreed < count then
      -- a hole, or an error of `get_data_block`, is skipped
      match ← tryCatch (some <$> getDataBlock blockIdx) fun _ => pure none with
      | none | some 0 => freeLoop startBlock count fuel ((blockIdx + 1) % 2 ^ 32) blocksFreed
      | some blockNum =>
        let freed ← match (← getFs).freeBlock blockNum with
          | .ok fs => do
            setFs fs
            pure (blocksFreed + 1)
          | .error _ => pure blocksFreed
        clearPointer blockIdx
        freeLoop startBlock count fuel ((blockIdx + 1) % 2 ^ 32) freed
    else return blocksFreed

def allZero (table : ℕ → UInt8) (bpi : ℕ) : Bool := (List.range bpi).all fun k => wordAt table k = 0

/-- The entries `i < bpi` of a table of indirect blocks, each freed and set to
0 if its block reads as all zeros. -/
def freeEmptyIndirects (table : ℕ → UInt8) (bpi : ℕ) : NodeM (ℕ → UInt8) :=
  List.foldlM (fun table i => do
    let ind := wordAt table i
    if ind = 0 then return table
    match ← tryReadBlock ind with
    | some indirect =>
      if allZero indirect bpi then
        freeBlockUnchecked ind
        return setWord table i 0
      else return table
    | none => return table) table (List.range bpi)

/-- The entries of a triple indirect table, each double indirect block
cleaned of its empty indirect blocks, written back, and freed and set to 0 if
it is then empty. -/
def freeEmptyDoubles (table : ℕ → UInt8) (bpi : ℕ) : NodeM (ℕ → UInt8) :=
  List.foldlM (fun table i => do
    let dind := wordAt table i
    if dind = 0 then return table
    match ← tryReadBlock dind with
    | some dindirect =>
      let dindirect ← freeEmptyIndirects dindirect bpi
      writeBlockUnchecked dind dindirect
      if allZero dindirect bpi then
        freeBlockUnchecked dind
        return setWord table i 0
      else return table
    | none => return table) table (List.range bpi)

/-- The clean-up at the end of `free_data_blocks`: indirect blocks left with
no entries are freed, bottom-up. -/
def freeEmptyTables : NodeM Unit := do
  let bpi := (← getFs).blockSize / 4
  let ind := (← getNode).inode.iBlock indBlock
  if ind ≠ 0 then
    if let some indirect ← tryReadBlock ind then
      if allZero indirect bpi then
        freeBlockUnchecked ind
        setIBlock indBlock 0
  let dind := (← getNode).inode.iBlock dindBlock
  if dind ≠ 0 then
    if let some dindirect ← tryReadBlock dind then
      let dindirect ← freeEmptyIndirects dindirect bpi
      writeBlockUnchecked dind dindirect
      if allZero dindirect bpi then
        freeBlockUnchecked dind
        setIBlock dindBlock 0
  let tind := (← getNode).inode.iBlock tindBlock
  if tind ≠ 0 then
    if let some tindirect ← tryReadBlock tind then
      let tindirect ← freeEmptyDoubles tindirect bpi
      writeBlockUnchecked tind tindirect
      if allZero tindirect bpi then
        freeBlockUnchecked tind
        setIBlock tindBlock 0

def freeDataBlocks (startBlock count : ℕ) : NodeM ℕ := do
  if count = 0 then return 0
  let blocksFreed ← freeLoop startBlock count count startBlock 0
  freeEmptyTables
  return blocksFreed

def isRegular (node : Ext2Node) : Bool := node.inode.iMode &&& 0xF000 == sIfreg

/-- The loop of `read` from byte `offset + bytesRead`: each turn copies at
least one byte, so `size` turns are enough. -/
def readLoop (size offset : ℕ) : ℕ → ℕ → NodeM (List UInt8)
  | 0, _ => return []
  | fuel + 1, bytesRead => do
    if bytesRead < size then
      let blockSize := (← getFs).blockSize
      let blockIdx := (offset + bytesRead) / blockSize % 2 ^ 32
      let blockOffset := (offset + bytesRead) % blockSize
      let bytesToRead := min (size - bytesRead) (blockSize - blockOffset)
      let blockNum ← getDataBlock blockIdx
      let blockBuffer ← readBlock blockNum
      let rest ← readLoop size offset fuel (bytesRead + bytesToRead)
      return (List.range bytesToRead).map (fun k => blockBuffer (blockOffset + k)) ++ rest
    else return []

def read (size offset : ℕ) : NodeM (List UInt8) := do
  let node ← getNode
  if !isRegular node then throw (-eIsDir)
  if node.inode.iSize ≤ offset then return []
  -- `offset + size` is a `uint64_t` sum
  let size := if node.inode.iSize < (offset + size) % 2 ^ 64 then node.inode.iSize - offset else size
  readLoop size offset size 0

def writeLoop (buffer : List UInt8) (offset : ℕ) : ℕ → ℕ → NodeM Unit
  | 0, _ => return ()
  | fuel + 1, bytesWritten => do
    if bytesWritten < buffer.length then
      let blockSize := (← getFs).blockSize
      let blockIdx := (offset + bytesWritten) / blockSize % 2 ^ 32
      let blockOffset := (offset + bytesWritten) % blockSize
      let bytesToWrite := min (buffer.length - bytesWritten) (blockSize - blockOffset)
      let blockNum ← allocateDataBlock blockIdx
      -- a partial block is read, modified and written back
      let old ← if blockOffset ≠ 0 ∨ bytesToWrite ≠ blockSize then readBlock blockNum
        else pure fun _ => 0
      let blockBuffer := fun j =>
        if blockOffset ≤ j ∧ j < blockOffset + bytesToWrite then
          buffer.getD (bytesWritten + (j - blockOffset)) 0
        else old j
      writeBlock blockNum blockBuffer
      writeLoop buffer offset fuel (bytesWritten + bytesToWrite)
    else return ()

def write (buffer : List UInt8) (offset : ℕ) : NodeM ℕ := do
  if !isRegular (← getNode) then throw (-eIsDir)
  if buffer.length = 0 then return 0
  writeLoop buffer offset buffer.length 0
  let iSize := (← getNode).inode.iSize
  -- `i_size` is a `uint32_t`
  if iSize < offset + buffer.length then setISize ((offset + buffer.length) % 2 ^ 32)
  return buffer.length

def truncate (newSize : ℕ) : NodeM Unit := do
  let node ← getNode
  if !isRegular node then throw (-eIsDir)
  let iSize := node.inode.iSize
  if newSize = iSize then return
  let blockSize := (← getFs).blockSize
  if newSize < iSize then
    -- blocks past the new size are freed; the tail of the last one kept is not cleared
    let oldBlocks := (iSize + blockSize - 1) % 2 ^ 32 / blockSize
    let newBlocks := (newSize + blockSize - 1) / blockSize % 2 ^ 32
    if newBlocks < oldBlocks then
      let _ ← freeDataBlocks newBlocks (oldBlocks - newBlocks)
  setISize (newSize % 2 ^ 32)

def emptyFile : Ext2Node := ⟨11, ⟨0x81A4, 0, fun _ => 0⟩⟩

def shrinkAndRegrow : NodeM (List UInt8) := do
  let _ ← write [0xAA, 0xBB] 0
  truncate 1
  truncate 2
  read 2 0

theorem regrown_file_reads_stale_byte :
    (shrinkAndRegrow.run.run (freshFs, emptyFile)).map Prod.fst = .ok (.ok [0xAA, 0xBB]) := by
  decide +kernel

end Ext2Node

end Xinim.Ext2
