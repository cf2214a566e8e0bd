import Xinim.Data.AList

/-! `xinim::vfs::BufferCache` (vfs/buffer_cache.cpp), the only write path of
`BlockFilesystem` (vfs/filesystem.cpp). The `CachedBlock` objects are named by
the node of `lru_list_` that holds them, and `cache_map_` maps a key to that
node; `lru_list_` is the list of nodes, most recently used first. The devices
behind `read_callback_` and `write_callback_` are one map from key to bytes,
and which of their calls fail during one method call is an argument of that
call. A block's bytes are copied whole: each device has one block size. The
mutex and `get_stats` are left out. -/

namespace Xinim.Vfs

def eIo : ℤ := 5

def eNoDev : ℤ := 19

def eRofs : ℤ := 30

structure BlockKey where
  deviceId : UInt64
  blockNumber : UInt64
  deriving DecidableEq, Repr

structure CachedBlock where
  deviceId : UInt64
  blockNumber : UInt64
  blockSize : UInt32
  data : List UInt8
  dirty : Bool
  refCount : UInt32
  deriving DecidableEq, Repr

instance : Inhabited CachedBlock := ⟨⟨0, 0, 0, [], false, 0⟩⟩

def CachedBlock.key (b : CachedBlock) : BlockKey := ⟨b.deviceId, b.blockNumber⟩

abbrev Disk := BlockKey → List UInt8

/-- Which device reads and writes fail during one method call. -/
structure Io where
  readFails : BlockKey → Bool
  writeFails : BlockKey → Bool

def Io.ok : Io := ⟨fun _ => false, fun _ => false⟩

def Io.writesFail : Io := ⟨fun _ => false, fun _ => true⟩

structure BufferCache where
  maxBlocks : ℕ
  cacheHits : ℕ
  cacheMisses : ℕ
  evictions : ℕ
  readCallback : Bool
  writeCallback : Bool
  blocks : ℕ → CachedBlock
  fresh : ℕ
  lruList : List ℕ
  cacheMap : AList (fun _ : BlockKey => ℕ)
  /-- The devices the callbacks reach. -/
  disk : Disk

namespace BufferCache

def init (maxBlocks : ℕ) (disk : Disk) : BufferCache :=
  ⟨maxBlocks, 0, 0, 0, false, false, fun _ => default, 0, [], ∅, disk⟩

def setReadCallback (c : BufferCache) : BufferCache := { c with readCallback := true }

def setWriteCallback (c : BufferCache) : BufferCache := { c with writeCallback := true }

def touchBlock (c : BufferCache) (id : ℕ) : BufferCache := { c with lruList := id :: c.lruList.erase id }

def pushFront (c : BufferCache) (key : BlockKey) (b : CachedBlock) : BufferCache :=
  { c with
    blocks := Function.update c.blocks c.fresh b
    fresh := c.fresh + 1
    lruList := c.fresh :: c.lruList
    cacheMap := c.cacheMap.insert key c.fresh }

def flushBlock (c : BufferCache) (io : Io) (id : ℕ) : BufferCache × ℤ :=
  if !c.writeCallback then (c, -eIo)
  else
    let b := c.blocks id
    if io.writeFails b.key then (c, -eIo)
    else ({ c with
      disk := Function.update c.disk b.key b.data
      blocks := Function.update c.blocks id { b with dirty := false } }, 0)

/-- The loop of `evict_lru` over the nodes `ids`, taken from the rear of the
list: the first unpinned block whose flush, if dirty, succeeds is dropped. -/
def evictFrom (io : Io) : BufferCache → List ℕ → BufferCache × Bool
  | c, [] => (c, false)
  | c, id :: rest =>
    let b := c.blocks id
    if b.refCount > 0 then evictFrom io c rest
    else
      let flushed := if b.dirty then c.flushBlock io id else (c, 0)
      if flushed.2 < 0 then evictFrom io flushed.1 rest
      else
        ({ flushed.1 with
          cacheMap := flushed.1.cacheMap.erase b.key
          lruList := flushed.1.lruList.erase id
          evictions := flushed.1.evictions + 1 }, true)

def evictLru (c : BufferCache) (io : Io) : BufferCache × Bool := evictFrom io c c.lruList.reverse

/-- The eviction both `get_block` and `put_block` make before adding a block;
when it fails the cache grows past `max_blocks_`. -/
def makeRoom (c : BufferCache) (io : Io) : BufferCache :=
  if c.cacheMap.keys.length ≥ c.maxBlocks then (c.evictLru io).1 else c

def getBlock (c : BufferCache) (io : Io) (deviceId blockNumber : UInt64) (blockSize : UInt32) :
    BufferCache × ℤ × Option (List UInt8) :=
  let key : BlockKey := ⟨deviceId, blockNumber⟩
  match c.cacheMap.lookup key with
  | some id => ({ c with cacheHits := c.cacheHits + 1 }.touchBlock id, 0, some (c.blocks id).data)
  | none =>
    let c := { c with cacheMisses := c.cacheMisses + 1 }
    if !c.readCallback then (c, -eIo, none)
    else
      let c := c.makeRoom io
      -- the new block is read before it is linked in; a failed read drops it
      if io.readFails key then (c, -eIo, none)
      else
        let data := c.disk key
        (c.pushFront key ⟨deviceId, blockNumber, blockSize, data, false, 0⟩, 0, some data)

def putBlock (c : BufferCache) (io : Io) (deviceId blockNumber : UInt64) (blockSize : UInt32)
    (data : List UInt8) (writeThrough : Bool) : BufferCache × ℤ :=
  let key : BlockKey := ⟨deviceId, blockNumber⟩
  let c := match c.cacheMap.lookup key with
    | some id =>
      ({ c with blocks := Function.update c.blocks id { c.blocks id with data := data, dirty := !writeThrough } }).touchBlock id
    | none => (c.makeRoom io).pushFront key ⟨deviceId, blockNumber, blockSize, data, !writeThrough, 0⟩
  -- the cached copy is already clean when the device write is tried
  if writeThrough then
    if !c.writeCallback then (c, -eIo)
    else if io.writeFails key then (c, -eIo)
    else ({ c with disk := Function.update c.disk key data }, 0)
  else (c, 0)

/-- The loop of `sync` and `sync_device` over `lru_list_` from its front:
each dirty block that `keep` selects is flushed; the failures are counted. -/
def syncFrom (io : Io) (keep : CachedBlock → Bool) : BufferCache → List ℕ → BufferCache × ℕ
  | c, [] => (c, 0)
  | c, id :: rest =>
    if keep (c.blocks id) && (c.blocks id).dirty then
      let flushed := c.flushBlock io id
      let synced := syncFrom io keep flushed.1 rest
      (synced.1, synced.2 + if flushed.2 < 0 then 1 else 0)
    else syncFrom io keep c rest

def syncWhere (c : BufferCache) (io : Io) (keep : CachedBlock → Bool) : BufferCache × ℤ :=
  let synced := syncFrom io keep c c.lruList
  (synced.1, if synced.2 > 0 then -eIo else 0)

def sync (c : BufferCache) (io : Io) : BufferCache × ℤ := c.syncWhere io fun _ => true

def syncDevice (c : BufferCache) (io : Io) (deviceId : UInt64) : BufferCache × ℤ :=
  c.syncWhere io fun b => b.deviceId = deviceId

/-- `invalidate_block`: the block is dropped whether or not its flush succeeds. -/
def invalidateBlock (c : BufferCache) (io : Io) (deviceId blockNumber : UInt64) : BufferCache :=
  let key : BlockKey := ⟨deviceId, blockNumber⟩
  match c.cacheMap.lookup key with
  | none => c
  | some id =>
    let c := if (c.blocks id).dirty then (c.flushBlock io id).1 else c
    { c with lruList := c.lruList.erase id, cacheMap := c.cacheMap.erase key }

def invalidateFrom (io : Io) (deviceId : UInt64) : BufferCache → List ℕ → BufferCache
  | c, [] => c
  | c, id :: rest =>
    let b := c.blocks id
    if b.deviceId = deviceId then
      let c := if b.dirty then (c.flushBlock io id).1 else c
      invalidateFrom io deviceId
        { c with cacheMap := c.cacheMap.erase ⟨deviceId, b.blockNumber⟩, lruList := c.lruList.erase id } rest
    else invalidateFrom io deviceId c rest

def invalidateDevice (c : BufferCache) (io : Io) (deviceId : UInt64) : BufferCache :=
  invalidateFrom io deviceId c c.lruList

end BufferCache

structure BlockFilesystem where
  hasDevice : Bool
  deviceId : UInt64
  blockSize : UInt32
  readOnly : Bool

namespace BlockFilesystem

def readBlock (fs : BlockFilesystem) (c : BufferCache) (io : Io) (blockNum : UInt64) :
    BufferCache × ℤ × Option (List UInt8) :=
  if !fs.hasDevice then (c, -eNoDev, none) else c.getBlock io fs.deviceId blockNum fs.blockSize

/-- `write_block` goes through `put_block` in write-back mode. -/
def writeBlock (fs : BlockFilesystem) (c : BufferCache) (io : Io) (blockNum : UInt64) (data : List UInt8) :
    BufferCache × ℤ :=
  if !fs.hasDevice then (c, -eNoDev)
  else if fs.readOnly then (c, -eRofs)
  else c.putBlock io fs.deviceId blockNum fs.blockSize data false

end BlockFilesystem

namespace BufferCache

section Fields

variable (c : BufferCache) (io : Io) (id : ℕ)

@[simp] theorem flushBlock_lruList : (c.flushBlock io id).1.lruList = c.lruList := by
  simp only [flushBlock]
  split_ifs <;> rfl

@[simp] theorem flushBlock_cacheMap : (c.flushBlock io id).1.cacheMap = c.cacheMap := by
  simp only [flushBlock]
  split_ifs <;> rfl

end Fields

/-- `cache_map_` and `lru_list_` agree: the map sends a key to a node exactly
when the node is on the list and holds the block of that key. -/
structure Coherent (c : BufferCache) : Prop where
  nodup : c.lruList.Nodup
  map_iff : ∀ key id, c.cacheMap.lookup key = some id ↔ id ∈ c.lruList ∧ (c.blocks id).key = key
  below : ∀ id ∈ c.lruList, id < c.fresh

namespace Coherent

variable {c c' : BufferCache}

theorem init (maxBlocks : ℕ) (disk : Disk) : (BufferCache.init maxBlocks disk).Coherent :=
  ⟨List.nodup_nil, by simp [BufferCache.init, AList.lookup_empty], by simp [BufferCache.init]⟩

theorem unique (h : c.Coherent) {i j : ℕ} (hi : i ∈ c.lruList) (hj : j ∈ c.lruList)
    (same : (c.blocks i).key = (c.blocks j).key) : i = j := by
  have li := (h.map_iff _ i).mpr ⟨hi, rfl⟩
  have lj := (h.map_iff _ j).mpr ⟨hj, same.symm⟩
  rw [li] at lj
  exact Option.some.inj lj

theorem congr (h : c.Coherent) (list : c'.lruList = c.lruList) (map : c'.cacheMap = c.cacheMap)
    (fresh : c'.fresh = c.fresh) (keys : ∀ id, (c'.blocks id).key = (c.blocks id).key) : c'.Coherent :=
  ⟨list ▸ h.nodup, fun key id => by rw [map, list, keys]; exact h.map_iff key id,
    fun id mem => fresh ▸ h.below id (list ▸ mem)⟩

theorem touchBlock (h : c.Coherent) {id : ℕ} (mem : id ∈ c.lruList) : (c.touchBlock id).Coherent := by
  have iff : ∀ i, i ∈ id :: c.lruList.erase id ↔ i ∈ c.lruList := fun i => by
    by_cases same : i = id
    · simp [same, mem]
    · simp [same, h.nodup.mem_erase_iff]
  refine ⟨List.nodup_cons.mpr ⟨h.nodup.not_mem_erase, h.nodup.erase id⟩, fun key i => ?_, fun i hi => ?_⟩
  · simp only [BufferCache.touchBlock, iff]
    exact h.map_iff key i
  · exact h.below i ((iff i).mp hi)

theorem flushBlock (h : c.Coherent) (io : Io) (id : ℕ) : (c.flushBlock io id).1.Coherent := by
  simp only [BufferCache.flushBlock]
  split_ifs
  · exact h
  · exact h
  · refine h.congr rfl rfl rfl fun i => ?_
    by_cases same : i = id
    · subst same
      simp [CachedBlock.key]
    · simp [same]

theorem pushFront (h : c.Coherent) {key : BlockKey} {b : CachedBlock} (absent : c.cacheMap.lookup key = none)
    (hkey : b.key = key) : (c.pushFront key b).Coherent := by
  have fresh : c.fresh ∉ c.lruList := fun mem => lt_irrefl _ (h.below _ mem)
  refine ⟨List.nodup_cons.mpr ⟨fresh, h.nodup⟩, fun k i => ?_, fun i hi => ?_⟩
  · simp only [BufferCache.pushFront, AList.lookup_insert_eq_ite, List.mem_cons]
    by_cases new : i = c.fresh
    · subst new
      by_cases hk : k = key
      · simp [hk, hkey]
      · simp [hk, hkey, Ne.symm hk, (h.map_iff k c.fresh).not.mpr (fun ⟨mem, _⟩ => fresh mem)]
    · rw [Function.update_of_ne new]
      by_cases hk : k = key
      · subst hk
        simp only [if_true, Option.some.injEq, new, false_or]
        exact ⟨fun same => absurd same.symm new, fun ⟨mem, key⟩ => absurd ((h.map_iff _ i).mpr ⟨mem, key⟩) (by simp [absent])⟩
      · simp [hk, new, h.map_iff k i]
  · rcases List.mem_cons.mp hi with rfl | old
    · exact Nat.lt_succ_self _
    · exact Nat.lt_succ_of_lt (h.below i old)

theorem drop (h : c.Coherent) {key : BlockKey} {id : ℕ} (found : c.cacheMap.lookup key = some id) :
    ({ c with lruList := c.lruList.erase id, cacheMap := c.cacheMap.erase key } : BufferCache).Coherent := by
  obtain ⟨mem, hkey⟩ := (h.map_iff key id).mp found
  refine ⟨h.nodup.erase id, fun k i => ?_, fun i hi => h.below i (List.mem_of_mem_erase hi)⟩
  simp only [AList.lookup_erase_eq_ite, h.nodup.mem_erase_iff]
  by_cases hk : k = key
  · subst hk
    simp only [if_true, reduceCtorEq, false_iff, not_and]
    rintro ⟨ne, old⟩ same
    exact ne (h.unique old mem (same.trans hkey.symm))
  · simp only [hk, if_false, h.map_iff k i]
    constructor
    · rintro ⟨old, same⟩
      exact ⟨⟨fun eq => hk (same.symm.trans (eq ▸ hkey)), old⟩, same⟩
    · rintro ⟨⟨-, old⟩, same⟩
      exact ⟨old, same⟩

theorem flushIfDirty_spec (h : c.Coherent) (io : Io) (id : ℕ) (dirty : Bool) :
    (if dirty then c.flushBlock io id else (c, 0)).1.Coherent ∧
      (if dirty then c.flushBlock io id else (c, 0)).1.lruList = c.lruList ∧
      (if dirty then c.flushBlock io id else (c, 0)).1.cacheMap = c.cacheMap := by
  split
  · exact ⟨h.flushBlock io id, by simp, by simp⟩
  · exact ⟨h, rfl, rfl⟩

theorem evictFrom (io : Io) : ∀ (ids : List ℕ) {c : BufferCache}, c.Coherent → (∀ id ∈ ids, id ∈ c.lruList) →
    (BufferCache.evictFrom io c ids).1.Coherent
  | [], _, h, _ => h
  | id :: rest, c, h, mem => by
    have onList : id ∈ c.lruList := mem id List.mem_cons_self
    have restOn : ∀ i ∈ rest, i ∈ c.lruList := fun i hi => mem i (List.mem_cons_of_mem _ hi)
    obtain ⟨flushedOk, sameList, sameMap⟩ := h.flushIfDirty_spec io id (c.blocks id).dirty
    simp only [BufferCache.evictFrom]
    generalize (if (c.blocks id).dirty then c.flushBlock io id else (c, 0)) = flushed at flushedOk sameList sameMap ⊢
    split_ifs
    · exact Coherent.evictFrom io rest h restOn
    · exact Coherent.evictFrom io rest flushedOk (sameList ▸ restOn)
    · have found : flushed.1.cacheMap.lookup (c.blocks id).key = some id := by
        rw [sameMap]
        exact (h.map_iff _ id).mpr ⟨onList, rfl⟩
      exact (flushedOk.drop found).congr rfl rfl rfl fun _ => rfl

theorem evictLru (h : c.Coherent) (io : Io) : (c.evictLru io).1.Coherent :=
  h.evictFrom io _ fun _ mem => List.mem_reverse.mp mem

theorem makeRoom (h : c.Coherent) (io : Io) : (c.makeRoom io).Coherent := by
  unfold BufferCache.makeRoom
  split
  · exact h.evictLru io
  · exact h

end Coherent

theorem lookup_evictFrom (io : Io) (key : BlockKey) :
    ∀ (ids : List ℕ) (c : BufferCache), c.cacheMap.lookup key = none →
      (c.evictFrom io ids).1.cacheMap.lookup key = none
  | [], _, absent => absent
  | id :: rest, c, absent => by
    have sameMap : (if (c.blocks id).dirty then c.flushBlock io id else (c, 0)).1.cacheMap = c.cacheMap := by
      split <;> simp
    simp only [evictFrom]
    generalize (if (c.blocks id).dirty then c.flushBlock io id else (c, 0)) = flushed at sameMap ⊢
    split_ifs
    · exact lookup_evictFrom io key rest c absent
    · exact lookup_evictFrom io key rest _ (sameMap ▸ absent)
    · simp only [AList.lookup_erase_eq_ite, sameMap, absent]
      split <;> rfl

theorem lookup_makeRoom {c : BufferCache} (io : Io) {key : BlockKey} (absent : c.cacheMap.lookup key = none) :
    (c.makeRoom io).cacheMap.lookup key = none := by
  unfold makeRoom
  split
  · exact lookup_evictFrom io key _ c absent
  · exact absent

namespace Coherent

variable {c : BufferCache}

theorem flushWhen_spec (h : c.Coherent) (io : Io) (id : ℕ) (dirty : Bool) :
    (if dirty then (c.flushBlock io id).1 else c).Coherent ∧
      (if dirty then (c.flushBlock io id).1 else c).lruList = c.lruList ∧
      (if dirty then (c.flushBlock io id).1 else c).cacheMap = c.cacheMap := by
  split
  · exact ⟨h.flushBlock io id, by simp, by simp⟩
  · exact ⟨h, rfl, rfl⟩

theorem withDisk (h : c.Coherent) (disk : Disk) : ({ c with disk := disk } : BufferCache).Coherent :=
  h.congr rfl rfl rfl fun _ => rfl

theorem getBlock (h : c.Coherent) (io : Io) (deviceId blockNumber : UInt64) (blockSize : UInt32) :
    (c.getBlock io deviceId blockNumber blockSize).1.Coherent := by
  unfold BufferCache.getBlock
  dsimp only
  cases found : c.cacheMap.lookup ⟨deviceId, blockNumber⟩ with
  | some id =>
    dsimp only
    have counted : ({ c with cacheHits := c.cacheHits + 1 } : BufferCache).Coherent := h.congr rfl rfl rfl fun _ => rfl
    exact counted.touchBlock ((h.map_iff _ id).mp found).1
  | none =>
    dsimp only
    have counted : ({ c with cacheMisses := c.cacheMisses + 1 } : BufferCache).Coherent := h.congr rfl rfl rfl fun _ => rfl
    split_ifs
    · exact counted
    · exact counted.makeRoom io
    · exact (counted.makeRoom io).pushFront (lookup_makeRoom io found) rfl

theorem writeThrough (h : c.Coherent) (io : Io) (key : BlockKey) (data : List UInt8) (writeThrough : Bool) :
    (if writeThrough then
      if !c.writeCallback then (c, -eIo)
      else if io.writeFails key then (c, -eIo)
      else ({ c with disk := Function.update c.disk key data }, 0)
    else (c, 0)).1.Coherent := by
  split_ifs
  all_goals first | exact h | exact h.withDisk _

theorem putBlock (h : c.Coherent) (io : Io) (deviceId blockNumber : UInt64) (blockSize : UInt32)
    (data : List UInt8) (writeThrough : Bool) :
    (c.putBlock io deviceId blockNumber blockSize data writeThrough).1.Coherent := by
  unfold BufferCache.putBlock
  dsimp only
  cases found : c.cacheMap.lookup ⟨deviceId, blockNumber⟩ with
  | some id =>
    dsimp only
    have stored : ({ c with
        blocks := Function.update c.blocks id ({ c.blocks id with data := data, dirty := !writeThrough }) } :
          BufferCache).Coherent := by
      refine h.congr rfl rfl rfl fun i => ?_
      by_cases same : i = id
      · subst same
        simp [CachedBlock.key]
      · simp [same]
    exact (stored.touchBlock ((h.map_iff _ id).mp found).1).writeThrough io _ data writeThrough
  | none =>
    dsimp only
    exact ((h.makeRoom io).pushFront (lookup_makeRoom io found) rfl).writeThrough io _ data writeThrough

theorem syncFrom (io : Io) (keep : CachedBlock → Bool) :
    ∀ (ids : List ℕ) {c : BufferCache}, c.Coherent → (BufferCache.syncFrom io keep c ids).1.Coherent
  | [], _, h => h
  | id :: rest, c, h => by
    simp only [BufferCache.syncFrom]
    split
    · exact Coherent.syncFrom io keep rest (h.flushBlock io id)
    · exact Coherent.syncFrom io keep rest h

theorem syncWhere (h : c.Coherent) (io : Io) (keep : CachedBlock → Bool) : (c.syncWhere io keep).1.Coherent :=
  h.syncFrom io keep _

theorem invalidateBlock (h : c.Coherent) (io : Io) (deviceId blockNumber : UInt64) :
    (c.invalidateBlock io deviceId blockNumber).Coherent := by
  unfold BufferCache.invalidateBlock
  dsimp only
  split
  · exact h
  · rename_i id found
    obtain ⟨flushedOk, sameList, sameMap⟩ := h.flushWhen_spec io id (c.blocks id).dirty
    generalize (if (c.blocks id).dirty then (c.flushBlock io id).1 else c) = flushed at flushedOk sameList sameMap ⊢
    exact flushedOk.drop (sameMap ▸ found)

theorem invalidateFrom (io : Io) (deviceId : UInt64) :
    ∀ (ids : List ℕ) {c : BufferCache}, c.Coherent → ids.Nodup → (∀ id ∈ ids, id ∈ c.lruList) →
      (BufferCache.invalidateFrom io deviceId c ids).Coherent
  | [], _, h, _, _ => h
  | id :: rest, c, h, nodup, mem => by
    have onList : id ∈ c.lruList := mem id List.mem_cons_self
    obtain ⟨notRest, restNodup⟩ := List.nodup_cons.mp nodup
    simp only [BufferCache.invalidateFrom]
    split
    · rename_i own
      obtain ⟨flushedOk, sameList, sameMap⟩ := h.flushWhen_spec io id (c.blocks id).dirty
      generalize (if (c.blocks id).dirty then (c.flushBlock io id).1 else c) = flushed at flushedOk sameList sameMap ⊢
      have found : flushed.cacheMap.lookup ⟨deviceId, (c.blocks id).blockNumber⟩ = some id := by
        rw [sameMap, ← own]
        exact (h.map_iff _ id).mpr ⟨onList, rfl⟩
      refine Coherent.invalidateFrom io deviceId rest (flushedOk.drop found) restNodup fun i hi => ?_
      rw [sameList]
      have ne : i ≠ id := fun same => notRest (by rwa [same] at hi)
      exact (List.mem_erase_of_ne ne).mpr (mem i (List.mem_cons_of_mem _ hi))
    · exact Coherent.invalidateFrom io deviceId rest h restNodup fun i hi => mem i (List.mem_cons_of_mem _ hi)

theorem invalidateDevice (h : c.Coherent) (io : Io) (deviceId : UInt64) :
    (c.invalidateDevice io deviceId).Coherent :=
  h.invalidateFrom io deviceId _ h.nodup fun _ mem => mem

end Coherent

end BufferCache

inductive Op where
  | getBlock (io : Io) (deviceId blockNumber : UInt64) (blockSize : UInt32)
  | putBlock (io : Io) (deviceId blockNumber : UInt64) (blockSize : UInt32) (data : List UInt8) (writeThrough : Bool)
  | sync (io : Io)
  | syncDevice (io : Io) (deviceId : UInt64)
  | invalidateBlock (io : Io) (deviceId blockNumber : UInt64)
  | invalidateDevice (io : Io) (deviceId : UInt64)
  | setReadCallback
  | setWriteCallback

namespace BufferCache

def step (c : BufferCache) : Op → BufferCache
  | .getBlock io deviceId blockNumber blockSize => (c.getBlock io deviceId blockNumber blockSize).1
  | .putBlock io deviceId blockNumber blockSize data writeThrough =>
    (c.putBlock io deviceId blockNumber blockSize data writeThrough).1
  | .sync io => (c.sync io).1
  | .syncDevice io deviceId => (c.syncDevice io deviceId).1
  | .invalidateBlock io deviceId blockNumber => c.invalidateBlock io deviceId blockNumber
  | .invalidateDevice io deviceId => c.invalidateDevice io deviceId
  | .setReadCallback => c.setReadCallback
  | .setWriteCallback => c.setWriteCallback

def run (c : BufferCache) (ops : List Op) : BufferCache := ops.foldl step c

theorem Coherent.step {c : BufferCache} (h : c.Coherent) : ∀ op : Op, (c.step op).Coherent
  | .getBlock io deviceId blockNumber blockSize => h.getBlock io deviceId blockNumber blockSize
  | .putBlock io deviceId blockNumber blockSize data writeThrough =>
    h.putBlock io deviceId blockNumber blockSize data writeThrough
  | .sync io => h.syncWhere io _
  | .syncDevice io _ => h.syncWhere io _
  | .invalidateBlock io deviceId blockNumber => h.invalidateBlock io deviceId blockNumber
  | .invalidateDevice io deviceId => h.invalidateDevice io deviceId
  | .setReadCallback => h.congr rfl rfl rfl fun _ => rfl
  | .setWriteCallback => h.congr rfl rfl rfl fun _ => rfl

theorem Coherent.run {c : BufferCache} (h : c.Coherent) (ops : List Op) : (c.run ops).Coherent := by
  induction ops generalizing c with
  | nil => exact h
  | cons op rest ih => exact ih (h.step op)

end BufferCache

/-- From construction, every sequence of calls, with any device failures and
past capacity, keeps `cache_map_` and `lru_list_` in bijection: the map sends a
key to a node exactly when the node is on the list with a block of that key,
and no two nodes on the list hold blocks of one key. -/
theorem cache_map_matches_lru_list (maxBlocks : ℕ) (disk : Disk) (ops : List Op) :
    ((BufferCache.init maxBlocks disk).run ops).lruList.Nodup ∧
      (∀ key id, ((BufferCache.init maxBlocks disk).run ops).cacheMap.lookup key = some id ↔
        id ∈ ((BufferCache.init maxBlocks disk).run ops).lruList ∧
          (((BufferCache.init maxBlocks disk).run ops).blocks id).key = key) ∧
      ∀ i ∈ ((BufferCache.init maxBlocks disk).run ops).lruList, ∀ j ∈ ((BufferCache.init maxBlocks disk).run ops).lruList,
        (((BufferCache.init maxBlocks disk).run ops).blocks i).key =
          (((BufferCache.init maxBlocks disk).run ops).blocks j).key → i = j := by
  have h := (BufferCache.Coherent.init maxBlocks disk).run ops
  exact ⟨h.nodup, h.map_iff, fun _ hi _ hj same => h.unique hi hj same⟩

def zeroCache : BufferCache := ((BufferCache.init 16 fun _ => [0]).setReadCallback).setWriteCallback

def failedWriteThrough : BufferCache × ℤ := zeroCache.putBlock Io.writesFail 1 7 1 [1] true

def droppedDirty : BufferCache × ℤ :=
  let put := zeroCache.putBlock Io.ok 1 7 1 [2] false
  (put.1.invalidateBlock Io.writesFail 1 7, put.2)

/-- After the failed write-through, `sync` finds no dirty block and returns 0,
yet the device still holds 0 where `get_block` returns 1; and a block dropped
by `invalidate_block` after a successful `put_block` of 2 is read back from the
device as the stale 0. -/
theorem cache_loses_acknowledged_writes :
    failedWriteThrough.2 = -eIo ∧ (failedWriteThrough.1.sync Io.ok).2 = 0 ∧
      ((failedWriteThrough.1.sync Io.ok).1.getBlock Io.ok 1 7 1).2 = (0, some [1]) ∧
      (failedWriteThrough.1.sync Io.ok).1.disk ⟨1, 7⟩ = [0] ∧
      droppedDirty.2 = 0 ∧ (droppedDirty.1.getBlock Io.ok 1 7 1).2 = (0, some [0]) := by
  decide

end Xinim.Vfs
