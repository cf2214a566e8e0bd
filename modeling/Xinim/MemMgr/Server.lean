import Mathlib.Data.List.Sort
import Mathlib.Logic.Function.Iterate
import Xinim.Data.AList

/-! The memory-manager server (servers/memory_manager/main.cpp): per-process
heap break and mapped regions, System V shared-memory segments, and one
handler per request. Addresses and lengths are the source's uint64_t, so
every sum wraps modulo 2^64 as it does there.

The two address searches are loops without a bound in the source; here they
take `searchLimit` steps, the number of distinct page steps from a start
address, and `none` stands for a loop that has not ended. On every reachable
state that never happens (`Wf.dispatchMessage_isSome`). The region list stays
sorted, but `is_free` is the only guard a mapping gets: MAP_FIXED and an
explicit shmat address are never checked against user space, a length rounds
to zero, and brk never looks at the regions. -/

namespace Xinim.MemMgr

def pageSize : UInt64 := 4096
def heapBase : UInt64 := 0x10000000
def heapMax : UInt64 := 0x40000000
def mmapBase : UInt64 := 0x700000000000
def userTop : UInt64 := 0x800000000000

def ipcSuccess : ℤ := 0
def ipcEnoent : ℤ := 2
def ipcEnomem : ℤ := 12
def ipcEexist : ℤ := 17
def ipcEinval : ℤ := 22
def ipcEnosys : ℤ := 38

def mapFixed : UInt32 := 0x10
def ipcCreat : UInt32 := 0x0200
def ipcExcl : UInt32 := 0x0400
def shmRdonly : UInt32 := 0x1000
def shmRnd : UInt32 := 0x2000

/-- The rounding of a requested length up to whole pages, as handle_mmap and
handle_shmget write it; a length within a page of 2^64 rounds to 0. -/
def pageRoundUp (length : UInt64) : UInt64 := (length + pageSize - 1) &&& ~~~(pageSize - 1)

structure MemoryRegion where
  start : UInt64
  length : UInt64
  prot : UInt32
  flags : UInt32
  fd : ℤ
  offset : UInt64
  deriving DecidableEq, Repr

namespace MemoryRegion

def «end» (r : MemoryRegion) : UInt64 := r.start + r.length

def overlaps (r : MemoryRegion) (addr len : UInt64) : Bool := addr < r.end && addr + len > r.start

def contains (r : MemoryRegion) (addr : UInt64) : Bool := addr ≥ r.start && addr < r.end

/-- The order add_region sorts by (the source compares with `<`; the order of
equal starts is left open by std::sort and fixed here by the insertion). -/
def startLe (a b : MemoryRegion) : Prop := a.start ≤ b.start

instance : DecidableRel startLe := fun a b => inferInstanceAs (Decidable (a.start ≤ b.start))

instance : Std.Total startLe := ⟨fun a b => UInt64.le_total a.start b.start⟩

instance : IsTrans MemoryRegion startLe := ⟨fun _ _ _ => UInt64.le_trans⟩

end MemoryRegion

structure ProcessMemory where
  heapStart : UInt64
  heapBrk : UInt64
  heapMax : UInt64
  mmapHint : UInt64
  regions : List MemoryRegion

def ProcessMemory.init : ProcessMemory :=
  { heapStart := heapBase, heapBrk := heapBase, heapMax := MemMgr.heapMax, mmapHint := mmapBase, regions := [] }

namespace ProcessMemory

variable (pm : ProcessMemory)

def findRegion (addr : UInt64) : Option MemoryRegion := pm.regions.find? (·.contains addr)

def isFree (addr length : UInt64) : Bool := pm.regions.all fun r => !r.overlaps addr length

def addRegion (region : MemoryRegion) : ProcessMemory :=
  { pm with regions := (pm.regions ++ [region]).insertionSort MemoryRegion.startLe }

def removeRegion (addr : UInt64) : ProcessMemory :=
  { pm with regions := pm.regions.eraseP (·.start == addr) }

/-- handle_mprotect's write through the pointer find_region returns: the first
region containing addr gets the new protection. -/
def setProt (addr : UInt64) (prot : UInt32) : ProcessMemory :=
  { pm with regions := pm.regions.modify (pm.regions.findIdx (·.contains addr)) fun r => { r with prot } }

end ProcessMemory

structure ShmSegment where
  shmid : ℤ
  key : ℤ
  size : UInt64
  flags : UInt32
  uid : UInt32
  gid : UInt32
  mode : UInt32
  attachCount : ℤ
  physicalAddr : UInt64

/-- The server's state. A process the server has not seen reads as
`ProcessMemory.init`, which is what get_process_mem inserts for it. -/
structure MemMgrState where
  processMem : ℤ → ProcessMemory
  shmSegments : AList (fun _ : ℤ => ShmSegment)
  nextShmid : ℤ

structure MmBrkRequest where
  callerPid : ℤ
  newBrk : UInt64

structure MmBrkResponse where
  currentBrk : UInt64
  result : ℤ
  error : ℤ
  deriving DecidableEq

structure MmMmapRequest where
  callerPid : ℤ
  addr : UInt64
  length : UInt64
  prot : UInt32
  flags : UInt32
  fd : ℤ
  offset : UInt64

structure MmMmapResponse where
  mappedAddr : UInt64
  result : ℤ
  error : ℤ
  deriving DecidableEq

structure MmMunmapRequest where
  callerPid : ℤ
  addr : UInt64
  length : UInt64

structure MmMprotectRequest where
  callerPid : ℤ
  addr : UInt64
  length : UInt64
  prot : UInt32

/-- The result and error that handle_munmap, handle_mprotect and handle_shmdt
write (MmMunmapResponse, MmMprotectResponse and MmGenericResponse begin with
these two fields). -/
structure MmGenericResponse where
  result : ℤ
  error : ℤ
  deriving DecidableEq

structure MmShmgetRequest where
  callerPid : ℤ
  key : ℤ
  size : UInt64
  flags : UInt32

structure MmShmgetResponse where
  shmid : ℤ
  error : ℤ
  deriving DecidableEq

structure MmShmatRequest where
  callerPid : ℤ
  shmid : ℤ
  shmaddr : UInt64
  flags : UInt32

structure MmShmatResponse where
  attachedAddr : UInt64
  result : ℤ
  error : ℤ
  deriving DecidableEq

structure MmShmdtRequest where
  callerPid : ℤ
  shmaddr : UInt64

structure MmGetpagesizeResponse where
  pageSize : UInt64
  result : ℤ
  error : ℤ
  deriving DecidableEq

/-- The address search loops of handle_mmap and handle_shmat: from addr, step
a page at a time while the range there is not free. handle_mmap gives up
(`some none`) once `stop` holds of the next address. After `fuel` steps
without an answer the result is `none`. -/
def searchFree (free stop : UInt64 → Bool) : ℕ → UInt64 → Option (Option UInt64)
  | 0, _ => none
  | fuel + 1, addr =>
    if free addr then some (some addr)
    else if stop (addr + pageSize) then some none
    else searchFree free stop fuel (addr + pageSize)

/-- Page steps from one address before the walk comes back to it: 2^64 / PAGE_SIZE. -/
def searchLimit : ℕ := 2 ^ 52

/-- Where handle_mmap maps, or the error it answers with. MAP_FIXED takes the
request's address as it is; otherwise an aligned nonzero address whose range
is free is used as given, and failing that the search runs from mmap_hint. -/
def mmapAddr (mem : ProcessMemory) (req : MmMmapRequest) (length : UInt64) : Option (Except ℤ UInt64) :=
  if req.flags &&& mapFixed ≠ 0 then
    if req.addr = 0 ∨ req.addr % pageSize ≠ 0 then some (.error ipcEinval)
    else if !mem.isFree req.addr length then some (.error ipcEnomem)
    else some (.ok req.addr)
  else if req.addr ≠ 0 ∧ req.addr % pageSize = 0 ∧ mem.isFree req.addr length then some (.ok req.addr)
  else
    (searchFree (mem.isFree · length) (fun addr => addr + length ≥ userTop) searchLimit mem.mmapHint).map
      fun found => match found with
        | some addr => .ok addr
        | none => .error ipcEnomem

/-- Where handle_shmat attaches: the request's address, rounded down to a page
under SHM_RND, or else the first free address of the search from mmap_hint. -/
def shmatAddr (mem : ProcessMemory) (req : MmShmatRequest) (size : UInt64) : Option UInt64 :=
  if req.shmaddr ≠ 0 then
    some (if req.flags &&& shmRnd ≠ 0 then req.shmaddr &&& ~~~(pageSize - 1) else req.shmaddr)
  else
    -- this search never gives up, so `join` only passes on a loop that has not ended
    (searchFree (mem.isFree · size) (fun _ => false) searchLimit mem.mmapHint).join

namespace MemMgrState

def init : MemMgrState := ⟨fun _ => ProcessMemory.init, ∅, 1⟩

variable (s : MemMgrState)

def getProcessMem (pid : ℤ) : ProcessMemory := s.processMem pid

def setProcessMem (pid : ℤ) (mem : ProcessMemory) : MemMgrState :=
  { s with processMem := Function.update s.processMem pid mem }

def handleBrk (req : MmBrkRequest) : MemMgrState × MmBrkResponse :=
  let mem := s.getProcessMem req.callerPid
  if req.newBrk = 0 then (s, ⟨mem.heapBrk, 0, ipcSuccess⟩)
  else if req.newBrk < mem.heapStart ∨ req.newBrk > mem.heapMax then (s, ⟨mem.heapBrk, -1, ipcEnomem⟩)
  else (s.setProcessMem req.callerPid { mem with heapBrk := req.newBrk }, ⟨req.newBrk, 0, ipcSuccess⟩)

def handleMmap (req : MmMmapRequest) : Option (MemMgrState × MmMmapResponse) :=
  let mem := s.getProcessMem req.callerPid
  let length := pageRoundUp req.length
  (mmapAddr mem req length).map fun
    | .error error => (s, ⟨0, -1, error⟩)
    | .ok addr =>
      let region : MemoryRegion := ⟨addr, length, req.prot, req.flags, req.fd, req.offset⟩
      (s.setProcessMem req.callerPid { mem.addRegion region with mmapHint := addr + length }, ⟨addr, 0, ipcSuccess⟩)

/-- The common part of handle_munmap and handle_shmdt: the region find_region
returns for addr must start there, and then the first region starting at addr
is removed. -/
def unmapAt (pid : ℤ) (addr : UInt64) : MemMgrState × MmGenericResponse :=
  let mem := s.getProcessMem pid
  match mem.findRegion addr with
  | some region =>
    if region.start ≠ addr then (s, ⟨-1, ipcEinval⟩)
    else (s.setProcessMem pid (mem.removeRegion addr), ⟨0, ipcSuccess⟩)
  | none => (s, ⟨-1, ipcEinval⟩)

/-- handle_munmap ignores the request's length. -/
def handleMunmap (req : MmMunmapRequest) : MemMgrState × MmGenericResponse :=
  if req.addr % pageSize ≠ 0 then (s, ⟨-1, ipcEinval⟩) else s.unmapAt req.callerPid req.addr

def handleMprotect (req : MmMprotectRequest) : MemMgrState × MmGenericResponse :=
  let mem := s.getProcessMem req.callerPid
  if req.addr % pageSize ≠ 0 then (s, ⟨-1, ipcEinval⟩)
  else match mem.findRegion req.addr with
    | none => (s, ⟨-1, ipcEnomem⟩)
    | some _ => (s.setProcessMem req.callerPid (mem.setProt req.addr req.prot), ⟨0, ipcSuccess⟩)

def handleShmget (req : MmShmgetRequest) : MemMgrState × MmShmgetResponse :=
  match s.shmSegments.entries.find? (·.2.key == req.key) with
  | some found =>
    if req.flags &&& ipcExcl ≠ 0 then (s, ⟨-1, ipcEexist⟩) else (s, ⟨found.1, ipcSuccess⟩)
  | none =>
    if req.flags &&& ipcCreat = 0 then (s, ⟨-1, ipcEnoent⟩)
    else
      let seg : ShmSegment :=
        { shmid := s.nextShmid, key := req.key, size := pageRoundUp req.size, flags := req.flags,
          uid := 0, gid := 0, mode := req.flags &&& 0o777, attachCount := 0, physicalAddr := 0 }
      ({ s with shmSegments := s.shmSegments.insert seg.shmid seg, nextShmid := s.nextShmid + 1 },
        ⟨seg.shmid, ipcSuccess⟩)

def handleShmat (req : MmShmatRequest) : Option (MemMgrState × MmShmatResponse) :=
  match s.shmSegments.lookup req.shmid with
  | none => some (s, ⟨0, -1, ipcEinval⟩)
  | some seg =>
    let mem := s.getProcessMem req.callerPid
    (shmatAddr mem req seg.size).map fun addr =>
      if !mem.isFree addr seg.size then (s, ⟨0, -1, ipcEnomem⟩)
      else
        let prot : UInt32 := if req.flags &&& shmRdonly ≠ 0 then 0x1 else 0x1 ||| 0x2
        -- attach_count is incremented where the segment stands in the map
        ({ s.setProcessMem req.callerPid (mem.addRegion ⟨addr, seg.size, prot, 0x01, -1, 0⟩) with
            shmSegments := s.shmSegments.replace req.shmid { seg with attachCount := seg.attachCount + 1 } },
          ⟨addr, 0, ipcSuccess⟩)

def handleShmdt (req : MmShmdtRequest) : MemMgrState × MmGenericResponse :=
  s.unmapAt req.callerPid req.shmaddr

def handleGetpagesize : MmGetpagesizeResponse := ⟨pageSize, 0, ipcSuccess⟩

end MemMgrState

inductive MmRequest
  | brk (req : MmBrkRequest)
  | mmap (req : MmMmapRequest)
  | munmap (req : MmMunmapRequest)
  | mprotect (req : MmMprotectRequest)
  | shmget (req : MmShmgetRequest)
  | shmat (req : MmShmatRequest)
  | shmdt (req : MmShmdtRequest)
  | getpagesize
  | other

inductive MmResponse
  | brk (resp : MmBrkResponse)
  | mmap (resp : MmMmapResponse)
  | generic (resp : MmGenericResponse)
  | shmget (resp : MmShmgetResponse)
  | shmat (resp : MmShmatResponse)
  | getpagesize (resp : MmGetpagesizeResponse)
  /-- The MM_ERROR reply to an unknown message type. -/
  | error (resp : MmGenericResponse)
  deriving DecidableEq

namespace MemMgrState

variable (s : MemMgrState)

/-- dispatch_message; `none` where a handler's search loop has not ended. -/
def dispatchMessage : MmRequest → Option (MemMgrState × MmResponse)
  | .brk req => some (Prod.map id .brk (s.handleBrk req))
  | .mmap req => (s.handleMmap req).map (Prod.map id .mmap)
  | .munmap req => some (Prod.map id .generic (s.handleMunmap req))
  | .mprotect req => some (Prod.map id .generic (s.handleMprotect req))
  | .shmget req => some (Prod.map id .shmget (s.handleShmget req))
  | .shmat req => (s.handleShmat req).map (Prod.map id .shmat)
  | .shmdt req => some (Prod.map id .generic (s.handleShmdt req))
  | .getpagesize => some (s, .getpagesize handleGetpagesize)
  | .other => some (s, .error ⟨-1, ipcEnosys⟩)

def run : MemMgrState → List MmRequest → Option MemMgrState
  | s, [] => some s
  | s, req :: reqs => (s.dispatchMessage req).bind fun handled => run handled.1 reqs

end MemMgrState

/-! ### Page arithmetic -/

theorem aligned_iff (a : UInt64) : a % pageSize = 0 ↔ a.toNat % 4096 = 0 := by
  rw [← UInt64.toNat_inj]
  simp [UInt64.toNat_mod, pageSize]

theorem aligned_add {a b : UInt64} (ha : a % pageSize = 0) (hb : b % pageSize = 0) :
    (a + b) % pageSize = 0 := by
  rw [aligned_iff] at *
  rw [UInt64.toNat_add]
  omega

theorem aligned_neg {a : UInt64} (ha : a % pageSize = 0) : (0 - a) % pageSize = 0 := by
  rw [aligned_iff] at *
  rw [UInt64.toNat_sub]
  have := a.toNat_lt
  simp
  omega

theorem pageRoundUp_aligned (length : UInt64) : pageRoundUp length % pageSize = 0 := by
  rw [aligned_iff, pageRoundUp, UInt64.toNat_and]
  have mask : (~~~(pageSize - 1)).toNat % 2 ^ 12 = 0 := by decide
  rw [show (4096 : ℕ) = 2 ^ 12 from rfl, Nat.and_mod_two_pow, mask, Nat.and_zero]

theorem toNat_iterate_step (k : ℕ) (addr : UInt64) :
    ((· + pageSize)^[k] addr).toNat = (addr.toNat + 4096 * k) % 2 ^ 64 := by
  induction k generalizing addr with
  | zero => simp [Nat.mod_eq_of_lt addr.toNat_lt]
  | succ k ih =>
    rw [Function.iterate_succ_apply, ih, UInt64.toNat_add]
    simp only [pageSize, UInt64.reduceToNat]
    omega

theorem exists_iterate_step_eq {a b : UInt64} (ha : a % pageSize = 0) (hb : b % pageSize = 0) :
    ∃ k < searchLimit, (· + pageSize)^[k] a = b := by
  rw [aligned_iff] at ha hb
  have := a.toNat_lt
  have := b.toNat_lt
  refine ⟨((b.toNat + 2 ^ 64 - a.toNat) % 2 ^ 64) / 4096, by unfold searchLimit; omega, ?_⟩
  apply UInt64.toNat_inj.mp
  rw [toNat_iterate_step]
  omega

/-! ### The search loops -/

section Search

variable {free stop : UInt64 → Bool}

theorem searchFree_isSome {k fuel : ℕ} {addr : UInt64} (hk : k < fuel)
    (found : free ((· + pageSize)^[k] addr)) : (searchFree free stop fuel addr).isSome := by
  induction fuel generalizing addr k with
  | zero => omega
  | succ fuel ih =>
    unfold searchFree
    split_ifs with here
    · rfl
    · rfl
    · cases k with
      | zero => exact absurd found here
      | succ k =>
        rw [Function.iterate_succ_apply] at found
        exact ih (by omega) found

theorem searchFree_found (P : UInt64 → Prop) (step : ∀ a, P a → P (a + pageSize)) {fuel : ℕ}
    {addr a : UInt64} (start : P addr) (h : searchFree free stop fuel addr = some (some a)) :
    free a ∧ P a := by
  induction fuel generalizing addr with
  | zero => simp [searchFree] at h
  | succ fuel ih =>
    unfold searchFree at h
    split_ifs at h with here
    · cases h
      exact ⟨here, start⟩
    · cases h
    · exact ih (step addr start) h

theorem searchFree_ne_gave_up : ∀ (fuel : ℕ) (addr : UInt64),
    searchFree free (fun _ => false) fuel addr ≠ some none
  | 0, _ => by simp [searchFree]
  | fuel + 1, addr => by
    unfold searchFree
    split_ifs with here stopped
    · simp
    · exact stopped.elim
    · exact searchFree_ne_gave_up fuel (addr + pageSize)

end Search

/-! ### What every reachable state keeps -/

namespace ProcessMemory

/-- The mmap hint is page aligned and the regions are sorted by start. -/
structure Wf (pm : ProcessMemory) : Prop where
  hint_aligned : pm.mmapHint % pageSize = 0
  sorted : (pm.regions.map MemoryRegion.start).Pairwise (· ≤ ·)

theorem Wf.init : ProcessMemory.init.Wf := ⟨by decide, by simp [ProcessMemory.init]⟩

variable {pm : ProcessMemory}

theorem isFree_wrap (pm : ProcessMemory) (length : UInt64) : pm.isFree (0 - length) length := by
  have wrap : 0 - length + length = 0 := UInt64.sub_add_cancel 0 length
  simp only [isFree, MemoryRegion.overlaps, wrap, List.all_eq_true]
  intro r _
  simp [UInt64.not_lt_zero]

theorem sorted_addRegion (pm : ProcessMemory) (region : MemoryRegion) :
    ((pm.addRegion region).regions.map MemoryRegion.start).Pairwise (· ≤ ·) :=
  List.pairwise_map.mpr (List.pairwise_insertionSort MemoryRegion.startLe _)

@[simp] theorem addRegion_mmapHint (region : MemoryRegion) : (pm.addRegion region).mmapHint = pm.mmapHint := rfl

theorem map_start_setProt (addr : UInt64) (prot : UInt32) :
    (pm.setProt addr prot).regions.map MemoryRegion.start = pm.regions.map MemoryRegion.start := by
  apply List.ext_getElem (by simp [setProt])
  intro i _ _
  simp only [setProt, List.getElem_map, List.getElem_modify]
  split <;> rfl

theorem Wf.addRegion (hw : pm.Wf) (region : MemoryRegion) : (pm.addRegion region).Wf :=
  ⟨hw.hint_aligned, sorted_addRegion pm region⟩

theorem Wf.removeRegion (hw : pm.Wf) (addr : UInt64) : (pm.removeRegion addr).Wf :=
  ⟨hw.hint_aligned, hw.sorted.sublist (List.eraseP_sublist.map _)⟩

theorem Wf.setProt (hw : pm.Wf) (addr : UInt64) (prot : UInt32) : (pm.setProt addr prot).Wf :=
  ⟨hw.hint_aligned, by rw [map_start_setProt]; exact hw.sorted⟩

end ProcessMemory

/-! ### Where the handlers map -/

section Choice

variable {mem : ProcessMemory} (hw : mem.Wf)
include hw

theorem mmapAddr_ok {req : MmMmapRequest} {length addr : UInt64}
    (h : mmapAddr mem req length = some (.ok addr)) : addr % pageSize = 0 ∧ mem.isFree addr length := by
  unfold mmapAddr at h
  split_ifs at h with fixed bad busy hint
  · cases h
  · cases h
  · cases h
    exact ⟨of_not_not (not_or.mp bad).2, by simpa using busy⟩
  · cases h
    exact ⟨hint.2.1, hint.2.2⟩
  · obtain ⟨found, search, chosen⟩ := Option.map_eq_some_iff.mp h
    cases found with
    | none => cases chosen
    | some a =>
      cases chosen
      have step : ∀ a : UInt64, a % pageSize = 0 → (a + pageSize) % pageSize = 0 :=
        fun _ aligned => aligned_add aligned (by decide)
      exact (searchFree_found (· % pageSize = 0) step hw.hint_aligned search).symm

theorem mmapAddr_isSome (req : MmMmapRequest) {length : UInt64} (pages : length % pageSize = 0) :
    (mmapAddr mem req length).isSome := by
  unfold mmapAddr
  split_ifs with fixed bad busy hint
  · rfl
  · rfl
  · rfl
  · rfl
  · rw [Option.isSome_map]
    obtain ⟨k, hk, reach⟩ := exists_iterate_step_eq hw.hint_aligned (aligned_neg pages)
    exact searchFree_isSome hk (by rw [reach]; exact mem.isFree_wrap length)

theorem shmatAddr_isSome (req : MmShmatRequest) {size : UInt64} (pages : size % pageSize = 0) :
    (shmatAddr mem req size).isSome := by
  unfold shmatAddr
  by_cases given : req.shmaddr ≠ 0
  · rw [if_pos given]
    rfl
  · rw [if_neg given]
    obtain ⟨k, hk, reach⟩ := exists_iterate_step_eq hw.hint_aligned (aligned_neg pages)
    have answered : (searchFree (mem.isFree · size) (fun _ => false) searchLimit mem.mmapHint).isSome :=
      searchFree_isSome hk (by rw [reach]; exact mem.isFree_wrap size)
    obtain ⟨found, search⟩ := Option.isSome_iff_exists.mp answered
    cases found with
    | none => exact absurd search (searchFree_ne_gave_up _ _)
    | some a => rw [search]; rfl

end Choice

namespace MemMgrState

/-- Every process's memory is well formed and every segment is a whole number of pages. -/
structure Wf (s : MemMgrState) : Prop where
  mem : ∀ pid, (s.processMem pid).Wf
  size_aligned : ∀ shmid seg, s.shmSegments.lookup shmid = some seg → seg.size % pageSize = 0

theorem Wf.init : MemMgrState.init.Wf := ⟨fun _ => ProcessMemory.Wf.init, by simp [MemMgrState.init]⟩

variable {s : MemMgrState}

@[simp] theorem getProcessMem_setProcessMem (pid pid' : ℤ) (mem : ProcessMemory) :
    (s.setProcessMem pid mem).getProcessMem pid' = if pid' = pid then mem else s.getProcessMem pid' := by
  simp [getProcessMem, setProcessMem, Function.update_apply]

theorem Wf.setProcessMem (hw : s.Wf) {pid : ℤ} {mem : ProcessMemory} (h : mem.Wf) :
    (s.setProcessMem pid mem).Wf := by
  refine ⟨fun p => ?_, hw.size_aligned⟩
  by_cases same : p = pid
  · subst same
    simpa [MemMgrState.setProcessMem] using h
  · simpa [MemMgrState.setProcessMem, same] using hw.mem p

theorem handleMmap_cases {req : MmMmapRequest} {r : MemMgrState × MmMmapResponse}
    (h : s.handleMmap req = some r) :
    let mem := s.getProcessMem req.callerPid
    let length := pageRoundUp req.length
    (∃ error, mmapAddr mem req length = some (.error error) ∧ r = (s, ⟨0, -1, error⟩)) ∨
      ∃ addr, mmapAddr mem req length = some (.ok addr) ∧
        r = (s.setProcessMem req.callerPid
          { mem.addRegion ⟨addr, length, req.prot, req.flags, req.fd, req.offset⟩ with mmapHint := addr + length },
          ⟨addr, 0, ipcSuccess⟩) := by
  obtain ⟨chosen, found, rfl⟩ := Option.map_eq_some_iff.mp h
  cases chosen with
  | error error => exact .inl ⟨error, found, rfl⟩
  | ok addr => exact .inr ⟨addr, found, rfl⟩

theorem handleShmat_cases {req : MmShmatRequest} {r : MemMgrState × MmShmatResponse}
    (h : s.handleShmat req = some r) :
    let mem := s.getProcessMem req.callerPid
    r.1 = s ∨ ∃ seg addr prot, s.shmSegments.lookup req.shmid = some seg ∧ mem.isFree addr seg.size ∧
      r = ({ s.setProcessMem req.callerPid (mem.addRegion ⟨addr, seg.size, prot, 0x01, -1, 0⟩) with
          shmSegments := s.shmSegments.replace req.shmid { seg with attachCount := seg.attachCount + 1 } },
        ⟨addr, 0, ipcSuccess⟩) := by
  unfold handleShmat at h
  split at h
  · cases h
    exact .inl rfl
  · rename_i seg found
    obtain ⟨addr, -, rfl⟩ := Option.map_eq_some_iff.mp h
    by_cases free : (s.getProcessMem req.callerPid).isFree addr seg.size
    · rw [if_neg (by simp [free])]
      exact .inr ⟨seg, addr, _, found, free, rfl⟩
    · rw [if_pos (by simp [free])]
      exact .inl rfl

theorem Wf.handleBrk (hw : s.Wf) (req : MmBrkRequest) : (s.handleBrk req).1.Wf := by
  unfold MemMgrState.handleBrk
  dsimp only
  split_ifs
  · exact hw
  · exact hw
  · exact hw.setProcessMem ⟨(hw.mem req.callerPid).hint_aligned, (hw.mem req.callerPid).sorted⟩

theorem Wf.handleMmap (hw : s.Wf) {req : MmMmapRequest} {r : MemMgrState × MmMmapResponse}
    (h : s.handleMmap req = some r) : r.1.Wf := by
  rcases handleMmap_cases h with ⟨error, -, rfl⟩ | ⟨addr, chosen, rfl⟩
  · exact hw
  · have mem := hw.mem req.callerPid
    have aligned := (mmapAddr_ok mem chosen).1
    exact hw.setProcessMem ⟨aligned_add aligned (pageRoundUp_aligned _), (mem.addRegion _).sorted⟩

theorem Wf.unmapAt (hw : s.Wf) (pid : ℤ) (addr : UInt64) : (s.unmapAt pid addr).1.Wf := by
  unfold MemMgrState.unmapAt
  dsimp only
  split
  · split_ifs
    · exact hw
    · exact hw.setProcessMem ((hw.mem pid).removeRegion addr)
  · exact hw

theorem Wf.handleMunmap (hw : s.Wf) (req : MmMunmapRequest) : (s.handleMunmap req).1.Wf := by
  unfold MemMgrState.handleMunmap
  split_ifs
  · exact hw
  · exact hw.unmapAt _ _

theorem Wf.handleMprotect (hw : s.Wf) (req : MmMprotectRequest) : (s.handleMprotect req).1.Wf := by
  unfold MemMgrState.handleMprotect
  dsimp only
  split_ifs
  · exact hw
  · split
    · exact hw
    · exact hw.setProcessMem ((hw.mem req.callerPid).setProt _ _)

theorem Wf.handleShmget (hw : s.Wf) (req : MmShmgetRequest) : (s.handleShmget req).1.Wf := by
  unfold MemMgrState.handleShmget
  dsimp only
  split
  · split_ifs
    · exact hw
    · exact hw
  · split_ifs
    · exact hw
    · refine ⟨hw.mem, fun shmid seg found => ?_⟩
      rw [AList.lookup_insert_eq_ite] at found
      split_ifs at found
      · cases found
        exact pageRoundUp_aligned _
      · exact hw.size_aligned shmid seg found

theorem Wf.handleShmat (hw : s.Wf) {req : MmShmatRequest} {r : MemMgrState × MmShmatResponse}
    (h : s.handleShmat req = some r) : r.1.Wf := by
  rcases handleShmat_cases h with same | ⟨seg, addr, prot, found, -, rfl⟩
  · exact same ▸ hw
  · refine ⟨(hw.setProcessMem ((hw.mem req.callerPid).addRegion _)).mem, fun shmid seg' found' => ?_⟩
    dsimp only at found'
    rw [AList.lookup_replace_eq_ite] at found'
    split_ifs at found'
    · cases found'
      exact hw.size_aligned _ seg found
    · exact hw.size_aligned shmid seg' found'

theorem Wf.handleMmap_isSome (hw : s.Wf) (req : MmMmapRequest) : (s.handleMmap req).isSome := by
  unfold MemMgrState.handleMmap
  rw [Option.isSome_map]
  exact mmapAddr_isSome (hw.mem req.callerPid) req (pageRoundUp_aligned _)

theorem Wf.handleShmat_isSome (hw : s.Wf) (req : MmShmatRequest) : (s.handleShmat req).isSome := by
  unfold MemMgrState.handleShmat
  split
  · rfl
  · rename_i seg found
    rw [Option.isSome_map]
    exact shmatAddr_isSome (hw.mem req.callerPid) req (hw.size_aligned _ seg found)

theorem Wf.dispatchMessage (hw : s.Wf) {req : MmRequest} {r : MemMgrState × MmResponse}
    (h : s.dispatchMessage req = some r) : r.1.Wf := by
  cases req with
  | brk req =>
    cases h
    exact hw.handleBrk req
  | mmap req =>
    obtain ⟨handled, found, rfl⟩ := Option.map_eq_some_iff.mp h
    exact hw.handleMmap found
  | munmap req =>
    cases h
    exact hw.handleMunmap req
  | mprotect req =>
    cases h
    exact hw.handleMprotect req
  | shmget req =>
    cases h
    exact hw.handleShmget req
  | shmat req =>
    obtain ⟨handled, found, rfl⟩ := Option.map_eq_some_iff.mp h
    exact hw.handleShmat found
  | shmdt req =>
    cases h
    exact hw.unmapAt _ _
  | getpagesize =>
    cases h
    exact hw
  | other =>
    cases h
    exact hw

theorem Wf.dispatchMessage_isSome (hw : s.Wf) (req : MmRequest) : (s.dispatchMessage req).isSome := by
  cases req with
  | mmap req => simpa [MemMgrState.dispatchMessage] using hw.handleMmap_isSome req
  | shmat req => simpa [MemMgrState.dispatchMessage] using hw.handleShmat_isSome req
  | _ => rfl

theorem Wf.run (hw : s.Wf) (reqs : List MmRequest) : ∃ s', s.run reqs = some s' ∧ s'.Wf := by
  induction reqs generalizing s with
  | nil => exact ⟨s, rfl, hw⟩
  | cons req reqs ih =>
    obtain ⟨r, handled⟩ := Option.isSome_iff_exists.mp (hw.dispatchMessage_isSome req)
    obtain ⟨s', rest, wf⟩ := ih (hw.dispatchMessage handled)
    exact ⟨s', by simp [MemMgrState.run, handled, rest], wf⟩

end MemMgrState

/-- Every sequence of requests from the server's start is handled to the end,
and every process's region list stays sorted by start. -/
theorem run_init_sorted (reqs : List MmRequest) :
    ∃ s, MemMgrState.init.run reqs = some s ∧
      ∀ pid, ((s.getProcessMem pid).regions.map MemoryRegion.start).Pairwise (· ≤ ·) := by
  obtain ⟨s, ran, wf⟩ := MemMgrState.Wf.init.run reqs
  exact ⟨s, ran, fun pid => (wf.mem pid).sorted⟩

/-- MAP_FIXED of a page at the heap base, a brk over that page, and MAP_FIXED
of length 0 at the end of user space. -/
def fixedMappings : List MmRequest :=
  [.mmap ⟨1, heapBase, pageSize, 3, mapFixed, -1, 0⟩, .brk ⟨1, heapBase + 2 * pageSize⟩,
    .mmap ⟨1, userTop, 0, 3, mapFixed, -1, 0⟩]

/-- All three requests succeed: the heap [heap_start, heap_brk) covers the
first region, and the second has length 0 and starts outside user space. -/
theorem fixed_mappings_break_region_invariant :
    (MemMgrState.init.run fixedMappings).map (fun s => ((s.getProcessMem 1).heapBrk, (s.getProcessMem 1).regions)) =
      some (heapBase + 2 * pageSize,
        [⟨heapBase, pageSize, 3, mapFixed, -1, 0⟩, ⟨userTop, 0, 3, mapFixed, -1, 0⟩]) := by
  decide

end Xinim.MemMgr
