import Mathlib.Algebra.BigOperators.Group.Finset.Basic
import Mathlib.Data.Fintype.Prod
import Mathlib.Data.Fintype.Fin
import Mathlib.Tactic.Abel
import Mathlib.Algebra.Order.BigOperators.Group.List
import Mathlib.Data.Multiset.OrderedMonoid
import Xinim.Data.Bytes
import Xinim.Interval.Extent

/-! The physical memory manager of mm/pmm.cpp: a page-frame array and, per
zone and order, a free list of block addresses (`std::vector<uint64_t>` with
its `nr_free` count). Addresses and sizes are the source's `uint64_t`; the
only sum that can wrap, `base + size` in `add_memory_region`, is taken modulo
`2 ^ 64`. The locks, the page counters that nothing reads (`pages_free`,
`alloc_count`, `free_count`, `free_pages_`, `used_pages_`, `reserved_pages_`)
and the fields `ref_count` and `private_data` of a page frame are left out. -/

namespace Xinim.Mm

def pageSize : ℕ := 4096

def dmaZoneEnd : ℕ := 16 * 1024 * 1024

def normalZoneEnd : ℕ := 896 * 1024 * 1024

def maxOrder : ℕ := 11

def flagFree : UInt32 := 0x0000

def flagAllocated : UInt32 := 0x0001

def flagReserved : UInt32 := 0x0002

inductive MemoryZone
  | dma
  | normal
  | high
  deriving DecidableEq, Repr

instance : Fintype MemoryZone := Fintype.ofList [.dma, .normal, .high] fun z => by cases z <;> simp

structure PageFrame where
  flags : UInt32
  order : ℕ
  deriving DecidableEq

structure FreeArea where
  freeList : List ℕ
  nrFree : ℕ
  deriving DecidableEq

structure PhysicalMemoryManager where
  totalPageFrames : ℕ
  pageFrames : ℕ → PageFrame
  /-- `zones_[zone].free_area[order]`. -/
  freeArea : MemoryZone × Fin maxOrder → FreeArea

def physToPfn (phys : ℕ) : ℕ := phys / pageSize

def pfnToPhys (pfn : ℕ) : ℕ := pfn * pageSize

def getPagesForOrder (order : ℕ) : ℕ := 2 ^ order

def getZoneForAddress (physAddr : ℕ) : MemoryZone :=
  if physAddr < dmaZoneEnd then .dma else if physAddr < normalZoneEnd then .normal else .high

/-- The loop of `get_order`: double `size` until it reaches `pages` or the
order reaches `MAX_ORDER - 1`; its guard bounds it by `MAX_ORDER` rounds. -/
def getOrderLoop (pages : ℕ) : ℕ → ℕ → ℕ → ℕ
  | 0, _, order => order
  | fuel + 1, size, order =>
    if size < pages ∧ order < maxOrder - 1 then getOrderLoop pages fuel (size <<< 1) (order + 1) else order

def getOrder (pages : ℕ) : ℕ := if pages = 0 then 0 else getOrderLoop pages maxOrder 1 0

def getBuddyAddress (physAddr order : ℕ) : ℕ := physAddr ^^^ (getPagesForOrder order * pageSize)

namespace PhysicalMemoryManager

def setFreeArea (s : PhysicalMemoryManager) (i : MemoryZone × Fin maxOrder) (fa : FreeArea) :
    PhysicalMemoryManager :=
  { s with freeArea := Function.update s.freeArea i fa }

/-- The loops that write one frame value over `count` frames from `pfn`,
skipping those past `total_page_frames_`. -/
def setFrames (s : PhysicalMemoryManager) (pfn count : ℕ) (frame : PageFrame) : PhysicalMemoryManager :=
  { s with pageFrames := fun p =>
      if pfn ≤ p ∧ p < pfn + count ∧ p < s.totalPageFrames then frame else s.pageFrames p }

def setOrder (s : PhysicalMemoryManager) (pfn order : ℕ) : PhysicalMemoryManager :=
  if pfn < s.totalPageFrames then
    { s with pageFrames := Function.update s.pageFrames pfn { s.pageFrames pfn with order := order } }
  else s

def addToFreeList (s : PhysicalMemoryManager) (physAddr order : ℕ) (zone : MemoryZone) : PhysicalMemoryManager :=
  if h : order < maxOrder then
    let fa := s.freeArea (zone, ⟨order, h⟩)
    (s.setFreeArea (zone, ⟨order, h⟩) ⟨fa.freeList ++ [physAddr], fa.nrFree + 1⟩).setOrder (physToPfn physAddr) order
  else s

def removeFromFreeList (s : PhysicalMemoryManager) (physAddr order : ℕ) (zone : MemoryZone) :
    PhysicalMemoryManager :=
  if h : order < maxOrder then
    let fa := s.freeArea (zone, ⟨order, h⟩)
    if physAddr ∈ fa.freeList then s.setFreeArea (zone, ⟨order, h⟩) ⟨fa.freeList.erase physAddr, fa.nrFree - 1⟩
    else s
  else s

/-- `PhysicalMemoryManager::initialize` with `init_zones` and
`init_buddy_allocator`: every frame free, the kernel's frames and frame 0
reserved, every free list empty. The metadata array has `total_page_frames_`
entries, so with none the write to frame 0 is outside it. -/
def init (totalMemory kernelStart kernelEnd : ℕ) : Except Fault PhysicalMemoryManager :=
  let total := totalMemory / pageSize
  if total = 0 then .error .outOfBounds
  else .ok
    { totalPageFrames := total
      pageFrames := fun pfn =>
        if pfn = 0 ∨ (physToPfn kernelStart ≤ pfn ∧ pfn < physToPfn kernelEnd ∧ pfn < total) then
          ⟨flagReserved, 0⟩
        else ⟨flagFree, 0⟩
      freeArea := fun _ => ⟨[], 0⟩ }

def addRegionPage (reserved : Bool) (s : PhysicalMemoryManager) (pfn : ℕ) : PhysicalMemoryManager :=
  if (s.pageFrames pfn).flags &&& flagReserved ≠ 0 then s
  else if reserved then
    { s with pageFrames := Function.update s.pageFrames pfn { s.pageFrames pfn with flags := flagReserved } }
  else
    let s := { s with pageFrames := Function.update s.pageFrames pfn { s.pageFrames pfn with flags := flagFree } }
    s.addToFreeList (pfnToPhys pfn) 0 (getZoneForAddress (pfnToPhys pfn))

/-- `add_memory_region`: the frames from `base`'s up to `base + size`'s and
below `total_page_frames_`. -/
def addMemoryRegion (s : PhysicalMemoryManager) (base size : ℕ) (reserved : Bool) : PhysicalMemoryManager :=
  let startPfn := physToPfn base
  let endPfn := physToPfn ((base + size) % 2 ^ 64)
  (List.range' startPfn (min endPfn s.totalPageFrames - startPfn)).foldl (addRegionPage reserved) s

def popBack (s : PhysicalMemoryManager) (i : MemoryZone × Fin maxOrder) : PhysicalMemoryManager :=
  s.setFreeArea i ⟨(s.freeArea i).freeList.dropLast, (s.freeArea i).nrFree - 1⟩

/-- The split loop of `buddy_alloc`: from `current` down to `order`, the
upper half of the block goes back on the free list one order below. -/
def splitDown (s : PhysicalMemoryManager) (addr order : ℕ) (zone : MemoryZone) : ℕ → PhysicalMemoryManager
  | 0 => s
  | current + 1 =>
    if order < current + 1 then
      (s.addToFreeList (addr + getPagesForOrder current * pageSize) current zone).splitDown addr order zone current
    else s

/-- The search loop of `buddy_alloc` in one zone: the first order from
`order` up whose `nr_free` is positive gives up the block at the back of its
vector, split down to `order`; `none` when no order has one. -/
def allocIn (s : PhysicalMemoryManager) (order : ℕ) (zone : MemoryZone) :
    Option (Except Fault (PhysicalMemoryManager × ℕ)) :=
  ((List.finRange maxOrder).find? fun k => order ≤ k.val ∧ 0 < (s.freeArea (zone, k)).nrFree).map fun k =>
    match (s.freeArea (zone, k)).freeList.getLast? with
    -- `back()` of an empty vector
    | none => .error .outOfBounds
    | some addr =>
      let s := (s.popBack (zone, k)).splitDown addr order zone k
      .ok (s.setFrames (physToPfn addr) (getPagesForOrder order) ⟨flagAllocated, order⟩, addr)

/-- `buddy_alloc`. A zone without a block returns 0 for `DMA`; `NORMAL` and
`HIGH` fall back by calling `buddy_alloc` again, whose `lock_guard` on
`global_lock_`, a `std::mutex` the caller still holds, never returns. -/
def buddyAlloc (s : PhysicalMemoryManager) (order : ℕ) (zone : MemoryZone) :
    Except Fault (PhysicalMemoryManager × ℕ) :=
  (s.allocIn order zone).getD <|
    match zone with
    | .dma => .ok (s, 0)
    | .normal | .high => .error .deadlock

def allocPage (s : PhysicalMemoryManager) (zone : MemoryZone) : Except Fault (PhysicalMemoryManager × ℕ) :=
  s.buddyAlloc 0 zone

def allocPages (s : PhysicalMemoryManager) (count : ℕ) (zone : MemoryZone) :
    Except Fault (PhysicalMemoryManager × ℕ) :=
  if count = 0 then .ok (s, 0)
  else if count = 1 then s.allocPage zone
  else s.buddyAlloc (getOrder count) zone

/-- The coalescing loop of `buddy_free`, from `phys_addr` at `order`; it
runs while the order is below `MAX_ORDER - 1`, so `MAX_ORDER` rounds of fuel
are enough. -/
def coalesce (zone : MemoryZone) : ℕ → PhysicalMemoryManager → ℕ → ℕ → PhysicalMemoryManager × ℕ × ℕ
  | 0, s, physAddr, order => (s, physAddr, order)
  | fuel + 1, s, physAddr, order =>
    if order < maxOrder - 1 then
      let buddyAddr := getBuddyAddress physAddr order
      let buddyPfn := physToPfn buddyAddr
      if s.totalPageFrames ≤ buddyPfn then (s, physAddr, order)
      else if (s.pageFrames buddyPfn).flags &&& flagFree = 0 then (s, physAddr, order)
      else if (s.pageFrames buddyPfn).order ≠ order then (s, physAddr, order)
      else coalesce zone fuel (s.removeFromFreeList buddyAddr order zone) (min physAddr buddyAddr) (order + 1)
    else (s, physAddr, order)

def buddyFree (s : PhysicalMemoryManager) (physAddr order : ℕ) : PhysicalMemoryManager :=
  if physAddr = 0 then s
  else if s.totalPageFrames ≤ physToPfn physAddr then s
  else
    let s := s.setFrames (physToPfn physAddr) (getPagesForOrder order) ⟨flagFree, 0⟩
    let zone := getZoneForAddress physAddr
    let (s, physAddr, order) := coalesce zone maxOrder s physAddr order
    s.addToFreeList physAddr order zone

def freePage (s : PhysicalMemoryManager) (physAddr : ℕ) : PhysicalMemoryManager :=
  s.buddyFree physAddr 0

def freePages (s : PhysicalMemoryManager) (physAddr count : ℕ) : PhysicalMemoryManager :=
  if count = 0 then s
  else if count = 1 then s.freePage physAddr
  else s.buddyFree physAddr (getOrder count)

/-! ### The pages on the free lists -/

section Fields

variable (s : PhysicalMemoryManager)

@[simp] theorem setFreeArea_freeArea (i : MemoryZone × Fin maxOrder) (fa : FreeArea) :
    (s.setFreeArea i fa).freeArea = Function.update s.freeArea i fa := rfl

@[simp] theorem setFreeArea_totalPageFrames (i : MemoryZone × Fin maxOrder) (fa : FreeArea) :
    (s.setFreeArea i fa).totalPageFrames = s.totalPageFrames := rfl

@[simp] theorem setFrames_freeArea (pfn count : ℕ) (frame : PageFrame) :
    (s.setFrames pfn count frame).freeArea = s.freeArea := rfl

@[simp] theorem setFrames_totalPageFrames (pfn count : ℕ) (frame : PageFrame) :
    (s.setFrames pfn count frame).totalPageFrames = s.totalPageFrames := rfl

@[simp] theorem setOrder_freeArea (pfn order : ℕ) : (s.setOrder pfn order).freeArea = s.freeArea := by
  unfold setOrder; split <;> rfl

@[simp] theorem setOrder_totalPageFrames (pfn order : ℕ) :
    (s.setOrder pfn order).totalPageFrames = s.totalPageFrames := by
  unfold setOrder; split <;> rfl

@[simp] theorem addToFreeList_totalPageFrames (physAddr order : ℕ) (zone : MemoryZone) :
    (s.addToFreeList physAddr order zone).totalPageFrames = s.totalPageFrames := by
  unfold addToFreeList; split <;> simp

@[simp] theorem popBack_totalPageFrames (i : MemoryZone × Fin maxOrder) :
    (s.popBack i).totalPageFrames = s.totalPageFrames := rfl

theorem splitDown_totalPageFrames (addr order : ℕ) (zone : MemoryZone) :
    ∀ current, (s.splitDown addr order zone current).totalPageFrames = s.totalPageFrames := by
  intro current
  induction current generalizing s with
  | zero => rfl
  | succ current ih =>
    unfold splitDown
    split
    · rw [ih, addToFreeList_totalPageFrames]
    · rfl

end Fields

end PhysicalMemoryManager

def blockPages (addr order : ℕ) : Multiset ℕ := ↑(List.range' (physToPfn addr) (getPagesForOrder order))

def listPages (l : List ℕ) (order : ℕ) : Multiset ℕ := (l.map fun a => blockPages a order).sum

theorem blockPages_succ (addr k : ℕ) :
    blockPages addr (k + 1) = blockPages addr k + blockPages (addr + getPagesForOrder k * pageSize) k := by
  have upper : physToPfn (addr + getPagesForOrder k * pageSize) = physToPfn addr + getPagesForOrder k :=
    Nat.add_mul_div_right _ _ (by decide)
  have double : getPagesForOrder (k + 1) = getPagesForOrder k + getPagesForOrder k := by
    rw [getPagesForOrder, getPagesForOrder, pow_succ, Nat.mul_two]
  rw [blockPages, blockPages, blockPages, upper, double, Multiset.coe_add, List.range'_append_1]

theorem physToPfn_pfnToPhys (pfn : ℕ) : physToPfn (pfnToPhys pfn) = pfn :=
  Nat.mul_div_cancel _ (by unfold pageSize; omega)

theorem pfnToPhys_aligned (pfn : ℕ) : pfnToPhys pfn % pageSize = 0 := Nat.mul_mod_left _ _

theorem blockPages_pfnToPhys (pfn : ℕ) : blockPages (pfnToPhys pfn) 0 = {pfn} := by
  simp [blockPages, physToPfn_pfnToPhys, getPagesForOrder]

theorem pfn_mem_blockPages (addr order : ℕ) : physToPfn addr ∈ blockPages addr order := by
  rw [blockPages, Multiset.mem_coe, List.mem_range'_1]
  exact ⟨le_rfl, Nat.lt_add_of_pos_right (Nat.two_pow_pos order)⟩

theorem listPages_concat (l : List ℕ) (a order : ℕ) : listPages (l ++ [a]) order = listPages l order + blockPages a order := by
  simp [listPages]

theorem listPages_dropLast {l : List ℕ} {a : ℕ} (last : l.getLast? = some a) (order : ℕ) :
    listPages l.dropLast order + blockPages a order = listPages l order := by
  rw [← listPages_concat, List.dropLast_append_getLast? _ last]

namespace PhysicalMemoryManager

def freeListPages (s : PhysicalMemoryManager) : Multiset ℕ := ∑ i, listPages (s.freeArea i).freeList i.2

/-- `nr_free` counts its vector, and every free block starts on a page. -/
structure Wf (s : PhysicalMemoryManager) : Prop where
  counted : ∀ i, (s.freeArea i).nrFree = (s.freeArea i).freeList.length
  aligned : ∀ i, ∀ a ∈ (s.freeArea i).freeList, a % pageSize = 0

variable {s : PhysicalMemoryManager}

theorem freeListPages_congr {s' : PhysicalMemoryManager} (same : s'.freeArea = s.freeArea) :
    freeListPages s' = freeListPages s := by
  rw [freeListPages, freeListPages, same]

theorem Wf.congr {s' : PhysicalMemoryManager} (hw : s.Wf) (same : s'.freeArea = s.freeArea) : s'.Wf := by
  constructor <;> rw [same]
  · exact hw.counted
  · exact hw.aligned

theorem freeListPages_setFreeArea (s : PhysicalMemoryManager) (i : MemoryZone × Fin maxOrder) (fa : FreeArea) :
    freeListPages (s.setFreeArea i fa) + listPages (s.freeArea i).freeList i.2 =
      freeListPages s + listPages fa.freeList i.2 := by
  unfold freeListPages
  rw [← Finset.add_sum_erase _ _ (Finset.mem_univ i), ← Finset.add_sum_erase _ _ (Finset.mem_univ i)]
  have rest : ∑ j ∈ Finset.univ.erase i, listPages ((s.setFreeArea i fa).freeArea j).freeList j.2 =
      ∑ j ∈ Finset.univ.erase i, listPages (s.freeArea j).freeList j.2 :=
    Finset.sum_congr rfl fun j mem => by
      rw [setFreeArea_freeArea, Function.update_of_ne (Finset.ne_of_mem_erase mem)]
  rw [rest, setFreeArea_freeArea, Function.update_self]
  abel

theorem Wf.setFreeArea (hw : s.Wf) {i : MemoryZone × Fin maxOrder} {fa : FreeArea}
    (counted : fa.nrFree = fa.freeList.length) (aligned : ∀ a ∈ fa.freeList, a % pageSize = 0) :
    (s.setFreeArea i fa).Wf := by
  constructor
  · intro j
    by_cases at_i : j = i
    · subst at_i; simpa using counted
    · simpa [Function.update_of_ne at_i] using hw.counted j
  · intro j
    by_cases at_i : j = i
    · subst at_i; simpa using aligned
    · simpa [Function.update_of_ne at_i] using hw.aligned j

theorem freeListPages_addToFreeList (s : PhysicalMemoryManager) {order : ℕ} (h : order < maxOrder)
    (physAddr : ℕ) (zone : MemoryZone) :
    freeListPages (s.addToFreeList physAddr order zone) = freeListPages s + blockPages physAddr order := by
  have pushed := freeListPages_setFreeArea s (zone, ⟨order, h⟩)
    ⟨(s.freeArea (zone, ⟨order, h⟩)).freeList ++ [physAddr], (s.freeArea (zone, ⟨order, h⟩)).nrFree + 1⟩
  rw [listPages_concat] at pushed
  simp only [addToFreeList, dif_pos h]
  rw [freeListPages_congr (setOrder_freeArea _ _ _)]
  apply add_right_cancel (b := listPages (s.freeArea (zone, ⟨order, h⟩)).freeList order)
  dsimp only at pushed
  rw [pushed]
  abel

theorem Wf.addToFreeList (hw : s.Wf) {physAddr : ℕ} (aligned : physAddr % pageSize = 0) (order : ℕ)
    (zone : MemoryZone) : (s.addToFreeList physAddr order zone).Wf := by
  unfold PhysicalMemoryManager.addToFreeList
  split
  · refine (hw.setFreeArea ?_ ?_).congr (setOrder_freeArea _ _ _)
    · simp [hw.counted]
    · intro a mem
      rcases List.mem_append.mp mem with old | new
      · exact hw.aligned _ a old
      · rw [List.mem_singleton.mp new]; exact aligned
  · exact hw

theorem freeListPages_popBack (s : PhysicalMemoryManager) {i : MemoryZone × Fin maxOrder} {addr : ℕ}
    (last : (s.freeArea i).freeList.getLast? = some addr) :
    freeListPages (s.popBack i) + blockPages addr i.2 = freeListPages s := by
  apply add_right_cancel (b := listPages (s.freeArea i).freeList i.2)
  rw [popBack, add_right_comm, freeListPages_setFreeArea, add_assoc, listPages_dropLast last]

theorem Wf.popBack (hw : s.Wf) (i : MemoryZone × Fin maxOrder) : (s.popBack i).Wf :=
  hw.setFreeArea (by simp [hw.counted]) fun a mem => hw.aligned i a (List.dropLast_subset _ mem)

theorem freeListPages_splitDown (addr order : ℕ) (zone : MemoryZone) :
    ∀ (s : PhysicalMemoryManager) (current : ℕ), order ≤ current → current < maxOrder →
      freeListPages (s.splitDown addr order zone current) + blockPages addr order =
        freeListPages s + blockPages addr current := by
  intro s current
  induction current generalizing s with
  | zero =>
    intro low _
    rw [Nat.le_zero.mp low]
    rfl
  | succ current ih =>
    intro low high
    unfold splitDown
    by_cases below : order < current + 1
    · rw [if_pos below, ih _ (by omega) (by omega), freeListPages_addToFreeList _ (by omega), blockPages_succ]
      abel
    · rw [if_neg below, show order = current + 1 by omega]

theorem Wf.splitDown (hw : s.Wf) {addr : ℕ} (aligned : addr % pageSize = 0) (order : ℕ) (zone : MemoryZone)
    (current : ℕ) : (s.splitDown addr order zone current).Wf := by
  induction current generalizing s with
  | zero => exact hw
  | succ current ih =>
    unfold PhysicalMemoryManager.splitDown
    split
    · exact ih (hw.addToFreeList (by rw [Nat.add_mul_mod_self_right, aligned]) _ _)
    · exact hw

/-! ### `buddy_alloc` -/

/-- `buddy_alloc` took the block of `2 ^ order` pages at `addr` off the free
lists of `s`, leaving `s'`. -/
structure Took (s s' : PhysicalMemoryManager) (order addr : ℕ) : Prop where
  wf : s'.Wf
  aligned : addr % pageSize = 0
  total : s'.totalPageFrames = s.totalPageFrames
  pages : freeListPages s' + blockPages addr order = freeListPages s

theorem Took.ne_zero {s' : PhysicalMemoryManager} {order addr : ℕ} (took : Took s s' order addr)
    (pos : ∀ p ∈ freeListPages s, 0 < p) : addr ≠ 0 := by
  intro zero
  have first : physToPfn addr ∈ freeListPages s := by
    rw [← took.pages]
    exact Multiset.mem_add.mpr (.inr (pfn_mem_blockPages addr order))
  have := pos _ first
  simp [zero, physToPfn] at this

theorem Wf.took (hw : s.Wf) {order : ℕ} {zone : MemoryZone} {k : Fin maxOrder} {addr : ℕ} (low : order ≤ k.val)
    (last : (s.freeArea (zone, k)).freeList.getLast? = some addr) :
    Took s ((((s.popBack (zone, k)).splitDown addr order zone k).setFrames (physToPfn addr)
      (getPagesForOrder order) ⟨flagAllocated, order⟩)) order addr := by
  have aligned := hw.aligned (zone, k) addr (List.mem_of_getLast? last)
  refine ⟨((hw.popBack _).splitDown aligned _ _ _).congr (setFrames_freeArea _ _ _ _), aligned, ?_, ?_⟩
  · simp [splitDown_totalPageFrames]
  · rw [freeListPages_congr (setFrames_freeArea _ _ _ _), freeListPages_splitDown _ _ _ _ _ low k.isLt,
      freeListPages_popBack _ last]

theorem allocIn_cases (hw : s.Wf) (order : ℕ) (zone : MemoryZone) :
    s.allocIn order zone = none ∨
      ∃ r, s.allocIn order zone = some (.ok r) ∧ Took s r.1 order r.2 := by
  unfold allocIn
  cases found : (List.finRange maxOrder).find? fun k => order ≤ k.val ∧ 0 < (s.freeArea (zone, k)).nrFree with
  | none => exact .inl rfl
  | some k =>
    have chosen := List.find?_some found
    simp only [decide_eq_true_eq] at chosen
    obtain ⟨low, positive⟩ := chosen
    rw [hw.counted] at positive
    have last := List.getLast?_eq_some_getLast (List.ne_nil_of_length_pos positive)
    refine .inr ⟨(_, _), ?_, hw.took low last⟩
    simp only [Option.map_some, last]
    rfl

theorem buddyAlloc_of_some {order : ℕ} {zone : MemoryZone} {r : Except Fault (PhysicalMemoryManager × ℕ)}
    (found : s.allocIn order zone = some r) : s.buddyAlloc order zone = r := by
  simp only [buddyAlloc, found, Option.getD_some]

theorem buddyAlloc_of_none {order : ℕ} {zone : MemoryZone} (none : s.allocIn order zone = none) :
    s.buddyAlloc order zone = if zone = .dma then .ok (s, 0) else .error .deadlock := by
  cases zone <;> simp [buddyAlloc, none]

/-- What `buddy_alloc` returns from `s`: 0 with nothing taken, or the
nonzero address of the block it took. -/
def AllocResult (s : PhysicalMemoryManager) (order : ℕ) (r : PhysicalMemoryManager × ℕ) : Prop :=
  (r.2 = 0 ∧ r.1 = s) ∨ (r.2 ≠ 0 ∧ Took s r.1 order r.2)

section BuddyAlloc

variable (hw : s.Wf) (pos : ∀ p ∈ freeListPages s, 0 < p) (order : ℕ)
include hw pos

theorem buddyAlloc_spec (zone : MemoryZone) :
    (∃ r, s.buddyAlloc order zone = .ok r ∧ AllocResult s order r) ∨ s.buddyAlloc order zone = .error .deadlock := by
  rcases allocIn_cases hw order zone with none | ⟨r, some, took⟩
  · rw [buddyAlloc_of_none none]
    split_ifs
    · exact .inl ⟨(s, 0), rfl, .inl ⟨rfl, rfl⟩⟩
    · exact .inr rfl
  · exact .inl ⟨r, buddyAlloc_of_some some, .inr ⟨took.ne_zero pos, took⟩⟩

end BuddyAlloc

/-! ### `buddy_free` -/

theorem coalesce_eq (zone : MemoryZone) :
    ∀ fuel (s : PhysicalMemoryManager) physAddr order, coalesce zone fuel s physAddr order = (s, physAddr, order)
  | 0, _, _, _ => rfl
  | fuel + 1, s, physAddr, order => by
    have noFlag : ∀ flags : UInt32, flags &&& flagFree = 0 := fun _ => UInt32.and_zero
    simp [coalesce, noFlag]

theorem buddyFree_eq {physAddr : ℕ} (named : physAddr ≠ 0) (inFrames : physToPfn physAddr < s.totalPageFrames)
    (order : ℕ) :
    s.buddyFree physAddr order = (s.setFrames (physToPfn physAddr) (getPagesForOrder order) ⟨flagFree, 0⟩).addToFreeList
      physAddr order (getZoneForAddress physAddr) := by
  simp only [buddyFree, if_neg named, if_neg (Nat.not_le.mpr inFrames), coalesce_eq]

@[simp] theorem buddyFree_totalPageFrames (physAddr order : ℕ) :
    (s.buddyFree physAddr order).totalPageFrames = s.totalPageFrames := by
  unfold buddyFree
  split_ifs <;> simp [coalesce_eq]

theorem getOrderLoop_le (pages : ℕ) :
    ∀ fuel size order, order ≤ maxOrder - 1 → getOrderLoop pages fuel size order ≤ maxOrder - 1
  | 0, _, _, low => low
  | fuel + 1, size, order, low => by
    unfold getOrderLoop
    split
    · exact getOrderLoop_le pages fuel _ _ (by omega)
    · exact low

theorem getOrder_lt (pages : ℕ) : getOrder pages < maxOrder := by
  unfold getOrder
  split
  · decide
  · have := getOrderLoop_le pages maxOrder 1 0 (by decide)
    unfold maxOrder at *
    omega

theorem allocPages_eq {count : ℕ} (named : count ≠ 0) (zone : MemoryZone) :
    s.allocPages count zone = s.buddyAlloc (getOrder count) zone := by
  unfold allocPages allocPage
  by_cases one : count = 1
  · subst one; rfl
  · rw [if_neg named, if_neg one]

theorem freePages_eq {count : ℕ} (named : count ≠ 0) (physAddr : ℕ) :
    s.freePages physAddr count = s.buddyFree physAddr (getOrder count) := by
  unfold freePages freePage
  by_cases one : count = 1
  · subst one; rfl
  · rw [if_neg named, if_neg one]

end PhysicalMemoryManager

/-! ### `initialize` and `add_memory_region` -/

structure MemoryRegion where
  base : ℕ
  size : ℕ
  reserved : Bool

def MemoryRegion.extent (r : MemoryRegion) : Extent := ⟨r.base, r.size⟩

def regionPfns (total : ℕ) (r : MemoryRegion) : List ℕ :=
  List.range' (physToPfn r.base) (min (physToPfn ((r.base + r.size) % 2 ^ 64)) total - physToPfn r.base)

/-- `initialize(total_memory, kernel_start, kernel_end)`, then
`add_memory_region` over the ranges in turn. -/
def setup (totalMemory kernelStart kernelEnd : ℕ) (regions : List MemoryRegion) :
    Except Fault PhysicalMemoryManager :=
  (PhysicalMemoryManager.init totalMemory kernelStart kernelEnd).map fun s =>
    regions.foldl (fun s r => s.addMemoryRegion r.base r.size r.reserved) s

def pageExtent (pfn : ℕ) : Extent := ⟨pfnToPhys pfn, pageSize⟩

namespace PhysicalMemoryManager

variable {s : PhysicalMemoryManager}

theorem addMemoryRegion_eq (s : PhysicalMemoryManager) (r : MemoryRegion) :
    s.addMemoryRegion r.base r.size r.reserved = (regionPfns s.totalPageFrames r).foldl (addRegionPage r.reserved) s :=
  rfl

theorem setOrder_pageFrames_of_ne {pfn q : ℕ} (ne : q ≠ pfn) (order : ℕ) :
    (s.setOrder pfn order).pageFrames q = s.pageFrames q := by
  unfold setOrder
  split
  · exact Function.update_of_ne ne _ _
  · rfl

theorem addToFreeList_pageFrames_of_ne {physAddr q : ℕ} (ne : q ≠ physToPfn physAddr) (order : ℕ)
    (zone : MemoryZone) : (s.addToFreeList physAddr order zone).pageFrames q = s.pageFrames q := by
  unfold addToFreeList
  split
  · exact setOrder_pageFrames_of_ne ne order
  · rfl

@[simp] theorem addRegionPage_totalPageFrames (reserved : Bool) (pfn : ℕ) :
    (addRegionPage reserved s pfn).totalPageFrames = s.totalPageFrames := by
  unfold addRegionPage
  split_ifs <;> simp

theorem addRegionPage_pageFrames_of_ne (reserved : Bool) {pfn q : ℕ} (ne : q ≠ pfn) :
    (addRegionPage reserved s pfn).pageFrames q = s.pageFrames q := by
  unfold addRegionPage
  split_ifs
  · rfl
  · exact Function.update_of_ne ne _ _
  · rw [addToFreeList_pageFrames_of_ne (by rw [physToPfn_pfnToPhys]; exact ne)]
    exact Function.update_of_ne ne _ _

theorem freeListPages_addRegionPage (reserved : Bool) (pfn : ℕ) :
    freeListPages (addRegionPage reserved s pfn) =
      freeListPages s + if reserved = false ∧ (s.pageFrames pfn).flags &&& flagReserved = 0 then {pfn} else 0 := by
  unfold addRegionPage
  by_cases kept : (s.pageFrames pfn).flags &&& flagReserved = 0
  · cases reserved
    · rw [if_neg (not_not.mpr kept), if_neg Bool.false_ne_true, if_pos ⟨rfl, kept⟩,
        freeListPages_addToFreeList _ (by decide), blockPages_pfnToPhys]
      rfl
    · rw [if_neg (not_not.mpr kept), if_pos rfl, if_neg fun both => absurd both.1 (by decide)]
      simp [freeListPages]
  · rw [if_pos kept, if_neg fun both => kept both.2, add_zero]

theorem Wf.addRegionPage (hw : s.Wf) (reserved : Bool) (pfn : ℕ) : (PhysicalMemoryManager.addRegionPage reserved s pfn).Wf := by
  unfold PhysicalMemoryManager.addRegionPage
  split_ifs
  · exact hw
  · exact hw.congr rfl
  · dsimp only
    apply Wf.addToFreeList _ (pfnToPhys_aligned pfn)
    exact ⟨hw.counted, hw.aligned⟩

section Loop

variable (reserved : Bool)

theorem foldl_addRegionPage_totalPageFrames (pfns : List ℕ) :
    (pfns.foldl (addRegionPage reserved) s).totalPageFrames = s.totalPageFrames := by
  induction pfns generalizing s with
  | nil => rfl
  | cons pfn pfns ih => rw [List.foldl_cons, ih, addRegionPage_totalPageFrames]

theorem foldl_addRegionPage_pageFrames {pfns : List ℕ} {q : ℕ} (outside : q ∉ pfns) :
    (pfns.foldl (addRegionPage reserved) s).pageFrames q = s.pageFrames q := by
  induction pfns generalizing s with
  | nil => rfl
  | cons pfn pfns ih =>
    rw [List.foldl_cons, ih fun mem => outside (List.mem_cons_of_mem _ mem),
      addRegionPage_pageFrames_of_ne _ fun same => outside (by rw [same]; exact List.mem_cons_self)]

theorem Wf.foldl_addRegionPage (hw : s.Wf) (pfns : List ℕ) :
    (pfns.foldl (PhysicalMemoryManager.addRegionPage reserved) s).Wf := by
  induction pfns generalizing s with
  | nil => exact hw
  | cons pfn pfns ih => exact ih (hw.addRegionPage reserved pfn)

theorem freeListPages_foldl_addRegionPage {pfns : List ℕ} (distinct : pfns.Nodup) :
    freeListPages (pfns.foldl (addRegionPage reserved) s) =
      freeListPages s + ↑(pfns.filter fun p => reserved = false ∧ (s.pageFrames p).flags &&& flagReserved = 0) := by
  induction pfns generalizing s with
  | nil => simp
  | cons pfn pfns ih =>
    obtain ⟨fresh, distinct⟩ := List.nodup_cons.mp distinct
    have later : (pfns.filter fun p => reserved = false ∧ ((addRegionPage reserved s pfn).pageFrames p).flags &&&
        flagReserved = 0) = pfns.filter fun p => reserved = false ∧ (s.pageFrames p).flags &&& flagReserved = 0 :=
      List.filter_congr fun p mem => by
        rw [addRegionPage_pageFrames_of_ne _ fun same => fresh (by rw [← same]; exact mem)]
    rw [List.foldl_cons, ih distinct, later, freeListPages_addRegionPage, List.filter_cons]
    split_ifs with adds adds' adds' <;> simp_all [add_assoc]

end Loop

end PhysicalMemoryManager

theorem pageSize_pos : 0 < pageSize := by unfold pageSize; omega

theorem regionPfns_nodup (total : ℕ) (r : MemoryRegion) : (regionPfns total r).Nodup := List.nodup_range'

theorem mem_regionPfns {total p : ℕ} {r : MemoryRegion} (mem : p ∈ regionPfns total r) :
    p < total ∧ r.base < (p + 1) * pageSize ∧ (p + 1) * pageSize ≤ r.base + r.size := by
  obtain ⟨low, high⟩ := List.mem_range'_1.mp mem
  have below : p < physToPfn ((r.base + r.size) % 2 ^ 64) := by omega
  have ends := (Nat.le_div_iff_mul_le pageSize_pos).mp below
  exact ⟨by omega, (Nat.div_lt_iff_lt_mul pageSize_pos).mp (Nat.lt_succ_of_le low),
    ends.trans (Nat.mod_le _ _)⟩

theorem regionPfns_disjoint {r r' : MemoryRegion} (apart : r.extent.Disjoint r'.extent) (total : ℕ) :
    (regionPfns total r).Disjoint (regionPfns total r') := by
  intro p mem mem'
  obtain ⟨-, starts, ends⟩ := mem_regionPfns mem
  obtain ⟨-, starts', ends'⟩ := mem_regionPfns mem'
  exact apart (max r.base r'.base) ⟨le_max_left _ _, by simp [MemoryRegion.extent]; omega⟩
    ⟨le_max_right _ _, by simp [MemoryRegion.extent]; omega⟩

namespace PhysicalMemoryManager

variable {s : PhysicalMemoryManager}

@[simp] theorem addMemoryRegion_totalPageFrames (r : MemoryRegion) :
    (s.addMemoryRegion r.base r.size r.reserved).totalPageFrames = s.totalPageFrames := by
  rw [addMemoryRegion_eq, foldl_addRegionPage_totalPageFrames]

theorem freeListPages_foldl_addMemoryRegion (flags : ℕ → UInt32) :
    ∀ (regions : List MemoryRegion) (s : PhysicalMemoryManager),
      regions.Pairwise (fun r r' => (regionPfns s.totalPageFrames r).Disjoint (regionPfns s.totalPageFrames r')) →
      (∀ r ∈ regions, ∀ p ∈ regionPfns s.totalPageFrames r, (s.pageFrames p).flags = flags p) →
      freeListPages (regions.foldl (fun s r => s.addMemoryRegion r.base r.size r.reserved) s) =
        freeListPages s + ↑(regions.flatMap fun r => (regionPfns s.totalPageFrames r).filter fun p =>
          r.reserved = false ∧ flags p &&& flagReserved = 0)
  | [], _, _, _ => by simp
  | r :: rest, s, apart, start => by
    obtain ⟨first, apart⟩ := List.pairwise_cons.mp apart
    have total := addMemoryRegion_totalPageFrames (s := s) r
    have later : ∀ r' ∈ rest, ∀ p ∈ regionPfns (s.addMemoryRegion r.base r.size r.reserved).totalPageFrames r',
        ((s.addMemoryRegion r.base r.size r.reserved).pageFrames p).flags = flags p := by
      intro r' mem' p inLater
      rw [total] at inLater
      rw [addMemoryRegion_eq, foldl_addRegionPage_pageFrames _ fun inFirst => first r' mem' inFirst inLater]
      exact start r' (List.mem_cons_of_mem _ mem') p inLater
    have here : (regionPfns s.totalPageFrames r).filter (fun p =>
        r.reserved = false ∧ (s.pageFrames p).flags &&& flagReserved = 0) =
        (regionPfns s.totalPageFrames r).filter fun p => r.reserved = false ∧ flags p &&& flagReserved = 0 :=
      List.filter_congr fun p mem => by rw [start r List.mem_cons_self p mem]
    rw [List.foldl_cons, freeListPages_foldl_addMemoryRegion flags rest _ (total ▸ apart) later, total,
      addMemoryRegion_eq, freeListPages_foldl_addRegionPage _ (regionPfns_nodup _ r), here, List.flatMap_cons,
      ← Multiset.coe_add, add_assoc]

theorem Wf.foldl_addMemoryRegion (hw : s.Wf) (regions : List MemoryRegion) :
    (regions.foldl (fun s r => s.addMemoryRegion r.base r.size r.reserved) s).Wf := by
  induction regions generalizing s with
  | nil => exact hw
  | cons r rest ih => exact ih (hw.foldl_addRegionPage r.reserved _)

theorem foldl_addMemoryRegion_totalPageFrames (regions : List MemoryRegion) :
    (regions.foldl (fun s r => s.addMemoryRegion r.base r.size r.reserved) s).totalPageFrames = s.totalPageFrames := by
  induction regions generalizing s with
  | nil => rfl
  | cons r rest ih => rw [List.foldl_cons, ih, addMemoryRegion_totalPageFrames]

end PhysicalMemoryManager

open PhysicalMemoryManager in
theorem setup_spec {totalMemory kernelStart kernelEnd : ℕ} {regions : List MemoryRegion}
    {s₀ : PhysicalMemoryManager} (set : setup totalMemory kernelStart kernelEnd regions = .ok s₀)
    (apart : regions.Pairwise fun r r' => r.extent.Disjoint r'.extent) :
    s₀.Wf ∧ (freeListPages s₀).Nodup ∧ ∀ p ∈ freeListPages s₀, 0 < p ∧ p < s₀.totalPageFrames ∧
      ¬ (physToPfn kernelStart ≤ p ∧ p < physToPfn kernelEnd) ∧
      ∃ r ∈ regions, r.reserved = false ∧ p ∈ regionPfns s₀.totalPageFrames r := by
  simp only [setup, PhysicalMemoryManager.init] at set
  split at set
  · cases set
  simp only [Except.map, Except.ok.injEq] at set
  subst set
  set s : PhysicalMemoryManager := ⟨totalMemory / pageSize, fun pfn =>
      if pfn = 0 ∨ (physToPfn kernelStart ≤ pfn ∧ pfn < physToPfn kernelEnd ∧ pfn < totalMemory / pageSize) then
        ⟨flagReserved, 0⟩
      else ⟨flagFree, 0⟩, fun _ => ⟨[], 0⟩⟩ with init
  have total := foldl_addMemoryRegion_totalPageFrames (s := s) regions
  have empty : freeListPages s = 0 := by simp [freeListPages, listPages, init]
  have pages := freeListPages_foldl_addMemoryRegion (fun p => (s.pageFrames p).flags) regions s
    (apart.imp fun d => regionPfns_disjoint d _) fun _ _ _ _ => rfl
  rw [empty, zero_add, ← total] at pages
  refine ⟨Wf.foldl_addMemoryRegion ⟨fun _ => rfl, fun _ _ mem => absurd mem List.not_mem_nil⟩ regions, ?_, ?_⟩
  · rw [pages, Multiset.coe_nodup]
    exact List.nodup_flatMap.mpr ⟨fun r _ => (regionPfns_nodup _ r).filter _,
      (apart.imp fun d => regionPfns_disjoint d _).imp fun d _ here there =>
        d (List.mem_of_mem_filter here) (List.mem_of_mem_filter there)⟩
  · intro p mem
    rw [pages, Multiset.mem_coe, List.mem_flatMap] at mem
    obtain ⟨r, mem, kept⟩ := mem
    obtain ⟨inLoop, free, unreserved⟩ : p ∈ regionPfns _ r ∧ r.reserved = false ∧
        (s.pageFrames p).flags &&& flagReserved = 0 := by simpa using kept
    have below := (mem_regionPfns inLoop).1
    have inTotal : p < totalMemory / pageSize := by rw [total] at below; exact below
    have notReserved : ¬ (p = 0 ∨ (physToPfn kernelStart ≤ p ∧ p < physToPfn kernelEnd ∧
        p < totalMemory / pageSize)) := by
      intro reserved
      rw [init] at unreserved
      dsimp only at unreserved
      rw [if_pos reserved] at unreserved
      exact absurd unreserved (by decide)
    exact ⟨by omega, below, fun kernel => notReserved (.inr ⟨kernel.1, kernel.2, inTotal⟩), r, mem, free, inLoop⟩

/-! ### Frames in bytes -/

open PhysicalMemoryManager

theorem contains_pageExtent {p x : ℕ} : (pageExtent p).Contains x ↔ physToPfn x = p := by
  have := pageSize_pos
  rw [physToPfn, Nat.div_eq_iff pageSize_pos]
  simp only [pageExtent, Extent.Contains, Extent.stop_mk, pfnToPhys]
  omega

theorem aligned_le_of_lt {base p : ℕ} (aligned : base % pageSize = 0) (lt : base < (p + 1) * pageSize) :
    base ≤ p * pageSize := by
  have below : base / pageSize ≤ p := Nat.lt_succ_iff.mp ((Nat.div_lt_iff_lt_mul pageSize_pos).mpr lt)
  calc base = base / pageSize * pageSize := (Nat.div_mul_cancel (Nat.dvd_of_mod_eq_zero aligned)).symm
    _ ≤ p * pageSize := Nat.mul_le_mul_right _ below

theorem pageExtent_inside {total p : ℕ} {r : MemoryRegion} (aligned : r.base % pageSize = 0)
    (mem : p ∈ regionPfns total r) : ∀ x, (pageExtent p).Contains x → r.extent.Contains x := by
  obtain ⟨-, starts, ends⟩ := mem_regionPfns mem
  have first := aligned_le_of_lt aligned starts
  rw [add_one_mul] at ends
  intro x inPage
  simp only [pageExtent, pfnToPhys, MemoryRegion.extent, Extent.Contains, Extent.stop_mk] at inPage ⊢
  omega

theorem pageExtent_clear_of_kernel {kernelStart kernelEnd p : ℕ} (aligned : kernelEnd % pageSize = 0)
    (outside : ¬ (physToPfn kernelStart ≤ p ∧ p < physToPfn kernelEnd)) :
    (pageExtent p).Disjoint ⟨kernelStart, kernelEnd - kernelStart⟩ := by
  intro x inPage inKernel
  rw [contains_pageExtent] at inPage
  subst inPage
  obtain ⟨lo, hi⟩ : kernelStart ≤ x ∧ x < kernelStart + (kernelEnd - kernelStart) := inKernel
  exact outside ⟨Nat.div_le_div_right lo,
    Nat.div_lt_div_of_lt_of_dvd (Nat.dvd_of_mod_eq_zero aligned) (by omega)⟩

theorem MemoryRegion.disjoint_of_pairwise {regions : List MemoryRegion}
    (apart : regions.Pairwise fun r r' => r.extent.Disjoint r'.extent) {r r' : MemoryRegion}
    (mem : r ∈ regions) (mem' : r' ∈ regions) (ne : r ≠ r') : r.extent.Disjoint r'.extent := by
  have : Std.Symm fun r r' : MemoryRegion => r.extent.Disjoint r'.extent := ⟨fun _ _ d => d.symm⟩
  exact apart.forall mem mem' ne

/-- What a caller may be handed: not frame 0, its bytes inside a range given
as free, clear of the kernel's bytes and of every reserved range. -/
structure FreePage (kernelStart kernelEnd : ℕ) (regions : List MemoryRegion) (p : ℕ) : Prop where
  ne_zero : p ≠ 0
  inFree : ∃ r ∈ regions, r.reserved = false ∧ ∀ x, (pageExtent p).Contains x → r.extent.Contains x
  clearOfKernel : (pageExtent p).Disjoint ⟨kernelStart, kernelEnd - kernelStart⟩
  clearOfReserved : ∀ r ∈ regions, r.reserved = true → (pageExtent p).Disjoint r.extent

theorem setup_freePage {totalMemory kernelStart kernelEnd : ℕ} {regions : List MemoryRegion}
    {s₀ : PhysicalMemoryManager} (set : setup totalMemory kernelStart kernelEnd regions = .ok s₀)
    (apart : regions.Pairwise fun r r' => r.extent.Disjoint r'.extent)
    (kernelAligned : kernelEnd % pageSize = 0)
    (basesAligned : ∀ r ∈ regions, r.reserved = false → r.base % pageSize = 0) :
    ∀ p ∈ freeListPages s₀, FreePage kernelStart kernelEnd regions p := by
  intro p mem
  obtain ⟨pos, -, notKernel, r, inList, free, visited⟩ := (setup_spec set apart).2.2 p mem
  have inside := pageExtent_inside (basesAligned r inList free) visited
  refine ⟨by omega, ⟨r, inList, free, inside⟩, pageExtent_clear_of_kernel kernelAligned notKernel, ?_⟩
  intro r' inList' reserved
  have ne : r ≠ r' := fun same => by rw [same, reserved] at free; exact absurd free (by decide)
  exact (MemoryRegion.disjoint_of_pairwise apart inList inList' ne).mono_left inside

/-! ### The callers' allocations -/

/-- A call the kernel makes: `alloc_pages(count, zone)`, or `free_pages` of
its `i`-th outstanding allocation, at the address and count it was made with. -/
inductive PmmOp
  | allocPages (count : ℕ) (zone : MemoryZone)
  | freePages (i : ℕ)

/-- The manager and the allocations its callers hold, newest first, each as
the address `alloc_pages` returned and the count it was asked for. -/
structure Client where
  pmm : PhysicalMemoryManager
  held : List (ℕ × ℕ)

namespace Client

def step (c : Client) : PmmOp → Except Fault Client
  | .allocPages count zone => (c.pmm.allocPages count zone).map fun r =>
      ⟨r.1, if r.2 = 0 then c.held else (r.2, count) :: c.held⟩
  | .freePages i =>
    match c.held[i]? with
    | none => .ok c
    | some a => .ok ⟨c.pmm.freePages a.1 a.2, c.held.eraseIdx i⟩

def run (c : Client) : List PmmOp → Except Fault Client
  | [] => .ok c
  | op :: ops => (c.step op).bind fun c' => c'.run ops

/-- The calls of `ops` return in turn and leave `c'`, or they return up to an
`alloc_pages` call that never returns, made from `c'`. -/
def Reaches (c : Client) (ops : List PmmOp) (c' : Client) : Prop :=
  c.run ops = .ok c' ∨ ∃ pre count zone post, ops = pre ++ .allocPages count zone :: post ∧
    c.run pre = .ok c' ∧ c'.pmm.allocPages count zone = .error .deadlock

end Client

/-- The frames of the outstanding allocations, each the block of
`2 ^ get_order(count)` pages `alloc_pages` took for it. -/
def heldPages (held : List (ℕ × ℕ)) : Multiset ℕ := (held.map fun a => blockPages a.1 (getOrder a.2)).sum

theorem heldPages_cons (a : ℕ × ℕ) (held : List (ℕ × ℕ)) :
    heldPages (a :: held) = blockPages a.1 (getOrder a.2) + heldPages held := by
  simp [heldPages]

theorem blockPages_le_heldPages {held : List (ℕ × ℕ)} {a : ℕ × ℕ} (mem : a ∈ held) :
    blockPages a.1 (getOrder a.2) ≤ heldPages held :=
  List.le_sum_of_mem (List.mem_map_of_mem mem)

theorem pairwise_disjoint_of_heldPages_nodup {held : List (ℕ × ℕ)} (nodup : (heldPages held).Nodup) :
    held.Pairwise fun a b => Disjoint (blockPages a.1 (getOrder a.2)) (blockPages b.1 (getOrder b.2)) := by
  induction held with
  | nil => exact .nil
  | cons a held ih =>
    rw [heldPages_cons, Multiset.nodup_add] at nodup
    obtain ⟨-, rest, apart⟩ := nodup
    exact .cons (fun b mem => Disjoint.mono_right (blockPages_le_heldPages mem) apart) (ih rest)

theorem heldPages_perm {held held' : List (ℕ × ℕ)} (perm : held.Perm held') : heldPages held = heldPages held' :=
  (perm.map _).sum_eq

theorem heldPages_eraseIdx {held : List (ℕ × ℕ)} {i : ℕ} {a : ℕ × ℕ} (at_i : held[i]? = some a) :
    heldPages (held.eraseIdx i) + blockPages a.1 (getOrder a.2) = heldPages held := by
  obtain ⟨bound, rfl⟩ := List.getElem?_eq_some_iff.mp at_i
  rw [add_comm, ← heldPages_cons, heldPages_perm (List.getElem_cons_eraseIdx_perm bound)]

/-- The run invariant: the frames that were on the free lists at the start,
`F`, are each on a free list or in an outstanding allocation, once as often
as at the start. -/
structure Conserves (F : Multiset ℕ) (c : Client) : Prop where
  wf : c.pmm.Wf
  heldAligned : ∀ a ∈ c.held, a.1 % pageSize = 0
  heldCount : ∀ a ∈ c.held, a.2 ≠ 0
  pages : freeListPages c.pmm + heldPages c.held = F
  inFrames : ∀ p ∈ F, 0 < p ∧ p < c.pmm.totalPageFrames

namespace Conserves

variable {F : Multiset ℕ} {c : Client}

theorem free_pos (h : Conserves F c) : ∀ p ∈ freeListPages c.pmm, 0 < p := fun p mem =>
  (h.inFrames p (h.pages ▸ Multiset.mem_add.mpr (.inl mem))).1

theorem allocPages (h : Conserves F c) (count : ℕ) (zone : MemoryZone) :
    (∃ c', c.step (.allocPages count zone) = .ok c' ∧ Conserves F c') ∨
      c.pmm.allocPages count zone = .error .deadlock := by
  by_cases zero : count = 0
  · exact .inl ⟨⟨c.pmm, c.held⟩, by simp [Client.step, PhysicalMemoryManager.allocPages, zero, Except.map], h⟩
  rcases buddyAlloc_spec h.wf h.free_pos (getOrder count) zone with ⟨⟨s', addr⟩, ok, result⟩ | hang
  · have call : c.pmm.allocPages count zone = .ok (s', addr) := by rw [allocPages_eq zero, ok]
    refine .inl ?_
    rcases result with ⟨rfl, rfl⟩ | ⟨named, took⟩
    · exact ⟨⟨c.pmm, c.held⟩, by simp [Client.step, call, Except.map], h⟩
    · refine ⟨⟨s', (addr, count) :: c.held⟩, by simp [Client.step, call, Except.map, named], ?_⟩
      refine ⟨took.wf, ?_, ?_, ?_, ?_⟩
      · intro a mem
        rcases List.mem_cons.mp mem with rfl | old
        · exact took.aligned
        · exact h.heldAligned a old
      · intro a mem
        rcases List.mem_cons.mp mem with rfl | old
        · exact zero
        · exact h.heldCount a old
      · rw [heldPages_cons, ← add_assoc, took.pages, h.pages]
      · intro p mem
        rw [took.total]
        exact h.inFrames p mem
  · exact .inr (by rw [allocPages_eq zero, hang])

theorem freePages (h : Conserves F c) (i : ℕ) :
    ∃ c', c.step (.freePages i) = .ok c' ∧ Conserves F c' := by
  cases at_i : c.held[i]? with
  | none => exact ⟨c, by simp [Client.step, at_i], h⟩
  | some a =>
    refine ⟨⟨c.pmm.freePages a.1 a.2, c.held.eraseIdx i⟩, by simp [Client.step, at_i], ?_⟩
    have mem : a ∈ c.held := List.mem_of_getElem? at_i
    have first : physToPfn a.1 ∈ F := by
      rw [← h.pages, ← heldPages_eraseIdx at_i]
      exact Multiset.mem_add.mpr (.inr (Multiset.mem_add.mpr (.inr (pfn_mem_blockPages _ _))))
    have named : a.1 ≠ 0 := fun zero => by simpa [zero, physToPfn] using (h.inFrames _ first).1
    have call := freePages_eq (s := c.pmm) (h.heldCount a mem) a.1
    rw [buddyFree_eq named (h.inFrames _ first).2] at call
    refine ⟨?_, fun b mem' => h.heldAligned b (List.mem_of_mem_eraseIdx mem'),
      fun b mem' => h.heldCount b (List.mem_of_mem_eraseIdx mem'), ?_, ?_⟩
    · rw [call]
      exact (h.wf.congr (setFrames_freeArea _ _ _ _)).addToFreeList (h.heldAligned a mem) _ _
    · rw [call, freeListPages_addToFreeList _ (getOrder_lt _), freeListPages_congr (setFrames_freeArea _ _ _ _),
        add_assoc, add_comm (blockPages _ _), heldPages_eraseIdx at_i, h.pages]
    · intro p mem'
      rw [call, addToFreeList_totalPageFrames, setFrames_totalPageFrames]
      exact h.inFrames p mem'

theorem step (h : Conserves F c) :
    ∀ op, (∃ c', c.step op = .ok c' ∧ Conserves F c') ∨
      ∃ count zone, op = .allocPages count zone ∧ c.pmm.allocPages count zone = .error .deadlock
  | .allocPages count zone => (h.allocPages count zone).imp_right fun hang => ⟨count, zone, rfl, hang⟩
  | .freePages i => .inl (h.freePages i)

theorem run (h : Conserves F c) (ops : List PmmOp) : ∃ c', c.Reaches ops c' ∧ Conserves F c' := by
  induction ops generalizing c with
  | nil => exact ⟨c, .inl rfl, h⟩
  | cons op ops ih =>
    rcases h.step op with ⟨c₁, first, h₁⟩ | ⟨count, zone, rfl, hang⟩
    · obtain ⟨c', reach, h'⟩ := ih h₁
      refine ⟨c', ?_, h'⟩
      rcases reach with done | ⟨pre, count, zone, post, split, ran, hang⟩
      · exact .inl (by rw [Client.run, first]; exact done)
      · exact .inr ⟨op :: pre, count, zone, post, by rw [split]; rfl, by rw [Client.run, first]; exact ran, hang⟩
    · exact ⟨c, .inr ⟨[], count, zone, ops, rfl, rfl, hang⟩, h⟩

end Conserves

theorem setup_conserves {totalMemory kernelStart kernelEnd : ℕ} {regions : List MemoryRegion}
    {s₀ : PhysicalMemoryManager} (set : setup totalMemory kernelStart kernelEnd regions = .ok s₀)
    (apart : regions.Pairwise fun r r' => r.extent.Disjoint r'.extent) :
    Conserves (freeListPages s₀) ⟨s₀, []⟩ := by
  obtain ⟨wf, -, frames⟩ := setup_spec set apart
  exact ⟨wf, by simp, by simp, by simp [heldPages], fun p mem => ⟨(frames p mem).1, (frames p mem).2.1⟩⟩

/-- From `initialize` and `add_memory_region` over disjoint ranges, with the
kernel's end and the free ranges' bases page aligned, every run of calls, up
to its end or to the `alloc_pages` call that hangs, keeps the outstanding
allocations apart, each inside frames a free range gave, and apart from the
free lists. -/
theorem allocations_stay_in_free_pages {totalMemory kernelStart kernelEnd : ℕ} {regions : List MemoryRegion}
    {s₀ : PhysicalMemoryManager} (set : setup totalMemory kernelStart kernelEnd regions = .ok s₀)
    (apart : regions.Pairwise fun r r' => r.extent.Disjoint r'.extent)
    (kernelAligned : kernelEnd % pageSize = 0)
    (basesAligned : ∀ r ∈ regions, r.reserved = false → r.base % pageSize = 0) (ops : List PmmOp) :
    ∃ c, Client.Reaches ⟨s₀, []⟩ ops c ∧
      (c.held.Pairwise fun a b => Disjoint (blockPages a.1 (getOrder a.2)) (blockPages b.1 (getOrder b.2))) ∧
      (∀ a ∈ c.held, ∀ p ∈ blockPages a.1 (getOrder a.2),
        p ∈ freeListPages s₀ ∧ FreePage kernelStart kernelEnd regions p) ∧
      Disjoint (freeListPages c.pmm) (heldPages c.held) := by
  obtain ⟨-, distinct, -⟩ := setup_spec set apart
  obtain ⟨c, ran, h⟩ := (setup_conserves set apart).run ops
  rw [← h.pages, Multiset.nodup_add] at distinct
  obtain ⟨-, heldDistinct, freeApart⟩ := distinct
  refine ⟨c, ran, pairwise_disjoint_of_heldPages_nodup heldDistinct, fun a mem p inBlock => ?_, freeApart⟩
  have given : p ∈ freeListPages s₀ := by
    rw [← h.pages]
    exact Multiset.mem_add.mpr (.inr (Multiset.mem_of_le (blockPages_le_heldPages mem) inBlock))
  exact ⟨given, setup_freePage set apart kernelAligned basesAligned p given⟩

theorem allocations_stay_in_free_pages_one_range :
    ∃ s₀, setup 0x4000 0x1000 0x2000 [⟨0x2000, 0x2000, false⟩] = .ok s₀ ∧
      ∃ c, Client.Reaches ⟨s₀, []⟩ [.allocPages 1 .dma, .allocPages 1 .normal, .freePages 1] c ∧
        (c.held.Pairwise fun a b => Disjoint (blockPages a.1 (getOrder a.2)) (blockPages b.1 (getOrder b.2))) ∧
        (∀ a ∈ c.held, ∀ p ∈ blockPages a.1 (getOrder a.2),
          p ∈ freeListPages s₀ ∧ FreePage 0x1000 0x2000 [⟨0x2000, 0x2000, false⟩] p) ∧
        Disjoint (freeListPages c.pmm) (heldPages c.held) :=
  ⟨_, rfl, @allocations_stay_in_free_pages 0x4000 _ _ _ _ rfl (by simp) (by simp [pageSize]) (by simp [pageSize]) _⟩

/-- Without the alignment the invariant fails twice over. A kernel ending inside
frame 1 leaves that frame off `initialize`'s reservation, and a free range
over it hands it out; a reserved range ending inside frame 1 reserves no frame,
and a free range from its end hands frame 1 out. -/
theorem unaligned_ends_hand_out_kernel_and_reserved_bytes :
    (∃ s₀, setup 0x2000 0x1000 0x1800 [⟨0x1000, 0x1000, false⟩] = .ok s₀ ∧
      (Client.run ⟨s₀, []⟩ [.allocPages 1 .dma]).map Client.held = .ok [(0x1000, 1)] ∧
      1 ∈ blockPages 0x1000 (getOrder 1) ∧ ¬ (pageExtent 1).Disjoint ⟨0x1000, 0x1800 - 0x1000⟩) ∧
    (∃ s₀, setup 0x2000 0 0 [⟨0x1000, 0x800, true⟩, ⟨0x1800, 0x800, false⟩] = .ok s₀ ∧
      [(⟨0x1000, 0x800, true⟩ : MemoryRegion), ⟨0x1800, 0x800, false⟩].Pairwise
        (fun r r' => r.extent.Disjoint r'.extent) ∧
      (Client.run ⟨s₀, []⟩ [.allocPages 1 .dma]).map Client.held = .ok [(0x1000, 1)] ∧
      1 ∈ blockPages 0x1000 (getOrder 1) ∧ ¬ (pageExtent 1).Disjoint (MemoryRegion.extent ⟨0x1000, 0x800, true⟩)) := by
  have inFrame : (pageExtent 1).Contains 0x1000 := contains_pageExtent.mpr rfl
  have block : 1 ∈ blockPages 0x1000 (getOrder 1) := pfn_mem_blockPages 0x1000 (getOrder 1)
  refine ⟨⟨_, rfl, by decide +kernel, block, fun apart => apart 0x1000 inFrame (by decide)⟩,
    ⟨_, rfl, ?_, by decide +kernel, block, fun apart => apart 0x1000 inFrame (by decide)⟩⟩
  rw [List.pairwise_pair]
  intro x ⟨_, hi⟩ ⟨lo, _⟩
  simp only [MemoryRegion.extent, Extent.stop_mk] at hi lo
  omega

/-! ### Only single frames on the free lists

`add_memory_region` puts single frames on the lists of order 0 and
`buddy_free` never coalesces, so no list above order 0 ever holds a block and
every request for more than one page fails. -/

namespace PhysicalMemoryManager

def OrderZero (s : PhysicalMemoryManager) : Prop :=
  ∀ i : MemoryZone × Fin maxOrder, i.2.val ≠ 0 → (s.freeArea i).freeList = []

variable {s : PhysicalMemoryManager}

theorem OrderZero.congr {s' : PhysicalMemoryManager} (flat : s.OrderZero)
    (same : ∀ i : MemoryZone × Fin maxOrder, i.2.val ≠ 0 → s'.freeArea i = s.freeArea i) : s'.OrderZero :=
  fun i above => by rw [same i above]; exact flat i above

theorem OrderZero.setFreeArea (flat : s.OrderZero) (zone : MemoryZone) (fa : FreeArea) :
    (s.setFreeArea (zone, ⟨0, by decide⟩) fa).OrderZero := by
  refine flat.congr fun i above => ?_
  rw [setFreeArea_freeArea, Function.update_of_ne]
  rintro rfl
  exact above rfl

theorem OrderZero.popBack (flat : s.OrderZero) (zone : MemoryZone) :
    (s.popBack (zone, ⟨0, by decide⟩)).OrderZero :=
  flat.setFreeArea zone _

theorem OrderZero.addToFreeList (flat : s.OrderZero) (physAddr : ℕ) (zone : MemoryZone) :
    (s.addToFreeList physAddr 0 zone).OrderZero := by
  unfold PhysicalMemoryManager.addToFreeList
  rw [dif_pos (by decide)]
  dsimp only
  exact (flat.setFreeArea zone _).congr fun i _ => by rw [setOrder_freeArea]

theorem OrderZero.addRegionPage (flat : s.OrderZero) (reserved : Bool) (pfn : ℕ) :
    (PhysicalMemoryManager.addRegionPage reserved s pfn).OrderZero := by
  unfold PhysicalMemoryManager.addRegionPage
  split_ifs
  · exact flat
  · exact flat
  · dsimp only
    apply OrderZero.addToFreeList
    exact flat

theorem OrderZero.foldl_addRegionPage (flat : s.OrderZero) (reserved : Bool) (pfns : List ℕ) :
    (pfns.foldl (PhysicalMemoryManager.addRegionPage reserved) s).OrderZero := by
  induction pfns generalizing s with
  | nil => exact flat
  | cons pfn pfns ih => exact ih (flat.addRegionPage reserved pfn)

theorem OrderZero.foldl_addMemoryRegion (flat : s.OrderZero) (regions : List MemoryRegion) :
    (regions.foldl (fun s r => s.addMemoryRegion r.base r.size r.reserved) s).OrderZero := by
  induction regions generalizing s with
  | nil => exact flat
  | cons r rest ih =>
    refine ih ?_
    show (s.addMemoryRegion r.base r.size r.reserved).OrderZero
    rw [addMemoryRegion_eq]
    exact flat.foldl_addRegionPage r.reserved _

theorem allocIn_of_orderZero (hw : s.Wf) (flat : s.OrderZero) {order : ℕ} (above : 0 < order)
    (zone : MemoryZone) : s.allocIn order zone = none := by
  unfold allocIn
  rw [List.find?_eq_none.mpr, Option.map_none]
  intro k _ chosen
  simp only [decide_eq_true_eq] at chosen
  obtain ⟨low, positive⟩ := chosen
  rw [hw.counted, flat (zone, k) (by dsimp only; omega)] at positive
  exact absurd positive (Nat.lt_irrefl 0)

theorem buddyAlloc_of_orderZero (hw : s.Wf) (flat : s.OrderZero) {order : ℕ} (above : 0 < order)
    (zone : MemoryZone) :
    (zone = .dma → s.buddyAlloc order zone = .ok (s, 0)) ∧
      (zone ≠ .dma → s.buddyAlloc order zone = .error .deadlock) := by
  rw [buddyAlloc_of_none (allocIn_of_orderZero hw flat above zone)]
  exact ⟨fun isDma => if_pos isDma, fun other => if_neg other⟩

theorem allocIn_zero (hw : s.Wf) (flat : s.OrderZero) (zone : MemoryZone) :
    s.allocIn 0 zone = none ∨ ∃ addr, (s.freeArea (zone, ⟨0, by decide⟩)).freeList.getLast? = some addr ∧
      s.allocIn 0 zone =
        some (.ok ((s.popBack (zone, ⟨0, by decide⟩)).setFrames (physToPfn addr) 1 ⟨flagAllocated, 0⟩, addr)) := by
  by_cases positive : 0 < (s.freeArea (zone, ⟨0, by decide⟩)).nrFree
  · have found : (List.finRange maxOrder).find? (fun k => decide (0 ≤ k.val ∧ 0 < (s.freeArea (zone, k)).nrFree)) =
        some ⟨0, by decide⟩ := by
      have first : List.finRange maxOrder = (⟨0, by decide⟩ : Fin maxOrder) :: (List.finRange 10).map Fin.succ :=
        List.finRange_succ
      rw [first, List.find?_cons_of_pos]
      simpa using positive
    rw [hw.counted] at positive
    have last := List.getLast?_eq_some_getLast (List.ne_nil_of_length_pos positive)
    refine .inr ⟨_, last, ?_⟩
    simp only [allocIn, found, Option.map_some, last]
    rfl
  · refine .inl ?_
    unfold allocIn
    rw [List.find?_eq_none.mpr, Option.map_none]
    intro k _ chosen
    simp only [decide_eq_true_eq] at chosen
    by_cases bottom : k.val = 0
    · have same : k = ⟨0, by decide⟩ := Fin.ext bottom
      rw [same] at chosen
      exact positive chosen.2
    · have empty := flat (zone, k) bottom
      rw [hw.counted, empty] at chosen
      exact absurd chosen.2 (Nat.lt_irrefl 0)

def SingleResult (r : PhysicalMemoryManager × ℕ) : Prop := r.1.Wf ∧ r.1.OrderZero ∧ r.2 % pageSize = 0

theorem allocIn_zero_result (hw : s.Wf) (flat : s.OrderZero) {zone : MemoryZone} {r : PhysicalMemoryManager × ℕ}
    (ok : s.allocIn 0 zone = some (.ok r)) : SingleResult r := by
  rcases allocIn_zero hw flat zone with none | ⟨addr, last, some⟩
  · rw [none] at ok
    cases ok
  · rw [some, Option.some.injEq, Except.ok.injEq] at ok
    subst ok
    exact ⟨(hw.popBack _).congr (setFrames_freeArea _ _ _ _),
      (flat.popBack zone).congr fun i _ => by rw [setFrames_freeArea],
      hw.aligned _ addr (List.mem_of_getLast? last)⟩

theorem buddyAlloc_zero_result (hw : s.Wf) (flat : s.OrderZero) (zone : MemoryZone) :
    ∀ r, s.buddyAlloc 0 zone = .ok r → SingleResult r := by
  intro r ok
  cases found : s.allocIn 0 zone with
  | some x =>
    rw [buddyAlloc_of_some found] at ok
    subst ok
    exact allocIn_zero_result hw flat found
  | none =>
    rw [buddyAlloc_of_none found] at ok
    split_ifs at ok
    cases ok
    exact ⟨hw, flat, Nat.zero_mod _⟩

theorem Wf.buddyFree (hw : s.Wf) {physAddr : ℕ} (aligned : physAddr % pageSize = 0) (order : ℕ) :
    (s.buddyFree physAddr order).Wf := by
  by_cases named : physAddr = 0
  · simpa [PhysicalMemoryManager.buddyFree, named] using hw
  by_cases inFrames : physToPfn physAddr < s.totalPageFrames
  · rw [buddyFree_eq named inFrames]
    exact (hw.congr (setFrames_freeArea _ _ _ _)).addToFreeList aligned _ _
  · simpa [PhysicalMemoryManager.buddyFree, named, Nat.not_lt.mp inFrames] using hw

theorem OrderZero.buddyFree (flat : s.OrderZero) (physAddr : ℕ) : (s.buddyFree physAddr 0).OrderZero := by
  by_cases named : physAddr = 0
  · simpa [PhysicalMemoryManager.buddyFree, named] using flat
  by_cases inFrames : physToPfn physAddr < s.totalPageFrames
  · rw [buddyFree_eq named inFrames]
    apply OrderZero.addToFreeList
    exact flat
  · simpa [PhysicalMemoryManager.buddyFree, named, Nat.not_lt.mp inFrames] using flat

theorem le_getOrderLoop (pages : ℕ) : ∀ fuel size order, order ≤ getOrderLoop pages fuel size order
  | 0, _, _ => le_rfl
  | fuel + 1, size, order => by
    unfold getOrderLoop
    split
    · exact Nat.le_of_succ_le (le_getOrderLoop pages fuel _ (order + 1))
    · exact le_rfl

theorem getOrder_pos {count : ℕ} (two : 2 ≤ count) : 0 < getOrder count := by
  have step : getOrderLoop count maxOrder 1 0 = getOrderLoop count 10 (1 <<< 1) 1 := by
    rw [show maxOrder = 10 + 1 from rfl, getOrderLoop, if_pos ⟨by omega, by decide⟩]
  rw [getOrder, if_neg (by omega), step]
  exact le_getOrderLoop count 10 _ 1

theorem allocPages_result (hw : s.Wf) (flat : s.OrderZero) (count : ℕ) (zone : MemoryZone) :
    ∀ r, s.allocPages count zone = .ok r → SingleResult r ∧ (r.2 ≠ 0 → count = 1) := by
  intro r ok
  by_cases zero : count = 0
  · simp only [allocPages, zero, if_true, Except.ok.injEq] at ok
    subst ok
    exact ⟨⟨hw, flat, Nat.zero_mod _⟩, fun named => absurd rfl named⟩
  by_cases one : count = 1
  · subst one
    exact ⟨buddyAlloc_zero_result hw flat zone r ok, fun _ => rfl⟩
  · rw [allocPages_eq zero] at ok
    obtain ⟨dma, other⟩ := buddyAlloc_of_orderZero hw flat (getOrder_pos (show 2 ≤ count by omega)) zone
    by_cases isDma : zone = .dma
    · rw [dma isDma, Except.ok.injEq] at ok
      subst ok
      exact ⟨⟨hw, flat, Nat.zero_mod _⟩, fun named => absurd rfl named⟩
    · rw [other isDma] at ok
      cases ok

end PhysicalMemoryManager

open PhysicalMemoryManager

/-- The callers' run invariant: nothing above order 0 on the free lists, and
every outstanding allocation one aligned frame asked for with count 1. -/
structure Client.Single (c : Client) : Prop where
  wf : c.pmm.Wf
  flat : c.pmm.OrderZero
  held : ∀ a ∈ c.held, a.1 % pageSize = 0 ∧ a.2 = 1

theorem Client.Single.step {c c' : Client} (h : c.Single) :
    ∀ op, c.step op = .ok c' → c'.Single
  | .allocPages count zone, stepped => by
    cases called : c.pmm.allocPages count zone with
    | error e =>
      simp [Client.step, called, Except.map] at stepped
    | ok r =>
      simp only [Client.step, called, Except.map, Except.ok.injEq] at stepped
      subst stepped
      obtain ⟨⟨wf, flat, aligned⟩, single⟩ := allocPages_result h.wf h.flat count zone r called
      refine ⟨wf, flat, fun a mem => ?_⟩
      split_ifs at mem with zero
      · exact h.held a mem
      · rcases List.mem_cons.mp mem with rfl | old
        · exact ⟨aligned, single zero⟩
        · exact h.held a old
  | .freePages i, stepped => by
    cases at_i : c.held[i]? with
    | none =>
      simp only [Client.step, at_i, Except.ok.injEq] at stepped
      exact stepped ▸ h
    | some a =>
      simp only [Client.step, at_i, Except.ok.injEq] at stepped
      subst stepped
      obtain ⟨aligned, one⟩ := h.held a (List.mem_of_getElem? at_i)
      have freed : c.pmm.freePages a.1 a.2 = c.pmm.buddyFree a.1 0 := by
        rw [one]
        rfl
      refine ⟨?_, ?_, fun b mem => h.held b (List.mem_of_mem_eraseIdx mem)⟩
      · rw [freed]
        exact h.wf.buddyFree aligned 0
      · rw [freed]
        exact h.flat.buddyFree a.1

theorem Client.Single.run {c : Client} (h : c.Single) (ops : List PmmOp) :
    ∀ {c'}, c.run ops = .ok c' → c'.Single := by
  induction ops generalizing c with
  | nil =>
    intro c' ran
    cases ran
    exact h
  | cons op ops ih =>
    intro c' ran
    cases first : c.step op with
    | error e =>
      simp [Client.run, first, Except.bind] at ran
    | ok c₁ =>
      rw [Client.run, first] at ran
      exact ih (h.step op first) ran

theorem Client.Single.reaches {c c' : Client} (h : c.Single) {ops : List PmmOp} (reach : c.Reaches ops c') :
    c'.Single := by
  rcases reach with done | ⟨pre, -, -, -, -, ran, -⟩
  · exact h.run ops done
  · exact h.run pre ran

theorem setup_single {totalMemory kernelStart kernelEnd : ℕ} {regions : List MemoryRegion}
    {s₀ : PhysicalMemoryManager} (set : setup totalMemory kernelStart kernelEnd regions = .ok s₀) :
    Client.Single ⟨s₀, []⟩ := by
  simp only [setup, PhysicalMemoryManager.init] at set
  split at set
  · cases set
  simp only [Except.map, Except.ok.injEq] at set
  subst set
  refine ⟨Wf.foldl_addMemoryRegion ⟨fun _ => rfl, fun _ _ mem => absurd mem List.not_mem_nil⟩ regions,
    OrderZero.foldl_addMemoryRegion (fun _ _ => rfl) regions, fun _ mem => absurd mem List.not_mem_nil⟩

/-- After `initialize` and `add_memory_region` over disjoint ranges, in every
state a run of the callers' calls reaches, no request for two pages or more is
met, whatever was freed before, as `buddy_free` never merges buddies: in `DMA`
it returns 0 and changes nothing, and in `NORMAL` or `HIGH` it never returns. -/
theorem multi_page_allocations_fail {totalMemory kernelStart kernelEnd : ℕ} {regions : List MemoryRegion}
    {s₀ : PhysicalMemoryManager} (set : setup totalMemory kernelStart kernelEnd regions = .ok s₀)
    (apart : regions.Pairwise fun r r' => r.extent.Disjoint r'.extent) (ops : List PmmOp) :
    ∃ c, Client.Reaches ⟨s₀, []⟩ ops c ∧ ∀ count, 2 ≤ count →
      c.pmm.allocPages count .dma = .ok (c.pmm, 0) ∧
        ∀ zone, zone ≠ .dma → c.pmm.allocPages count zone = .error .deadlock := by
  obtain ⟨c, reach, -⟩ := (setup_conserves set apart).run ops
  have single := (setup_single set).reaches reach
  refine ⟨c, reach, fun count two => ⟨?_, fun zone other => ?_⟩⟩
  · rw [allocPages_eq (by omega)]
    exact (buddyAlloc_of_orderZero single.wf single.flat (getOrder_pos two) .dma).1 rfl
  · rw [allocPages_eq (by omega)]
    exact (buddyAlloc_of_orderZero single.wf single.flat (getOrder_pos two) zone).2 other

theorem multi_page_allocations_fail_one_range :
    ∃ s₀, setup 0x4000 0x1000 0x2000 [⟨0x2000, 0x2000, false⟩] = .ok s₀ ∧
      ∃ c, Client.Reaches ⟨s₀, []⟩ [.allocPages 1 .dma] c ∧ ∀ count, 2 ≤ count →
        c.pmm.allocPages count .dma = .ok (c.pmm, 0) ∧
          ∀ zone, zone ≠ .dma → c.pmm.allocPages count zone = .error .deadlock :=
  ⟨_, rfl, @multi_page_allocations_fail 0x4000 _ _ _ _ rfl (by simp) _⟩

def buddiesFreed : Except Fault Client :=
  (setup 0x10000 0x1000 0x2000 [⟨0x2000, 0x2000, false⟩]).bind fun s₀ =>
    Client.run ⟨s₀, []⟩ [.allocPages 1 .dma, .allocPages 1 .dma, .freePages 0, .freePages 0]

/-- The two freed buddies stay two single frames on the DMA list of order 0,
and a request for the two pages they make up returns 0. -/
theorem freed_buddies_never_merge :
    getBuddyAddress 0x2000 0 = 0x3000 ∧
      buddiesFreed.map (fun c => (c.pmm.freeArea (.dma, ⟨0, by decide⟩)).freeList) = .ok [0x2000, 0x3000] ∧
      buddiesFreed.map (fun c => (c.pmm.allocPages 2 .dma).map Prod.snd) = .ok (.ok 0) := by
  decide +kernel

end Xinim.Mm
