import Xinim.Mm.Pmm

/-! The page counters of mm/pmm.cpp beside its free lists: each zone's
`pages_free`, `free_pages_` and `used_pages_`, `uint64_t` values that the
code adjusts on its own paths. `add_memory_region` counts a frame it frees in
`free_pages_` only; `buddy_alloc` subtracts from the counter of the zone it
took the block from, after any fallback; `buddy_free` adds to the zone of the
address. Each operation here is the one of `PhysicalMemoryManager` with those
updates beside it, and forgetting the counters gives that operation back.
`alloc_count`, `free_count` and `reserved_pages_` are left out. -/

namespace Xinim.Mm

structure PageCounters where
  /-- `zones_[zone].pages_free`. -/
  pagesFree : MemoryZone → ℕ
  freePages : ℕ
  usedPages : ℕ

namespace PageCounters

def took (c : PageCounters) (zone : MemoryZone) (numPages : ℕ) : PageCounters where
  pagesFree := Function.update c.pagesFree zone ((c.pagesFree zone + 2 ^ 64 - numPages) % 2 ^ 64)
  freePages := (c.freePages + 2 ^ 64 - numPages) % 2 ^ 64
  usedPages := (c.usedPages + numPages) % 2 ^ 64

def gave (c : PageCounters) (zone : MemoryZone) (numPages : ℕ) : PageCounters where
  pagesFree := Function.update c.pagesFree zone ((c.pagesFree zone + numPages) % 2 ^ 64)
  freePages := (c.freePages + numPages) % 2 ^ 64
  usedPages := (c.usedPages + 2 ^ 64 - numPages) % 2 ^ 64

end PageCounters

structure CountedPmm where
  pmm : PhysicalMemoryManager
  counters : PageCounters

namespace CountedPmm

/-- The constructor zeroes `free_pages_` and `used_pages_`, and `init_zones`
each zone's `pages_free`. -/
def init (totalMemory kernelStart kernelEnd : ℕ) : Except Fault CountedPmm :=
  (PhysicalMemoryManager.init totalMemory kernelStart kernelEnd).map fun s => ⟨s, ⟨fun _ => 0, 0, 0⟩⟩

/-- One round of `add_memory_region`'s loop: a frame it frees is counted in
`free_pages_`, and in no zone's `pages_free`. -/
def addRegionPage (reserved : Bool) (c : CountedPmm) (pfn : ℕ) : CountedPmm where
  pmm := PhysicalMemoryManager.addRegionPage reserved c.pmm pfn
  counters :=
    if (c.pmm.pageFrames pfn).flags &&& flagReserved ≠ 0 ∨ reserved then c.counters
    else { c.counters with freePages := (c.counters.freePages + 1) % 2 ^ 64 }

def addMemoryRegion (c : CountedPmm) (base size : ℕ) (reserved : Bool) : CountedPmm :=
  let startPfn := physToPfn base
  let endPfn := physToPfn ((base + size) % 2 ^ 64)
  (List.range' startPfn (min endPfn c.pmm.totalPageFrames - startPfn)).foldl (addRegionPage reserved) c

def allocIn (c : CountedPmm) (order : ℕ) (zone : MemoryZone) : Option (Except Fault (CountedPmm × ℕ)) :=
  (c.pmm.allocIn order zone).map (Except.map fun r => (⟨r.1, c.counters.took zone (getPagesForOrder order)⟩, r.2))

def buddyAlloc (c : CountedPmm) (order : ℕ) (zone : MemoryZone) : Except Fault (CountedPmm × ℕ) :=
  (c.allocIn order zone).getD <|
    match zone with
    | .dma => .ok (c, 0)
    | .normal | .high => .error .deadlock

def allocPages (c : CountedPmm) (count : ℕ) (zone : MemoryZone) : Except Fault (CountedPmm × ℕ) :=
  if count = 0 then .ok (c, 0)
  else if count = 1 then c.buddyAlloc 0 zone
  else c.buddyAlloc (getOrder count) zone

/-- `buddy_free` adds the pages of the order it was asked for to the zone of
the address. -/
def buddyFree (c : CountedPmm) (physAddr order : ℕ) : CountedPmm :=
  if physAddr = 0 then c
  else if c.pmm.totalPageFrames ≤ physToPfn physAddr then c
  else ⟨c.pmm.buddyFree physAddr order, c.counters.gave (getZoneForAddress physAddr) (getPagesForOrder order)⟩

def freePages (c : CountedPmm) (physAddr count : ℕ) : CountedPmm :=
  if count = 0 then c
  else if count = 1 then c.buddyFree physAddr 0
  else c.buddyFree physAddr (getOrder count)

def setup (totalMemory kernelStart kernelEnd : ℕ) (regions : List MemoryRegion) : Except Fault CountedPmm :=
  (init totalMemory kernelStart kernelEnd).map fun c =>
    regions.foldl (fun c r => c.addMemoryRegion r.base r.size r.reserved) c

def forget (r : CountedPmm × ℕ) : PhysicalMemoryManager × ℕ := (r.1.pmm, r.2)

theorem foldl_addRegionPage_pmm (reserved : Bool) (pfns : List ℕ) (c : CountedPmm) :
    (pfns.foldl (addRegionPage reserved) c).pmm = pfns.foldl (PhysicalMemoryManager.addRegionPage reserved) c.pmm := by
  induction pfns generalizing c with
  | nil => rfl
  | cons pfn pfns ih => exact ih _

theorem addMemoryRegion_pmm (c : CountedPmm) (base size : ℕ) (reserved : Bool) :
    (c.addMemoryRegion base size reserved).pmm = c.pmm.addMemoryRegion base size reserved :=
  foldl_addRegionPage_pmm reserved _ c

theorem setup_pmm (totalMemory kernelStart kernelEnd : ℕ) (regions : List MemoryRegion) :
    (setup totalMemory kernelStart kernelEnd regions).map pmm = Xinim.Mm.setup totalMemory kernelStart kernelEnd regions := by
  have fold : ∀ (rs : List MemoryRegion) (c : CountedPmm),
      (rs.foldl (fun c r => c.addMemoryRegion r.base r.size r.reserved) c).pmm =
        rs.foldl (fun s r => s.addMemoryRegion r.base r.size r.reserved) c.pmm := by
    intro rs
    induction rs with
    | nil => intro c; rfl
    | cons r rs ih => intro c; rw [List.foldl_cons, ih, addMemoryRegion_pmm]; rfl
  unfold setup init Xinim.Mm.setup
  cases PhysicalMemoryManager.init totalMemory kernelStart kernelEnd with
  | error e => rfl
  | ok s => exact congrArg Except.ok (fold regions _)

theorem allocIn_forget (c : CountedPmm) (order : ℕ) (zone : MemoryZone) :
    (c.allocIn order zone).map (Except.map forget) = c.pmm.allocIn order zone := by
  unfold allocIn
  cases c.pmm.allocIn order zone with
  | none => rfl
  | some result => cases result <;> rfl

theorem buddyAlloc_forget (c : CountedPmm) (order : ℕ) (zone : MemoryZone) :
    (c.buddyAlloc order zone).map forget = c.pmm.buddyAlloc order zone := by
  unfold buddyAlloc PhysicalMemoryManager.buddyAlloc
  rw [← allocIn_forget, ← Option.getD_map (Except.map forget)]
  congr 1
  cases zone <;> rfl

theorem allocPages_forget (c : CountedPmm) (count : ℕ) (zone : MemoryZone) :
    (c.allocPages count zone).map forget = c.pmm.allocPages count zone := by
  unfold allocPages PhysicalMemoryManager.allocPages PhysicalMemoryManager.allocPage
  split_ifs
  · rfl
  · exact buddyAlloc_forget c 0 zone
  · exact buddyAlloc_forget c _ zone

theorem buddyFree_pmm (c : CountedPmm) (physAddr order : ℕ) :
    (c.buddyFree physAddr order).pmm = c.pmm.buddyFree physAddr order := by
  unfold buddyFree PhysicalMemoryManager.buddyFree
  split_ifs <;> rfl

theorem freePages_pmm (c : CountedPmm) (physAddr count : ℕ) :
    (c.freePages physAddr count).pmm = c.pmm.freePages physAddr count := by
  unfold freePages PhysicalMemoryManager.freePages PhysicalMemoryManager.freePage
  split_ifs <;> simp only [buddyFree_pmm]

/-! ### What `buddy_alloc` does to the counters -/

def AllocResult (c : CountedPmm) (order : ℕ) (r : CountedPmm × ℕ) : Prop :=
  (r.2 = 0 ∧ r.1 = c) ∨ (r.2 ≠ 0 ∧ ∃ zone, r.1.counters = c.counters.took zone (getPagesForOrder order))

section BuddyAlloc

variable {c : CountedPmm} (hw : c.pmm.Wf) (pos : ∀ p ∈ c.pmm.freeListPages, 0 < p) (order : ℕ)
include hw pos

theorem allocIn_cases (zone : MemoryZone) :
    c.allocIn order zone = none ∨ ∃ r, c.allocIn order zone = some (.ok r) ∧ r.2 ≠ 0 ∧
      r.1.counters = c.counters.took zone (getPagesForOrder order) := by
  rcases PhysicalMemoryManager.allocIn_cases hw order zone with none | ⟨r, some, took⟩
  · exact .inl (by rw [allocIn, none, Option.map_none])
  · exact .inr ⟨(⟨r.1, c.counters.took zone (getPagesForOrder order)⟩, r.2),
      by rw [allocIn, some]; rfl, took.ne_zero pos, rfl⟩

theorem buddyAlloc_spec (zone : MemoryZone) :
    (∃ r, c.buddyAlloc order zone = .ok r ∧ AllocResult c order r) ∨ c.buddyAlloc order zone = .error .deadlock := by
  rcases allocIn_cases hw pos order zone with none | ⟨r, some, named, counted⟩
  · have fallback : c.buddyAlloc order zone = if zone = .dma then .ok (c, 0) else .error .deadlock := by
      cases zone <;> simp [buddyAlloc, none]
    rw [fallback]
    split_ifs
    · exact .inl ⟨(c, 0), rfl, .inl ⟨rfl, rfl⟩⟩
    · exact .inr rfl
  · exact .inl ⟨r, by simp only [buddyAlloc, some, Option.getD_some], .inr ⟨named, zone, counted⟩⟩

end BuddyAlloc

theorem allocPages_eq {count : ℕ} (named : count ≠ 0) (c : CountedPmm) (zone : MemoryZone) :
    c.allocPages count zone = c.buddyAlloc (getOrder count) zone := by
  unfold allocPages
  by_cases one : count = 1
  · subst one; rfl
  · rw [if_neg named, if_neg one]

theorem freePages_eq {count physAddr : ℕ} (named : count ≠ 0) (c : CountedPmm) (nonzero : physAddr ≠ 0)
    (inFrames : physToPfn physAddr < c.pmm.totalPageFrames) :
    c.freePages physAddr count = ⟨c.pmm.freePages physAddr count,
      c.counters.gave (getZoneForAddress physAddr) (getPagesForOrder (getOrder count))⟩ := by
  have freed : c.buddyFree physAddr (getOrder count) = ⟨c.pmm.buddyFree physAddr (getOrder count),
      c.counters.gave (getZoneForAddress physAddr) (getPagesForOrder (getOrder count))⟩ := by
    rw [buddyFree, if_neg nonzero, if_neg (Nat.not_le.mpr inFrames)]
  rw [PhysicalMemoryManager.freePages_eq named, ← freed]
  unfold freePages
  by_cases one : count = 1
  · subst one; rfl
  · rw [if_neg named, if_neg one]

/-! ### The counters through `initialize` and `add_memory_region` -/

def SetupTally (c : CountedPmm) : Prop :=
  c.counters.freePages = Multiset.card c.pmm.freeListPages % 2 ^ 64 ∧ c.counters.usedPages = 0

theorem SetupTally.addRegionPage {c : CountedPmm} (tally : c.SetupTally) (reserved : Bool) (pfn : ℕ) :
    (addRegionPage reserved c pfn).SetupTally := by
  obtain ⟨free, used⟩ := tally
  unfold SetupTally CountedPmm.addRegionPage
  dsimp only
  rw [PhysicalMemoryManager.freeListPages_addRegionPage]
  by_cases kept : (c.pmm.pageFrames pfn).flags &&& flagReserved ≠ 0 ∨ reserved
  · have none : ¬ (reserved = false ∧ (c.pmm.pageFrames pfn).flags &&& flagReserved = 0) := by
      rintro ⟨free, clear⟩
      rcases kept with set | set
      · exact set clear
      · simp [free] at set
    rw [if_pos kept, if_neg none, add_zero]
    exact ⟨free, used⟩
  · obtain ⟨clear, free'⟩ : (c.pmm.pageFrames pfn).flags &&& flagReserved = 0 ∧ reserved = false := by
      simpa using kept
    rw [if_neg kept, if_pos ⟨free', clear⟩, Multiset.card_add, Multiset.card_singleton]
    refine ⟨?_, used⟩
    dsimp only
    rw [free]
    omega

theorem SetupTally.foldl_addRegionPage {c : CountedPmm} (tally : c.SetupTally) (reserved : Bool) (pfns : List ℕ) :
    (pfns.foldl (CountedPmm.addRegionPage reserved) c).SetupTally := by
  induction pfns generalizing c with
  | nil => exact tally
  | cons pfn pfns ih => exact ih (tally.addRegionPage reserved pfn)

theorem setup_tally {totalMemory kernelStart kernelEnd : ℕ} {regions : List MemoryRegion} {c : CountedPmm}
    (set : setup totalMemory kernelStart kernelEnd regions = .ok c) : c.SetupTally := by
  have fold : ∀ (rs : List MemoryRegion) (c : CountedPmm), c.SetupTally →
      (rs.foldl (fun c r => c.addMemoryRegion r.base r.size r.reserved) c).SetupTally := by
    intro rs
    induction rs with
    | nil => exact fun _ tally => tally
    | cons r rs ih => exact fun c tally => ih _ (tally.foldl_addRegionPage r.reserved _)
  unfold setup init at set
  cases started : PhysicalMemoryManager.init totalMemory kernelStart kernelEnd with
  | error e => rw [started] at set; cases set
  | ok s =>
    rw [started] at set
    simp only [Except.map, Except.ok.injEq] at set
    subst set
    have empty : Multiset.card s.freeListPages = 0 := by
      unfold PhysicalMemoryManager.init at started
      dsimp only at started
      split at started
      · cases started
      · cases started
        simp [PhysicalMemoryManager.freeListPages, listPages]
    exact fold regions _ ⟨by simp [empty], rfl⟩

end CountedPmm

/-! ### The counters along the callers' runs -/

structure CountedClient where
  state : CountedPmm
  held : List (ℕ × ℕ)

namespace CountedClient

def step (c : CountedClient) : PmmOp → Except Fault CountedClient
  | .allocPages count zone => (c.state.allocPages count zone).map fun r =>
      ⟨r.1, if r.2 = 0 then c.held else (r.2, count) :: c.held⟩
  | .freePages i =>
    match c.held[i]? with
    | none => .ok c
    | some a => .ok ⟨c.state.freePages a.1 a.2, c.held.eraseIdx i⟩

def run (c : CountedClient) : List PmmOp → Except Fault CountedClient
  | [] => .ok c
  | op :: ops => (c.step op).bind fun c' => c'.run ops

def Reaches (c : CountedClient) (ops : List PmmOp) (c' : CountedClient) : Prop :=
  c.run ops = .ok c' ∨ ∃ pre count zone post, ops = pre ++ .allocPages count zone :: post ∧
    c.run pre = .ok c' ∧ c'.state.allocPages count zone = .error .deadlock

def toClient (c : CountedClient) : Client := ⟨c.state.pmm, c.held⟩

theorem step_toClient (c : CountedClient) (op : PmmOp) : (c.step op).map toClient = c.toClient.step op := by
  cases op with
  | allocPages count zone =>
    simp only [step, Client.step, toClient, ← CountedPmm.allocPages_forget]
    cases c.state.allocPages count zone <;> rfl
  | freePages i =>
    simp only [step, Client.step, toClient]
    cases c.held[i]? with
    | none => rfl
    | some a => simp only [Except.map, toClient, CountedPmm.freePages_pmm]

/-- `free_pages_` counts the frames on the free lists and `used_pages_` those
of the outstanding allocations, both modulo `2 ^ 64`. -/
structure Tallies (c : CountedClient) : Prop where
  free : c.state.counters.freePages = Multiset.card c.state.pmm.freeListPages % 2 ^ 64
  used : c.state.counters.usedPages = Multiset.card (heldPages c.held) % 2 ^ 64

section Step

variable {F : Multiset ℕ} {c c' : CountedClient}

theorem conserves_of_step (h : Conserves F c.toClient) {op : PmmOp} (ok : c.step op = .ok c') :
    Conserves F c'.toClient := by
  have forgot := step_toClient c op
  rw [ok] at forgot
  rcases h.step op with ⟨c'', ran, kept⟩ | ⟨count, zone, rfl, hang⟩
  · rw [← forgot] at ran
    have same : c'.toClient = c'' := by simpa [Except.map] using ran
    exact same ▸ kept
  · rw [Client.step, hang] at forgot
    cases forgot

theorem card_balance (h : Conserves F c.toClient) (h' : Conserves F c'.toClient) :
    Multiset.card c.state.pmm.freeListPages + Multiset.card (heldPages c.held) =
      Multiset.card c'.state.pmm.freeListPages + Multiset.card (heldPages c'.held) := by
  rw [← Multiset.card_add, ← Multiset.card_add]
  exact congrArg Multiset.card (h.pages.trans h'.pages.symm)

theorem card_blockPages (addr order : ℕ) : Multiset.card (blockPages addr order) = getPagesForOrder order := by
  simp [blockPages]

theorem getPagesForOrder_getOrder_lt (count : ℕ) : getPagesForOrder (getOrder count) < 2 ^ 64 :=
  calc getPagesForOrder (getOrder count) < 2 ^ maxOrder := Nat.pow_lt_pow_right (by decide) (PhysicalMemoryManager.getOrder_lt count)
    _ ≤ 2 ^ 64 := Nat.pow_le_pow_right (by decide) (by decide)

theorem Conserves.held_inFrames {c : Client} (h : Conserves F c) {a : ℕ × ℕ} (mem : a ∈ c.held) :
    a.1 ≠ 0 ∧ physToPfn a.1 < c.pmm.totalPageFrames := by
  have first : physToPfn a.1 ∈ F := by
    rw [← h.pages]
    exact Multiset.mem_add.mpr (.inr (Multiset.mem_of_le (blockPages_le_heldPages mem) (pfn_mem_blockPages _ _)))
  obtain ⟨positive, below⟩ := h.inFrames _ first
  exact ⟨fun zero => by simp [zero, physToPfn] at positive, below⟩

theorem Tallies.allocPages (h : Conserves F c.toClient) (t : c.Tallies) {count : ℕ} {zone : MemoryZone}
    (ok : c.step (.allocPages count zone) = .ok c') : c'.Tallies := by
  have balance := card_balance h (conserves_of_step h ok)
  by_cases zero : count = 0
  · simp only [step, CountedPmm.allocPages, zero, if_true, Except.map, Except.ok.injEq] at ok
    subst ok
    exact t
  obtain ⟨r, call, result⟩ | hang := CountedPmm.buddyAlloc_spec (c := c.state) h.wf h.free_pos (getOrder count) zone
  swap
  · rw [step, CountedPmm.allocPages_eq zero, hang] at ok
    cases ok
  rw [step, CountedPmm.allocPages_eq zero, call] at ok
  simp only [Except.map, Except.ok.injEq] at ok
  subst ok
  rcases result with ⟨none, same⟩ | ⟨named, taken, counted⟩
  · rw [if_pos none, same]
    exact t
  · have small := getPagesForOrder_getOrder_lt count
    rw [if_neg named] at balance ⊢
    dsimp only at balance
    rw [heldPages_cons, Multiset.card_add, card_blockPages] at balance
    dsimp only at balance
    refine ⟨?_, ?_⟩
    · rw [counted, PageCounters.took, t.free]
      dsimp only
      omega
    · rw [counted, PageCounters.took, t.used]
      dsimp only
      rw [heldPages_cons, Multiset.card_add, card_blockPages]
      dsimp only
      omega

theorem Tallies.freePages (h : Conserves F c.toClient) (t : c.Tallies) {i : ℕ}
    (ok : c.step (.freePages i) = .ok c') : c'.Tallies := by
  have balance := card_balance h (conserves_of_step h ok)
  cases at_i : c.held[i]? with
  | none =>
    simp only [step, at_i, Except.ok.injEq] at ok
    subst ok
    exact t
  | some a =>
    simp only [step, at_i, Except.ok.injEq] at ok
    subst ok
    have mem := List.mem_of_getElem? at_i
    obtain ⟨named, inFrames⟩ := Conserves.held_inFrames h mem
    have released := heldPages_eraseIdx at_i
    have small := getPagesForOrder_getOrder_lt a.2
    rw [CountedPmm.freePages_eq (h.heldCount a mem) _ named inFrames] at balance ⊢
    dsimp only at balance ⊢
    rw [← released, Multiset.card_add, card_blockPages] at balance
    refine ⟨?_, ?_⟩
    · rw [PageCounters.gave, t.free]
      dsimp only
      omega
    · rw [PageCounters.gave, t.used, ← released, Multiset.card_add, card_blockPages]
      dsimp only
      omega

theorem Tallies.step (h : Conserves F c.toClient) (t : c.Tallies) :
    ∀ {op : PmmOp}, c.step op = .ok c' → c'.Tallies
  | .allocPages _ _, ok => t.allocPages h ok
  | .freePages _, ok => t.freePages h ok

end Step

theorem step_cases {F : Multiset ℕ} {c : CountedClient} (h : Conserves F c.toClient) (op : PmmOp) :
    (∃ c₁, c.step op = .ok c₁ ∧ Conserves F c₁.toClient) ∨
      ∃ count zone, op = .allocPages count zone ∧ c.state.allocPages count zone = .error .deadlock := by
  rcases h.step op with ⟨c'', ran, -⟩ | ⟨count, zone, rfl, hang⟩
  · rw [← step_toClient] at ran
    cases stepped : c.step op with
    | error e => rw [stepped] at ran; cases ran
    | ok c₁ => exact .inl ⟨c₁, rfl, conserves_of_step h stepped⟩
  · refine .inr ⟨count, zone, rfl, ?_⟩
    have forgot := CountedPmm.allocPages_forget c.state count zone
    rw [show c.state.pmm = c.toClient.pmm from rfl, hang] at forgot
    cases called : c.state.allocPages count zone with
    | error e => rw [called] at forgot; cases forgot; rfl
    | ok r => rw [called] at forgot; cases forgot

theorem run_tallies {F : Multiset ℕ} {c : CountedClient} (h : Conserves F c.toClient) (t : c.Tallies)
    (ops : List PmmOp) : ∃ c', c.Reaches ops c' ∧ Conserves F c'.toClient ∧ c'.Tallies := by
  induction ops generalizing c with
  | nil => exact ⟨c, .inl rfl, h, t⟩
  | cons op ops ih =>
    rcases step_cases h op with ⟨c₁, first, h₁⟩ | ⟨count, zone, rfl, hang⟩
    · obtain ⟨c', reach, h', t'⟩ := ih h₁ (t.step h first)
      refine ⟨c', ?_, h', t'⟩
      rcases reach with done | ⟨pre, count, zone, post, split, ran, hang⟩
      · exact .inl (by rw [run, first]; exact done)
      · exact .inr ⟨op :: pre, count, zone, post, by rw [split]; rfl, by rw [run, first]; exact ran, hang⟩
    · exact ⟨c, .inr ⟨[], count, zone, ops, rfl, rfl, hang⟩, h, t⟩

end CountedClient

theorem setup_totalPageFrames {totalMemory kernelStart kernelEnd : ℕ} {regions : List MemoryRegion}
    {s₀ : PhysicalMemoryManager} (set : setup totalMemory kernelStart kernelEnd regions = .ok s₀) :
    s₀.totalPageFrames = totalMemory / pageSize := by
  unfold setup PhysicalMemoryManager.init at set
  dsimp only at set
  split at set
  · cases set
  · simp only [Except.map, Except.ok.injEq] at set
    rw [← set, PhysicalMemoryManager.foldl_addMemoryRegion_totalPageFrames]

/-- From `initialize` and `add_memory_region` over disjoint ranges of a memory
of `uint64_t` size, along every run of `alloc_pages` and `free_pages` calls,
up to its end or to the call that hangs, `free_pages_` is the number of frames
on the free lists and `used_pages_` the number of frames of the outstanding
allocations: neither wraps. -/
theorem free_and_used_pages_exact {totalMemory kernelStart kernelEnd : ℕ} {regions : List MemoryRegion}
    {c₀ : CountedPmm} (set : CountedPmm.setup totalMemory kernelStart kernelEnd regions = .ok c₀)
    (apart : regions.Pairwise fun r r' => r.extent.Disjoint r'.extent) (word : totalMemory < 2 ^ 64)
    (ops : List PmmOp) :
    ∃ c, CountedClient.Reaches ⟨c₀, []⟩ ops c ∧
      c.state.counters.freePages = Multiset.card c.state.pmm.freeListPages ∧
      c.state.counters.usedPages = Multiset.card (heldPages c.held) := by
  have set' : setup totalMemory kernelStart kernelEnd regions = .ok c₀.pmm := by
    rw [← CountedPmm.setup_pmm, set]; rfl
  obtain ⟨free₀, used₀⟩ := CountedPmm.setup_tally set
  obtain ⟨c, ran, h, t⟩ := CountedClient.run_tallies (c := ⟨c₀, []⟩) (setup_conserves set' apart)
    ⟨free₀, by simp [used₀, heldPages]⟩ ops
  obtain ⟨-, distinct, frames⟩ := setup_spec set' apart
  have inRange : c₀.pmm.freeListPages.toFinset ⊆ Finset.range c₀.pmm.totalPageFrames := fun p mem =>
    Finset.mem_range.mpr (frames p (Multiset.mem_toFinset.mp mem)).2.1
  have bound : Multiset.card c₀.pmm.freeListPages ≤ totalMemory / pageSize := by
    rw [← Multiset.toFinset_card_of_nodup distinct, ← setup_totalPageFrames set',
      ← Finset.card_range c₀.pmm.totalPageFrames]
    exact Finset.card_le_card inRange
  have below : totalMemory / pageSize ≤ totalMemory := Nat.div_le_self _ _
  have split : Multiset.card c.state.pmm.freeListPages + Multiset.card (heldPages c.held) =
      Multiset.card c₀.pmm.freeListPages := by
    rw [← Multiset.card_add]
    exact congrArg Multiset.card h.pages
  exact ⟨c, ran, by rw [t.free, Nat.mod_eq_of_lt (by omega)], by rw [t.used, Nat.mod_eq_of_lt (by omega)]⟩

theorem free_and_used_pages_exact_one_range :
    ∃ c₀, CountedPmm.setup 0x4000 0x1000 0x2000 [⟨0x2000, 0x2000, false⟩] = .ok c₀ ∧
      ∃ c, CountedClient.Reaches ⟨c₀, []⟩ [.allocPages 1 .dma, .freePages 0] c ∧
        c.state.counters.freePages = Multiset.card c.state.pmm.freeListPages ∧
        c.state.counters.usedPages = Multiset.card (heldPages c.held) :=
  ⟨_, rfl, @free_and_used_pages_exact 0x4000 _ _ _ _ rfl (by simp) (by decide) _⟩

def zoneFreePages (s : PhysicalMemoryManager) (zone : MemoryZone) : Multiset ℕ :=
  ∑ k, listPages (s.freeArea (zone, k)).freeList k

/-- One free frame at address 4096, in the DMA zone: `add_memory_region`
leaves that zone's `pages_free` at 0 beside a free list holding the frame,
and `alloc_page` then takes 1 from 0, which wraps to `2 ^ 64 - 1`. -/
theorem dma_pages_free_wraps :
    ∃ c, CountedPmm.setup 0x8000 0 0 [⟨0x1000, 0x1000, false⟩] = .ok c ∧
      c.counters.pagesFree .dma = 0 ∧ zoneFreePages c.pmm .dma = {1} ∧
      ∃ c', c.allocPages 1 .dma = .ok (c', 0x1000) ∧ c'.counters.pagesFree .dma = 2 ^ 64 - 1 ∧
        zoneFreePages c'.pmm .dma = 0 := by
  refine ⟨_, rfl, rfl, ?_, _, rfl, rfl, ?_⟩
  · decide
  · decide

end Xinim.Mm
