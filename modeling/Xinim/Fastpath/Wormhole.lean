import Mathlib.Data.UInt
import Mathlib.Algebra.BigOperators.Group.Finset.Piecewise
import Xinim.Data.Bytes
import Xinim.Sched.Scheduler

/-! The IPC fastpath of kernel/wormhole.cpp. `execute_fastpath` checks nine
preconditions in order and counts the first that fails under its own index;
when all hold it takes the receiver off the endpoint, hands it the badge and
the message registers, and switches to it. The registers travel through the
per-CPU queue of the sender's core while that queue has a free slot, and once
it is full through the first valid cache region, the message region, or
directly.

`cpu_queues` is an array of `NR_CPUS` queues indexed by `sender.core`, a byte
that no precondition bounds by `NR_CPUS`: the model faults past its end. Every
other array is indexed by a `Fin` built from the guard in front of it. The
statistics are `std::atomic<uint64_t>` counters and wrap as `UInt64` does. -/

namespace Xinim.Fastpath
open Xinim.Sched

def nrCpus : ℕ := 1

def fastpathQueueSize : ℕ := 4

def mrCount : ℕ := 8

def copyN {α : Type*} {k : ℕ} (n : ℕ) (src dst : Fin k → α) : Fin k → α :=
  fun i => if i.val < n then src i else dst i

section CopyN

variable {α : Type*} {k n : ℕ} {a b c : Fin k → α}

theorem copyN_of_lt {i : Fin k} (h : i.val < n) : copyN n a b i = a i := if_pos h

theorem copyN_of_le {i : Fin k} (h : n ≤ i.val) : copyN n a b i = b i :=
  if_neg (Nat.not_lt.mpr h)

theorem copyN_congr (h : ∀ i : Fin k, i.val < n → a i = b i) : copyN n a c = copyN n b c := by
  funext i
  by_cases hi : i.val < n
  · rw [copyN_of_lt hi, copyN_of_lt hi, h i hi]
  · rw [copyN_of_le (Nat.le_of_not_lt hi), copyN_of_le (Nat.le_of_not_lt hi)]

theorem copyN_copyN : copyN n (copyN n a b) c = copyN n a c :=
  copyN_congr fun _ hi => copyN_of_lt hi

end CopyN

structure PerCpuQueue where
  slots : Fin fastpathQueueSize → Fin mrCount → UInt64
  lengths : Fin fastpathQueueSize → ℕ
  used : ℕ

namespace PerCpuQueue

def empty : PerCpuQueue := ⟨fun _ _ => 0, fun _ => 0, 0⟩

def full (q : PerCpuQueue) : Bool := decide (fastpathQueueSize ≤ q.used)

theorem used_lt_of_not_full {q : PerCpuQueue} (h : ¬q.full) : q.used < fastpathQueueSize := by
  simpa [full] using h

end PerCpuQueue

inductive ThreadStatus
  | running
  | blocked
  | sendBlocked
  | recvBlocked
  deriving DecidableEq, Repr

inductive EndpointState
  | idle
  | send
  | recv
  deriving DecidableEq, Repr

inductive CapType
  | endpoint
  deriving DecidableEq, Repr

structure CapRights where
  write : Bool := false

structure Capability where
  type : CapType := .endpoint
  rights : CapRights := {}
  badge : UInt32 := 0

/-- `Thread`, with the defaults of its member initialisers. -/
structure Thread where
  tid : UInt32 := 0
  status : ThreadStatus := .blocked
  priority : UInt8 := 0
  domain : UInt16 := 0
  fault : Option Int32 := none
  core : UInt8 := 0
  badge : UInt32 := 0
  replyTo : UInt32 := 0
  mrs : Fin mrCount → UInt64 := fun _ => 0

def Thread.getMr (t : Thread) (index : ℕ) : Option UInt64 :=
  if h : index < mrCount then some (t.mrs ⟨index, h⟩) else none

theorem Thread.getMr_getD (t : Thread) (i : Fin mrCount) : (t.getMr i).getD 0 = t.mrs i := by
  simp [Thread.getMr]

structure Endpoint where
  queue : List UInt32 := []
  state : EndpointState := .idle

def messageAlignment : ℕ := 64

/-- A `semantic_region<semantic_message_tag>`: its constructor rounds the base
up to the alignment, so no region has an unaligned base. -/
structure MessageRegion where
  base : ℕ
  size : ℕ
  base_dvd : messageAlignment ∣ base

namespace MessageRegion

def zero : MessageRegion := ⟨0, 0, dvd_zero _⟩

def aligned (r : MessageRegion) : Bool := r.base % messageAlignment == 0

@[simp] theorem aligned_eq_true (r : MessageRegion) : r.aligned = true := by
  simpa [aligned] using Nat.mod_eq_zero_of_dvd r.base_dvd

end MessageRegion

structure State where
  sender : Thread := {}
  receiver : Thread := {}
  endpoint : Endpoint := {}
  cap : Capability := {}
  msgLen : ℕ := 0
  extraCaps : ℕ := 0
  msgRegion : MessageRegion := .zero
  l1Buffer : MessageRegion := .zero
  l2Buffer : MessageRegion := .zero
  l3Buffer : MessageRegion := .zero
  currentTid : UInt32 := 0

inductive Precondition
  | p1
  | p2
  | p3
  | p4
  | p5
  | p6
  | p7
  | p8
  | p9
  deriving DecidableEq, Repr

instance : Fintype Precondition where
  elems := {.p1, .p2, .p3, .p4, .p5, .p6, .p7, .p8, .p9}
  complete p := by cases p <;> decide

structure FastpathStats where
  successCount : UInt64
  failureCount : UInt64
  preconditionFailures : Precondition → UInt64
  hitCount : UInt64
  fallbackCount : UInt64

namespace FastpathStats

def init : FastpathStats := ⟨0, 0, fun _ => 0, 0, 0⟩

def recordFailure (stats : FastpathStats) (idx : Precondition) : FastpathStats :=
  { stats with
    failureCount := stats.failureCount + 1
    preconditionFailures :=
      Function.update stats.preconditionFailures idx (stats.preconditionFailures idx + 1) }

def recordHit (stats : FastpathStats) : FastpathStats :=
  { stats with hitCount := stats.hitCount + 1 }

def recordFallback (stats : FastpathStats) : FastpathStats :=
  { stats with fallbackCount := stats.fallbackCount + 1 }

def recordSuccess (stats : FastpathStats) : FastpathStats :=
  { stats with successCount := stats.successCount + 1 }

end FastpathStats

/-- Memory as the 64-bit word at each byte address: the view the `uint64_t *`
buffer of a zero-copy region has of it. -/
abbrev Memory := ℕ → UInt64

def Memory.storeWords (mem : Memory) (base len : ℕ) (src : ℕ → UInt64) : Memory := fun a =>
  if base ≤ a ∧ (a - base) % 8 = 0 ∧ (a - base) / 8 < len then src ((a - base) / 8) else mem a

theorem Memory.storeWords_word (mem : Memory) {base len i : ℕ} (src : ℕ → UInt64) (h : i < len) :
    mem.storeWords base len src (base + 8 * i) = src i := by
  have word : (base + 8 * i - base) / 8 = i := by omega
  simp only [storeWords, word]
  rw [if_pos (by omega)]

/-- The globals the fastpath touches: `cpu_queues`, the memory behind the
zero-copy regions, and `sched::scheduler`. -/
structure Machine where
  cpuQueues : Vector PerCpuQueue nrCpus
  memory : Memory
  scheduler : Scheduler

def Machine.init : Machine := ⟨Vector.replicate nrCpus .empty, fun _ => 0, .init⟩

def resetFastpathQueues (m : Machine) : Machine :=
  { m with cpuQueues := m.cpuQueues.map fun q => { q with used := 0 } }

def setMessageRegion (state : State) (region : MessageRegion) : State :=
  { state with msgRegion := region }

def messageRegionValid (region : MessageRegion) (msgLen : ℕ) : Bool :=
  -- `msg_len * sizeof(uint64_t)` is a `size_t` product
  decide (msgLen * 8 % 2 ^ 64 ≤ region.size) && region.aligned

def selectCache (state : State) : Option MessageRegion :=
  if messageRegionValid state.l1Buffer state.msgLen then some state.l1Buffer
  else if messageRegionValid state.l2Buffer state.msgLen then some state.l2Buffer
  else if messageRegionValid state.l3Buffer state.msgLen then some state.l3Buffer
  else none

def dequeueReceiver (state : State) : State :=
  let queue := state.endpoint.queue.filter (· != state.receiver.tid)
  { state with endpoint.queue := queue
               endpoint.state := if queue.isEmpty then .idle else state.endpoint.state }

def transferBadge (state : State) : State := { state with receiver.badge := state.cap.badge }

def establishReply (state : State) : State := { state with sender.replyTo := state.receiver.tid }

def copyMrs (state : State) (stats : Option FastpathStats) (cache : Option MessageRegion)
    (m : Machine) : Except Fault (State × Machine × Option FastpathStats) :=
  let core := state.sender.core.toNat
  let len := min state.msgLen mrCount
  -- `cpu_queues[state.sender.core]`: the preconditions tie the sender's core
  -- to the receiver's, and nothing to `NR_CPUS`
  if hc : core < nrCpus then
    let queue := m.cpuQueues[core]
    if hf : ¬queue.full then
      let i : Fin fastpathQueueSize := ⟨queue.used, PerCpuQueue.used_lt_of_not_full hf⟩
      let slot := copyN len state.sender.mrs (queue.slots i)
      let queue : PerCpuQueue :=
        ⟨Function.update queue.slots i slot, Function.update queue.lengths i len, queue.used + 1⟩
      .ok ({ state with receiver.mrs := copyN len slot state.receiver.mrs },
        { m with cpuQueues := m.cpuQueues.set core queue }, stats.map FastpathStats.recordHit)
    else
      let region :=
        if cache.any (messageRegionValid · state.msgLen) then cache
        else if messageRegionValid state.msgRegion state.msgLen then some state.msgRegion
        else none
      match region with
      | some region =>
        let memory := m.memory.storeWords region.base len fun j => (state.sender.getMr j).getD 0
        let mrs := copyN len (fun i => memory (region.base + 8 * i.val)) state.receiver.mrs
        .ok ({ state with receiver.mrs := mrs }, { m with memory := memory },
          stats.map FastpathStats.recordFallback)
      | none =>
        .ok ({ state with receiver.mrs := copyN len state.sender.mrs state.receiver.mrs }, m,
          stats.map FastpathStats.recordFallback)
  else .error .outOfBounds

def updateThreadState (state : State) : State :=
  { state with receiver.status := .running, sender.status := .blocked }

def contextSwitch (state : State) (m : Machine) : State × Machine :=
  -- `yield_to` takes a `pid_t`: the `uint32_t` tid converts modulo 2^32, and
  -- `current()` converts back the same way
  let scheduler := m.scheduler.yieldTo state.receiver.tid.toInt32.toInt
  ({ state with currentTid := UInt32.ofInt scheduler.current }, { m with scheduler := scheduler })

def hasSendRight (rights : CapRights) : Bool := rights.write

def check (condition : Bool) (idx : Precondition) (stats : Option FastpathStats) :
    Bool × Option FastpathStats :=
  if condition then (true, stats) else (false, stats.map (·.recordFailure idx))

/-- The chain `check(c₁, P1, stats) && … && check(c₉, P9, stats)`, whose `&&`
stops at the first check that fails. -/
def checkAll (stats : Option FastpathStats) : List (Bool × Precondition) →
    Bool × Option FastpathStats
  | [] => (true, stats)
  | (condition, idx) :: rest =>
    match check condition idx stats with
    | (true, stats) => checkAll stats rest
    | (false, stats) => (false, stats)

def conditions (s : State) : List (Bool × Precondition) :=
  [(s.extraCaps == 0, .p1),
   (decide (s.msgLen ≤ mrCount), .p2),
   (!s.sender.fault.isSome, .p3),
   (s.cap.type == .endpoint && hasSendRight s.cap.rights, .p4),
   (s.endpoint.state == .recv && !s.endpoint.queue.isEmpty, .p5),
   (decide (s.receiver.priority ≥ s.sender.priority), .p6),
   (s.sender.domain == s.receiver.domain, .p7),
   (true, .p8),
   (s.sender.core == s.receiver.core, .p9)]

def preconditions (s : State) (stats : Option FastpathStats) : Bool × Option FastpathStats :=
  checkAll stats (conditions s)

def executeFastpath (state : State) (stats : Option FastpathStats) (m : Machine) :
    Except Fault (Bool × State × Machine × Option FastpathStats) :=
  match preconditions state stats with
  | (false, stats) => .ok (false, state, m, stats)
  | (true, stats) => do
    let state := establishReply (transferBadge (dequeueReceiver state))
    -- the smallest cache that holds the message, before main memory
    let (state, m, stats) ← copyMrs state stats (selectCache state) m
    let (state, m) := contextSwitch (updateThreadState state) m
    pure (true, state, m, stats.map FastpathStats.recordSuccess)

section Preconditions

variable {s : State} {stats : Option FastpathStats} {m : Machine} {p : Precondition}

def firstFailing (s : State) : Option Precondition :=
  ((conditions s).find? fun c => !c.1).map Prod.snd

theorem checkAll_of_find?_eq_none {l : List (Bool × Precondition)} (stats : Option FastpathStats)
    (h : (l.find? fun c => !c.1) = none) : checkAll stats l = (true, stats) := by
  induction l generalizing stats with
  | nil => rfl
  | cons c rest ih =>
    obtain ⟨condition, idx⟩ := c
    simp only [List.find?_cons] at h
    cases condition with
    | false => simp at h
    | true => exact ih stats (by simpa using h)

theorem checkAll_of_find?_eq_some {l : List (Bool × Precondition)} (stats : Option FastpathStats)
    {c : Bool × Precondition} (h : (l.find? fun c => !c.1) = some c) :
    checkAll stats l = (false, stats.map (·.recordFailure c.2)) := by
  induction l generalizing stats with
  | nil => simp at h
  | cons d rest ih =>
    obtain ⟨condition, idx⟩ := d
    simp only [List.find?_cons] at h
    cases condition with
    | false =>
      cases h
      rfl
    | true => exact ih stats (by simpa using h)

theorem preconditions_of_firstFailing_none (h : firstFailing s = none) :
    preconditions s stats = (true, stats) :=
  checkAll_of_find?_eq_none stats (Option.map_eq_none_iff.mp h)

theorem preconditions_of_firstFailing_some (h : firstFailing s = some p) :
    preconditions s stats = (false, stats.map (·.recordFailure p)) := by
  obtain ⟨c, found, rfl⟩ := Option.map_eq_some_iff.mp h
  exact checkAll_of_find?_eq_some stats found

theorem firstFailing_eq_none_iff : firstFailing s = none ↔ ∀ c ∈ conditions s, c.1 = true := by
  simp [firstFailing]

theorem msgLen_le_of_firstFailing_none (h : firstFailing s = none) : s.msgLen ≤ mrCount := by
  have := firstFailing_eq_none_iff.mp h (decide (s.msgLen ≤ mrCount), .p2) (by simp [conditions])
  simpa using this

theorem executeFastpath_of_firstFailing (h : firstFailing s = some p) :
    executeFastpath s stats m = .ok (false, s, m, stats.map (·.recordFailure p)) := by
  simp only [executeFastpath, preconditions_of_firstFailing_some h]

end Preconditions

section Copy

variable {state s' : State} {stats stats' : Option FastpathStats} {cache : Option MessageRegion}
  {m m' : Machine}

theorem copyMrs_of_nrCpus_le (hc : nrCpus ≤ state.sender.core.toNat) :
    copyMrs state stats cache m = .error .outOfBounds := by
  simp only [copyMrs]
  rw [dif_neg (Nat.not_lt.mpr hc)]

theorem copyMrs_eq_ok (ok : copyMrs state stats cache m = .ok (s', m', stats')) :
    s' = { state with
      receiver.mrs := copyN (min state.msgLen mrCount) state.sender.mrs state.receiver.mrs } ∧
    (stats' = stats.map FastpathStats.recordHit ∨ stats' = stats.map FastpathStats.recordFallback) ∧
    m'.scheduler = m.scheduler := by
  simp only [copyMrs] at ok
  split at ok
  · split at ok
    · -- a free slot of the queue: the receiver copies back what the slot took
      cases ok
      exact ⟨by rw [copyN_copyN], .inl rfl, rfl⟩
    · split at ok
      · -- a valid cache or the message region: the receiver reads back the words just stored
        cases ok
        refine ⟨?_, .inr rfl, rfl⟩
        rw [copyN_congr fun i hi => by rw [Memory.storeWords_word _ _ hi, Thread.getMr_getD]]
      · -- no region: the direct copy
        cases ok
        exact ⟨rfl, .inr rfl, rfl⟩
  · cases ok

theorem copyMrs_isOk (hc : state.sender.core.toNat < nrCpus) :
    ∃ r, copyMrs state stats cache m = .ok r := by
  simp only [copyMrs]
  rw [dif_pos hc]
  split
  · exact ⟨_, rfl⟩
  · split <;> exact ⟨_, rfl⟩

end Copy

section Transfer

variable {s : State} {stats : Option FastpathStats} {m : Machine}

/-- What a fastpath call is for, on the thread and endpoint records: the
receiver leaves the endpoint with the sender's badge and first `msg_len`
registers and runs, and the sender waits for its reply. -/
def transfer (s : State) : State :=
  let queue := s.endpoint.queue.filter (· != s.receiver.tid)
  { s with
    sender := { s.sender with status := .blocked, replyTo := s.receiver.tid }
    receiver := { s.receiver with
      status := .running, badge := s.cap.badge, mrs := copyN s.msgLen s.sender.mrs s.receiver.mrs }
    endpoint := ⟨queue, if queue = [] then .idle else s.endpoint.state⟩ }

/-- When the preconditions hold and the sender's core has a queue, each of the
four copy paths gives the state `transfer` describes, with the receiver
current. -/
theorem executeFastpath_refines_transfer (ok : firstFailing s = none)
    (hc : s.sender.core.toNat < nrCpus) :
    ∃ m' stats', executeFastpath s stats m = .ok (true, { transfer s with
      currentTid := UInt32.ofInt (m.scheduler.yieldTo s.receiver.tid.toInt32.toInt).current },
      m', stats') := by
  set s₁ := establishReply (transferBadge (dequeueReceiver s)) with hs₁
  have copies : ∃ r, copyMrs s₁ stats (selectCache s₁) m = .ok r := copyMrs_isOk hc
  obtain ⟨⟨s₂, m₂, stats₂⟩, copied⟩ := copies
  obtain ⟨rfl, -, scheduler⟩ := copyMrs_eq_ok copied
  have len : min s.msgLen mrCount = s.msgLen := Nat.min_eq_left (msgLen_le_of_firstFailing_none ok)
  refine ⟨{ m₂ with scheduler := m.scheduler.yieldTo s.receiver.tid.toInt32.toInt },
    stats₂.map FastpathStats.recordSuccess, ?_⟩
  simp only [executeFastpath, preconditions_of_firstFailing_none ok, ← hs₁, copied]
  simp [contextSwitch, updateThreadState, scheduler, hs₁, establishReply, transferBadge,
    dequeueReceiver, transfer, len]

theorem executeFastpath_of_nrCpus_le (ok : firstFailing s = none)
    (hc : nrCpus ≤ s.sender.core.toNat) : executeFastpath s stats m = .error .outOfBounds := by
  set s₁ := establishReply (transferBadge (dequeueReceiver s)) with hs₁
  have faults : copyMrs s₁ stats (selectCache s₁) m = .error .outOfBounds :=
    copyMrs_of_nrCpus_le hc
  simp only [executeFastpath, preconditions_of_firstFailing_none ok, ← hs₁, faults]
  rfl

/-- The state test_fastpath.cpp builds, with both threads on `core`; its
message region stands for the test's 64-byte aligned buffer. -/
def testState (core : UInt8) : State where
  sender := { tid := 1, status := .running, priority := 5, core := core,
              mrs := fun i => if i.val = 0 then 42 else 0 }
  receiver := { tid := 2, status := .recvBlocked, priority := 5, core := core }
  endpoint := { queue := [2], state := .recv }
  cap := { rights := { write := true }, badge := 123 }
  msgLen := 1
  msgRegion := ⟨64, 64, dvd_refl _⟩
  currentTid := 1

example : ((executeFastpath (testState 0) (some .init) Machine.init).toOption.map fun r =>
    (r.1, r.2.1.receiver.mrs ⟨0, by decide⟩, r.2.1.receiver.badge)) = some (true, 42, 123) := by
  decide

theorem executeFastpath_refines_transfer_on_core_zero :
    firstFailing (testState 0) = none ∧ (testState 0).sender.core.toNat < nrCpus ∧
      ∃ m' stats', executeFastpath (testState 0) (some .init) Machine.init = .ok (true,
        { transfer (testState 0) with
          currentTid := UInt32.ofInt (Machine.init.scheduler.yieldTo (testState 0).receiver.tid.toInt32.toInt).current },
        m', stats') :=
  have ok : firstFailing (testState 0) = none := by decide
  have onCore : (testState 0).sender.core.toNat < nrCpus := by decide
  ⟨ok, onCore, executeFastpath_refines_transfer ok onCore⟩

theorem fastpath_on_core_one_indexes_past_cpu_queues (stats : Option FastpathStats) (m : Machine) :
    firstFailing (testState 1) = none ∧ executeFastpath (testState 1) stats m = .error .outOfBounds :=
  have ok : firstFailing (testState 1) = none := by decide
  ⟨ok, executeFastpath_of_nrCpus_le ok (by decide)⟩

theorem executeFastpath_cases {b : Bool} {s' : State} {m' : Machine}
    {stats' : Option FastpathStats} (ok : executeFastpath s stats m = .ok (b, s', m', stats')) :
    (∃ p, firstFailing s = some p ∧ s' = s ∧ m' = m ∧ stats' = stats.map (·.recordFailure p)) ∨
    (∃ s₂ m₂ stats₂, copyMrs (establishReply (transferBadge (dequeueReceiver s))) stats
        (selectCache (establishReply (transferBadge (dequeueReceiver s)))) m = .ok (s₂, m₂, stats₂) ∧
      m' = { m₂ with scheduler := m₂.scheduler.yieldTo s.receiver.tid.toInt32.toInt } ∧
      stats' = stats₂.map FastpathStats.recordSuccess) := by
  cases failing : firstFailing s with
  | some p =>
    rw [executeFastpath_of_firstFailing failing] at ok
    cases ok
    exact .inl ⟨p, rfl, rfl, rfl, rfl⟩
  | none =>
    set s₁ := establishReply (transferBadge (dequeueReceiver s)) with hs₁
    simp only [executeFastpath, preconditions_of_firstFailing_none failing, ← hs₁] at ok
    rcases copied : copyMrs s₁ stats (selectCache s₁) m with fault | ⟨s₂, m₂, stats₂⟩
    · rw [copied] at ok
      cases ok
    · obtain ⟨rfl, -, -⟩ := copyMrs_eq_ok copied
      rw [copied] at ok
      cases ok
      exact .inr ⟨_, m₂, stats₂, rfl, rfl, rfl⟩

end Transfer

section Invariants

/-- A queue as `copy_mrs` and `reset_fastpath_queues` leave it: no more slots
in use than it has, and each slot in use holding a message that fits it. -/
structure PerCpuQueue.Wf (q : PerCpuQueue) : Prop where
  used_le : q.used ≤ fastpathQueueSize
  lengths_le : ∀ i : Fin fastpathQueueSize, i.val < q.used → q.lengths i ≤ mrCount

theorem PerCpuQueue.Wf.push {q : PerCpuQueue} (wf : q.Wf) (hf : ¬q.full)
    (slot : Fin mrCount → UInt64) {len : ℕ} (hlen : len ≤ mrCount) :
    (⟨Function.update q.slots ⟨q.used, used_lt_of_not_full hf⟩ slot,
      Function.update q.lengths ⟨q.used, used_lt_of_not_full hf⟩ len, q.used + 1⟩ : PerCpuQueue).Wf where
  used_le := used_lt_of_not_full hf
  lengths_le i hi := by
    dsimp only at hi ⊢
    rw [Function.update_apply]
    split
    · exact hlen
    · have older : i.val < q.used := by
        have : i.val ≠ q.used := fun h => by simp_all [Fin.ext_iff]
        omega
      exact wf.lengths_le i older

theorem PerCpuQueue.wf_of_used_eq_zero {q : PerCpuQueue} (h : q.used = 0) : q.Wf :=
  ⟨h ▸ Nat.zero_le _, fun _ hi => absurd (h ▸ hi) (Nat.not_lt_zero _)⟩

def Machine.Wf (m : Machine) : Prop := ∀ (c : ℕ) (h : c < nrCpus), m.cpuQueues[c].Wf

theorem Machine.wf_init : Machine.init.Wf := fun c h => by
  rw [Machine.init, Vector.getElem_replicate]
  exact PerCpuQueue.wf_of_used_eq_zero rfl

variable {state s s' : State} {stats stats' : Option FastpathStats} {cache : Option MessageRegion}
  {m m' : Machine}

theorem Machine.Wf.copyMrs (wf : m.Wf) (ok : copyMrs state stats cache m = .ok (s', m', stats')) :
    m'.Wf := by
  simp only [Fastpath.copyMrs] at ok
  split at ok
  next hc =>
    split at ok
    next hf =>
      cases ok
      intro c h
      rw [Vector.getElem_set]
      split
      · subst_vars
        exact (wf _ hc).push hf _ (Nat.min_le_right _ _)
      · exact wf c h
    next =>
      split at ok <;> (cases ok; exact wf)
  next => cases ok

theorem Machine.Wf.executeFastpath {b : Bool} (wf : m.Wf)
    (ok : Fastpath.executeFastpath s stats m = .ok (b, s', m', stats')) : m'.Wf := by
  rcases executeFastpath_cases ok with ⟨p, -, -, rfl, -⟩ | ⟨s₂, m₂, stats₂, copied, rfl, -⟩
  · exact wf
  · have queues : m₂.Wf := wf.copyMrs copied
    exact queues

/-- The counters agree with one another: `failure_count` is the sum of the
per-precondition counters, and every success was a queue hit or a fallback. -/
structure FastpathStats.Balanced (st : FastpathStats) : Prop where
  failures_sum : st.failureCount = ∑ p, st.preconditionFailures p
  copies_eq : st.hitCount + st.fallbackCount = st.successCount

namespace FastpathStats

variable {st : FastpathStats}

theorem Balanced.recordFailure (h : st.Balanced) (p : Precondition) :
    (st.recordFailure p).Balanced where
  failures_sum := by
    simp only [FastpathStats.recordFailure]
    rw [Finset.sum_update_of_mem (Finset.mem_univ _), Finset.sdiff_singleton_eq_erase,
      h.failures_sum, ← Finset.add_sum_erase _ _ (Finset.mem_univ p), add_right_comm]
  copies_eq := h.copies_eq

theorem Balanced.recordHit (h : st.Balanced) : st.recordHit.recordSuccess.Balanced where
  failures_sum := h.failures_sum
  copies_eq := by
    simp only [FastpathStats.recordHit, FastpathStats.recordSuccess, ← h.copies_eq]
    exact add_right_comm _ _ _

theorem Balanced.recordFallback (h : st.Balanced) : st.recordFallback.recordSuccess.Balanced where
  failures_sum := h.failures_sum
  copies_eq := by
    simp only [FastpathStats.recordFallback, FastpathStats.recordSuccess, ← h.copies_eq]
    exact (add_assoc _ _ _).symm

def calls (st : FastpathStats) : UInt64 := st.successCount + st.failureCount

end FastpathStats

open FastpathStats in
theorem executeFastpath_stats {b : Bool} {st : FastpathStats} (h : st.Balanced)
    (ok : executeFastpath s (some st) m = .ok (b, s', m', stats')) :
    ∃ st', stats' = some st' ∧ st'.Balanced ∧ st'.calls = st.calls + 1 := by
  rcases executeFastpath_cases ok with ⟨p, -, -, -, rfl⟩ | ⟨s₂, m₂, stats₂, copied, -, rfl⟩
  · refine ⟨_, rfl, h.recordFailure p, ?_⟩
    simp only [calls, FastpathStats.recordFailure]
    exact (add_assoc _ _ _).symm
  · rcases (copyMrs_eq_ok copied).2.1 with rfl | rfl
    · exact ⟨_, rfl, h.recordHit, add_right_comm _ _ _⟩
    · exact ⟨_, rfl, h.recordFallback, add_right_comm _ _ _⟩

end Invariants

section Run

/-- Fastpath calls one after another on the same globals and statistics; the
caller prepares the state of each call. -/
def runCalls (m : Machine) (stats : Option FastpathStats) :
    List State → Except Fault (Machine × Option FastpathStats)
  | [] => .ok (m, stats)
  | state :: rest => do
    let (_, _, m, stats) ← executeFastpath state stats m
    runCalls m stats rest

variable {m m' : Machine} {stats : Option FastpathStats}

theorem runCalls_cons_eq_ok {state : State} {rest : List State} {r : Machine × Option FastpathStats}
    (ok : runCalls m stats (state :: rest) = .ok r) :
    ∃ b s' m₁ stats₁, executeFastpath state stats m = .ok (b, s', m₁, stats₁) ∧
      runCalls m₁ stats₁ rest = .ok r := by
  simp only [runCalls] at ok
  rcases called : executeFastpath state stats m with fault | ⟨b, s', m₁, stats₁⟩
  · rw [called] at ok
    cases ok
  · rw [called] at ok
    exact ⟨b, s', m₁, stats₁, rfl, ok⟩

/-- Over any run that does not fault, the queues stay well formed, the
counters stay balanced, and each call is counted once. -/
theorem runCalls_invariants {st : FastpathStats} {calls : List State}
    {stats' : Option FastpathStats} (wf : m.Wf) (h : st.Balanced)
    (ok : runCalls m (some st) calls = .ok (m', stats')) :
    m'.Wf ∧ ∃ st', stats' = some st' ∧ st'.Balanced ∧
      st'.calls = st.calls + UInt64.ofNat calls.length := by
  induction calls generalizing m st with
  | nil =>
    cases ok
    exact ⟨wf, st, rfl, h, by simp⟩
  | cons state rest ih =>
    obtain ⟨b, s', m₁, stats₁, called, rest_ok⟩ := runCalls_cons_eq_ok ok
    obtain ⟨st₁, rfl, h₁, counted⟩ := executeFastpath_stats h called
    obtain ⟨wf', st', rfl, h', counted'⟩ := ih (wf.executeFastpath called) h₁ rest_ok
    refine ⟨wf', st', rfl, h', ?_⟩
    rw [counted', counted, List.length_cons, UInt64.ofNat_add, UInt64.ofNat_one, add_assoc,
      add_comm 1]

theorem runCalls_invariants_of_test_calls :
    Machine.init.Wf ∧ FastpathStats.init.Balanced ∧
      ∃ m' stats', runCalls Machine.init (some .init) [testState 0, testState 0] = .ok (m', stats') ∧
        m'.Wf ∧ ∃ st', stats' = some st' ∧ st'.Balanced ∧ st'.calls = FastpathStats.init.calls + UInt64.ofNat 2 := by
  have balanced : FastpathStats.init.Balanced := ⟨by simp [FastpathStats.init], rfl⟩
  obtain ⟨⟨m', stats'⟩, ran⟩ : ∃ r, runCalls Machine.init (some .init) [testState 0, testState 0] = .ok r := ⟨_, rfl⟩
  exact ⟨Machine.wf_init, balanced, m', stats', ran, runCalls_invariants Machine.wf_init balanced ran⟩

end Run

end Xinim.Fastpath
