import Mathlib.Data.List.Perm.Subperm
import Mathlib.Logic.Function.Iterate
import Xinim.Proc.Signal

/-! The round-robin scheduler of the x86_64 kernel (kernel/scheduler.cpp) and
the PCB creation of the server spawner (kernel/server_spawn.cpp). The ready
queue is linked through the PCBs' `next` and `prev` from `g_ready_queue_head`
to `g_ready_queue_tail`. `g_idle_process` is never assigned, so `schedule`
with an empty queue takes its fatal branch and the CPU halts. -/

namespace Xinim.Proc
open Intrusive

namespace Kernel

def readyQueueAdd (k : Kernel) (pcb : Pid) : Kernel :=
  let k := { k with
    state := Function.update k.state pcb .ready
    next := Function.update k.next pcb none
    prev := Function.update k.prev pcb k.gReadyQueueTail }
  let k := match k.gReadyQueueTail with
    | some tail => { k with next := Function.update k.next tail (some pcb) }
    | none => { k with gReadyQueueHead := some pcb }
  { k with gReadyQueueTail := some pcb }

def readyQueueRemove (k : Kernel) (pcb : Pid) : Kernel :=
  let k := match k.prev pcb with
    | some p => { k with next := Function.update k.next p (k.next pcb) }
    | none => { k with gReadyQueueHead := k.next pcb }
  let k := match k.next pcb with
    | some n => { k with prev := Function.update k.prev n (k.prev pcb) }
    | none => { k with gReadyQueueTail := k.prev pcb }
  { k with next := Function.update k.next pcb none, prev := Function.update k.prev pcb none }

def readyQueuePop (k : Kernel) : Kernel × Option Pid :=
  match k.gReadyQueueHead with
  | none => (k, none)
  | some pcb => (k.readyQueueRemove pcb, some pcb)

/-- `g_idle_process`, which nothing assigns. -/
def gIdleProcess : Option Pid := none

def pickNextProcess (k : Kernel) : Kernel × Option Pid :=
  match k.readyQueuePop with
  | (k, some next) => (k, some next)
  | (k, none) => (k, gIdleProcess)

/-- The start of `switch_to`: a current process that is still RUNNING goes
back on the ready queue. -/
def requeueCurrent (k : Kernel) : Kernel :=
  match k.gCurrentProcess with
  | some current => if k.state current = ProcessState.running then k.readyQueueAdd current else k
  | none => k

/-- `switch_to(next)`; the kernel stack and the register switch are not
modelled. -/
def switchTo (k : Kernel) (next : Pid) : Kernel :=
  if k.gCurrentProcess = some next then k
  else
    let k := k.requeueCurrent
    let k := { k with
      state := Function.update k.state next .running
      timeQuantumStart := Function.update k.timeQuantumStart next k.gTicks
      gCurrentProcess := some next }
    if (k.context next).cs = 0x23 ∨ (k.context next).cs = 0x1B then (k.deliverPendingSignals next).1 else k

def schedule (k : Kernel) : Kernel :=
  let k := { k with gTicks := k.gTicks + 1 }
  match k.pickNextProcess with
  | (k, none) => { k with halted := true }
  | (k, some next) => k.switchTo next

def schedulerAddProcess (k : Kernel) (pcb : Pid) : Kernel := k.readyQueueAdd pcb

def blockCurrentProcess (k : Kernel) (reason : BlockReason) (waitSource : Pid) : Kernel :=
  match k.gCurrentProcess with
  | none => k
  | some current =>
    let k := { k with
      state := Function.update k.state current .blocked
      blockedOn := Function.update k.blockedOn current reason
      ipcWaitSource := Function.update k.ipcWaitSource current waitSource }
    k.schedule

def unblockProcess (k : Kernel) (pcb : Pid) : Kernel :=
  if k.state pcb ≠ .blocked then k
  else
    let k := { k with
      state := Function.update k.state pcb .ready
      blockedOn := Function.update k.blockedOn pcb .none }
    k.readyQueueAdd pcb

/-- `find_process_by_pid`: the ready queue from its head, then the current
process. The loop along `next` is bounded by the number of PCBs. -/
def findProcessByPid (k : Kernel) (pid : Pid) : Option Pid :=
  match (walk k.next k.pcbs.length k.gReadyQueueHead).find? (· = pid) with
  | some pcb => some pcb
  | none => if k.gCurrentProcess = some pid then k.gCurrentProcess else none

/-- `create_pcb_with_pid`: a new PCB that is its own group and session leader,
with its signal state initialised. The fields it leaves alone keep what the
allocation held. -/
def createPcbWithPid (k : Kernel) (pid : Pid) : Kernel :=
  let k := { k with
    pcbs := pid :: k.pcbs
    state := Function.update k.state pid .created
    next := Function.update k.next pid none
    exitStatus := Function.update k.exitStatus pid 0
    parentPid := Function.update k.parentPid pid 0
    children := Function.update k.children pid []
    hasExited := Function.update k.hasExited pid false
    hasBeenWaited := Function.update k.hasBeenWaited pid false
    pgid := Function.update k.pgid pid pid
    sid := Function.update k.sid pid pid
    pgNext := Function.update k.pgNext pid none
    pgPrev := Function.update k.pgPrev pid none
    context := Function.update k.context pid .zero }
  k.initSignalState pid

/-- `spawn_server` of a server with a well-known pid, run in ring 3; the
stack allocations are taken to succeed. -/
def spawnServer (k : Kernel) (pid : Pid) (entryPoint stackTop : UInt64) : Kernel :=
  let k := k.createPcbWithPid pid
  let k := { k with
    state := Function.update k.state pid .ready
    context := Function.update k.context pid <| CpuContext.initialize entryPoint stackTop 3 }
  k.schedulerAddProcess pid

section Queue

variable (k : Kernel) (pcb : Pid)

theorem readyQueue_readyQueueAdd : (k.readyQueueAdd pcb).readyQueue = k.readyQueue.pushBack pcb := by
  unfold readyQueueAdd readyQueue Ptrs.pushBack
  cases k.gReadyQueueTail <;> rfl

theorem readyQueue_readyQueueRemove : (k.readyQueueRemove pcb).readyQueue = k.readyQueue.unlink pcb := by
  have nextSame : (match k.prev pcb with
      | some p => Function.update k.next p (k.next pcb)
      | none => k.next) pcb = k.next pcb := by
    cases k.prev pcb with
    | none => rfl
    | some p => by_cases same : pcb = p <;> simp [same]
  unfold readyQueueRemove readyQueue Ptrs.unlink
  cases hp : k.prev pcb <;> cases hn : k.next pcb <;> simp_all

theorem readyQueueAdd_eq : k.readyQueueAdd pcb = { k with
    state := Function.update k.state pcb .ready
    next := (k.readyQueueAdd pcb).next
    prev := (k.readyQueueAdd pcb).prev
    gReadyQueueHead := (k.readyQueueAdd pcb).gReadyQueueHead
    gReadyQueueTail := (k.readyQueueAdd pcb).gReadyQueueTail } := by
  unfold readyQueueAdd
  cases k.gReadyQueueTail <;> rfl

theorem readyQueueRemove_eq : k.readyQueueRemove pcb = { k with
    next := (k.readyQueueRemove pcb).next
    prev := (k.readyQueueRemove pcb).prev
    gReadyQueueHead := (k.readyQueueRemove pcb).gReadyQueueHead
    gReadyQueueTail := (k.readyQueueRemove pcb).gReadyQueueTail } := by
  unfold readyQueueRemove
  dsimp only
  split <;> split <;> rfl

@[simp] theorem state_readyQueueAdd : (k.readyQueueAdd pcb).state = Function.update k.state pcb .ready := by
  rw [readyQueueAdd_eq]

@[simp] theorem state_readyQueueRemove : (k.readyQueueRemove pcb).state = k.state := by
  rw [readyQueueRemove_eq]

@[simp] theorem current_readyQueueAdd : (k.readyQueueAdd pcb).gCurrentProcess = k.gCurrentProcess := by
  rw [readyQueueAdd_eq]

@[simp] theorem current_readyQueueRemove : (k.readyQueueRemove pcb).gCurrentProcess = k.gCurrentProcess := by
  rw [readyQueueRemove_eq]

@[simp] theorem pcbs_readyQueueAdd : (k.readyQueueAdd pcb).pcbs = k.pcbs := by
  rw [readyQueueAdd_eq]

@[simp] theorem pcbs_readyQueueRemove : (k.readyQueueRemove pcb).pcbs = k.pcbs := by
  rw [readyQueueRemove_eq]

@[simp] theorem context_readyQueueAdd : (k.readyQueueAdd pcb).context = k.context := by
  rw [readyQueueAdd_eq]

@[simp] theorem halted_readyQueueAdd : (k.readyQueueAdd pcb).halted = k.halted := by
  rw [readyQueueAdd_eq]

@[simp] theorem halted_readyQueueRemove : (k.readyQueueRemove pcb).halted = k.halted := by
  rw [readyQueueRemove_eq]

end Queue

/-- The ready queue is the well-formed list `l` of allocated PCBs, and the
current process is allocated and not on it. -/
structure Queued (k : Kernel) (l : List Pid) : Prop where
  queue : k.readyQueue.Queue l
  current_off : ∀ c, k.gCurrentProcess = some c → c ∉ l
  allocated : ∀ p ∈ l, p ∈ k.pcbs
  current_allocated : ∀ c, k.gCurrentProcess = some c → c ∈ k.pcbs

/-- What the scheduler keeps: a PCB is on the ready queue exactly when it is
READY. -/
structure ReadyExact (k : Kernel) (l : List Pid) : Prop extends k.Queued l where
  ready_iff : ∀ p, p ∈ l ↔ k.state p = .ready

def CurrentRuns (k : Kernel) : Prop :=
  k.halted = false → ∀ c, k.gCurrentProcess = some c → k.state c ≠ .blocked

variable {k : Kernel} {l : List Pid} {next : Pid}

theorem Queued.readyQueueAdd (h : k.Queued l) {pcb : Pid} (off : pcb ∉ l) (notCurrent : k.gCurrentProcess ≠ some pcb)
    (allocated : pcb ∈ k.pcbs) : (k.readyQueueAdd pcb).Queued (l ++ [pcb]) where
  queue := by
    rw [readyQueue_readyQueueAdd]
    exact h.queue.pushBack off
  current_off c current := by
    rw [current_readyQueueAdd] at current
    have other : c ≠ pcb := fun same => notCurrent (same ▸ current)
    simpa [other] using h.current_off c current
  allocated p mem := by
    rw [pcbs_readyQueueAdd]
    rcases List.mem_append.mp mem with mem | same
    · exact h.allocated p mem
    · rw [List.mem_singleton.mp same]
      exact allocated
  current_allocated c current := by
    rw [pcbs_readyQueueAdd]
    exact h.current_allocated c (by rwa [current_readyQueueAdd] at current)

theorem Queued.readyQueuePop {x : Pid} {rest : List Pid} (h : k.Queued (x :: rest)) :
    k.readyQueuePop = (k.readyQueueRemove x, some x) ∧ (k.readyQueueRemove x).Queued rest := by
  have head : k.gReadyQueueHead = some x := h.queue.head_eq
  have queue := h.queue.unlink List.mem_cons_self
  rw [List.erase_cons_head, ← readyQueue_readyQueueRemove] at queue
  refine ⟨by simp [Kernel.readyQueuePop, head], queue, fun c current => ?_, fun p mem => ?_, fun c current => ?_⟩
  · rw [current_readyQueueRemove] at current
    exact fun mem => h.current_off c current (List.mem_cons_of_mem x mem)
  · rw [pcbs_readyQueueRemove]
    exact h.allocated p (List.mem_cons_of_mem x mem)
  · rw [pcbs_readyQueueRemove]
    exact h.current_allocated c (by rwa [current_readyQueueRemove] at current)

theorem readyQueuePop_of_nil (h : k.Queued []) : k.readyQueuePop = (k, none) := by
  have head : k.gReadyQueueHead = none := h.queue.head_eq
  simp [Kernel.readyQueuePop, head]

def requeue (k : Kernel) : List Pid :=
  match k.gCurrentProcess with
  | some c => if k.state c = .running then [c] else []
  | none => []

theorem requeueCurrent_of_running {c : Pid} (current : k.gCurrentProcess = some c)
    (running : k.state c = .running) : k.requeueCurrent = k.readyQueueAdd c ∧ k.requeue = [c] := by
  simp [requeueCurrent, requeue, current, running]

theorem requeueCurrent_of_not_running (idle : ∀ c, k.gCurrentProcess = some c → k.state c ≠ .running) :
    k.requeueCurrent = k ∧ k.requeue = [] := by
  unfold requeueCurrent requeue
  cases current : k.gCurrentProcess with
  | none => exact ⟨rfl, rfl⟩
  | some c => simp [idle c current]

theorem Queued.requeueCurrent (h : k.Queued l) :
    k.requeueCurrent.readyQueue.Queue (l ++ k.requeue) ∧ k.requeueCurrent.pcbs = k.pcbs ∧
      k.requeueCurrent.gCurrentProcess = k.gCurrentProcess ∧ k.requeueCurrent.halted = k.halted ∧
      ∀ p, k.requeueCurrent.state p = if p ∈ k.requeue then .ready else k.state p := by
  by_cases put : ∃ c, k.gCurrentProcess = some c ∧ k.state c = .running
  · obtain ⟨c, current, running⟩ := put
    obtain ⟨eq, requeued⟩ := requeueCurrent_of_running current running
    rw [eq, requeued, readyQueue_readyQueueAdd]
    refine ⟨h.queue.pushBack (h.current_off c current), pcbs_readyQueueAdd k c, current_readyQueueAdd k c,
      halted_readyQueueAdd k c, fun p => ?_⟩
    by_cases same : p = c <;> simp [same]
  · obtain ⟨eq, requeued⟩ := requeueCurrent_of_not_running fun c current running => put ⟨c, current, running⟩
    rw [eq, requeued, List.append_nil]
    exact ⟨h.queue, rfl, rfl, rfl, fun p => by simp⟩

theorem switchTo_frame (notCurrent : k.gCurrentProcess ≠ some next) :
    (k.switchTo next).readyQueue = k.requeueCurrent.readyQueue ∧
      (k.switchTo next).gCurrentProcess = some next ∧
      (k.switchTo next).pcbs = k.requeueCurrent.pcbs ∧
      (k.switchTo next).halted = k.requeueCurrent.halted ∧
      ∃ s, DeliveredState .running s ∧
        (k.switchTo next).state = Function.update k.requeueCurrent.state next s := by
  unfold switchTo
  rw [if_neg notCurrent]
  dsimp only
  split_ifs
  · obtain ⟨queue, current, pcbs, halted, s, delivered, state⟩ := deliverPendingSignals_frame
      { k.requeueCurrent with
        state := Function.update k.requeueCurrent.state next .running
        timeQuantumStart := Function.update k.requeueCurrent.timeQuantumStart next k.requeueCurrent.gTicks
        gCurrentProcess := some next } next
    refine ⟨queue, current, pcbs, halted, s, by simpa using delivered, ?_⟩
    rw [state]
    simp
  · exact ⟨rfl, rfl, rfl, rfl, .running, Or.inl rfl, rfl⟩

theorem Queued.of_eq (h : k.Queued l) {k' : Kernel} (queue : k'.readyQueue = k.readyQueue)
    (current : k'.gCurrentProcess = k.gCurrentProcess) (pcbs : k'.pcbs = k.pcbs) : k'.Queued l where
  queue := queue ▸ h.queue
  current_off c hc := h.current_off c (current ▸ hc)
  allocated p mem := pcbs ▸ h.allocated p mem
  current_allocated c hc := pcbs ▸ h.current_allocated c (current ▸ hc)

theorem ReadyExact.of_eq (h : k.ReadyExact l) {k' : Kernel} (queue : k'.readyQueue = k.readyQueue)
    (current : k'.gCurrentProcess = k.gCurrentProcess) (pcbs : k'.pcbs = k.pcbs) (state : k'.state = k.state) :
    k'.ReadyExact l :=
  ⟨h.toQueued.of_eq queue current pcbs, fun p => state ▸ h.ready_iff p⟩

theorem eq_current_of_mem_requeue {p : Pid} (mem : p ∈ k.requeue) : k.gCurrentProcess = some p := by
  unfold requeue at mem
  split at mem
  · next c current =>
    split_ifs at mem with running
    · rw [List.mem_singleton.mp mem]
      exact current
    · cases mem
  · cases mem

theorem DeliveredState.ne_ready {s : ProcessState} (h : DeliveredState .running s) : s ≠ .ready := by
  rcases h with rfl | rfl | rfl | ⟨stopped, -⟩ <;> simp_all

theorem DeliveredState.ne_blocked {s : ProcessState} (h : DeliveredState .running s) : s ≠ .blocked := by
  rcases h with rfl | rfl | rfl | ⟨stopped, -⟩ <;> simp_all

theorem Queued.schedule_nil (h : k.Queued []) :
    k.schedule = { k with gTicks := k.gTicks + 1, halted := true } := by
  have ticked : ({ k with gTicks := k.gTicks + 1 } : Kernel).Queued [] := h.of_eq rfl rfl rfl
  have pop := readyQueuePop_of_nil ticked
  simp only [Kernel.schedule, pickNextProcess, pop, gIdleProcess]

theorem Queued.schedule_cons {x : Pid} {rest : List Pid} (h : k.Queued (x :: rest)) :
    k.schedule.gCurrentProcess = some x ∧
      ∃ back, k.schedule.Queued (rest ++ back) ∧ (∀ q ∈ back, k.gCurrentProcess = some q) ∧
        (∀ p, p ≠ x → k.schedule.state p = if p ∈ back then .ready else k.state p) ∧
        DeliveredState .running (k.schedule.state x) := by
  have ticked : ({ k with gTicks := k.gTicks + 1 } : Kernel).Queued (x :: rest) := h.of_eq rfl rfl rfl
  obtain ⟨pop, queued⟩ := ticked.readyQueuePop
  set k₂ := ({ k with gTicks := k.gTicks + 1 } : Kernel).readyQueueRemove x with k₂_def
  have eq : k.schedule = k₂.switchTo x := by
    simp only [Kernel.schedule, pickNextProcess, pop, k₂_def]
  have stateSame : k₂.state = k.state := state_readyQueueRemove _ x
  have currentSame : k₂.gCurrentProcess = k.gCurrentProcess := current_readyQueueRemove _ x
  have notCurrent : k₂.gCurrentProcess ≠ some x := fun current =>
    h.current_off x (currentSame ▸ current) List.mem_cons_self
  have xNotRest : x ∉ rest := (List.nodup_cons.mp h.queue.nodup).1
  obtain ⟨queue, current, pcbs, -, s, delivered, state⟩ := switchTo_frame notCurrent
  obtain ⟨requeued, rpcbs, -, -, rstate⟩ := queued.requeueCurrent
  have notRequeued : x ∉ k₂.requeue := fun mem => notCurrent (eq_current_of_mem_requeue mem)
  rw [eq]
  refine ⟨current, k₂.requeue, ⟨?_, ?_, ?_, ?_⟩, fun q mem => currentSame ▸ eq_current_of_mem_requeue mem,
    fun p other => ?_, ?_⟩
  · rw [queue]
    exact requeued
  · intro c hc
    rw [current, Option.some.injEq] at hc
    subst hc
    simp [xNotRest, notRequeued]
  · intro p mem
    rw [pcbs, rpcbs]
    rcases List.mem_append.mp mem with mem | mem
    · exact queued.allocated p mem
    · exact queued.current_allocated p (eq_current_of_mem_requeue mem)
  · intro c hc
    rw [current, Option.some.injEq] at hc
    subst hc
    rw [pcbs, rpcbs, pcbs_readyQueueRemove]
    exact h.allocated x List.mem_cons_self
  · rw [state, Function.update_of_ne other, rstate, stateSame]
  · rw [state, Function.update_self]
    exact delivered

theorem ReadyExact.schedule_cons {x : Pid} {rest : List Pid} (h : k.ReadyExact (x :: rest)) :
    k.schedule.gCurrentProcess = some x ∧
      ∃ back, k.schedule.ReadyExact (rest ++ back) ∧ k.schedule.CurrentRuns := by
  obtain ⟨current, back, queued, backCurrent, state, delivered⟩ := h.toQueued.schedule_cons
  have xNotRest : x ∉ rest := (List.nodup_cons.mp h.queue.nodup).1
  have notBack : x ∉ back := fun mem => h.current_off x (backCurrent x mem) List.mem_cons_self
  refine ⟨current, back, ⟨queued, fun p => ?_⟩, ?_⟩
  · by_cases same : p = x
    · subst same
      simp [xNotRest, notBack, delivered.ne_ready]
    · rw [state p same]
      by_cases requeued : p ∈ back
      · simp [requeued]
      · simpa [requeued, same] using h.ready_iff p
  · intro _ c hc
    rw [current, Option.some.injEq] at hc
    subst hc
    exact delivered.ne_blocked

theorem ReadyExact.schedule (h : k.ReadyExact l) : ∃ l', k.schedule.ReadyExact l' ∧ k.schedule.CurrentRuns := by
  cases l with
  | nil =>
    rw [h.toQueued.schedule_nil]
    exact ⟨[], h.of_eq rfl rfl rfl rfl, fun running => by cases running⟩
  | cons x rest =>
    obtain ⟨-, back, exact, runs⟩ := h.schedule_cons
    exact ⟨rest ++ back, exact, runs⟩

theorem ReadyExact.picked_in_turn {p : Pid} (pre : List Pid) :
    ∀ {k : Kernel} {post : List Pid}, k.ReadyExact (pre ++ p :: post) →
      (Nat.iterate Kernel.schedule (pre.length + 1) k).gCurrentProcess = some p := by
  induction pre with
  | nil =>
    intro k post h
    exact h.schedule_cons.1
  | cons x pre ih =>
    intro k post h
    rw [List.cons_append] at h
    obtain ⟨-, back, exact, -⟩ := ReadyExact.schedule_cons h
    rw [List.append_assoc, List.cons_append] at exact
    rw [List.length_cons, Function.iterate_succ_apply]
    exact ih exact

theorem find?_eq_ite (l : List Pid) (pid : Pid) : l.find? (· = pid) = if pid ∈ l then some pid else none := by
  induction l with
  | nil => simp
  | cons x rest ih =>
    by_cases same : x = pid
    · simp [same]
    · have other : pid ≠ x := fun h => same h.symm
      simp [same, ih, other]

theorem Queued.findProcessByPid (h : k.Queued l) (pid : Pid) :
    k.findProcessByPid pid = if pid ∈ l ∨ k.gCurrentProcess = some pid then some pid else none := by
  have walked : walk k.next k.pcbs.length k.gReadyQueueHead = l :=
    h.queue.walk_head (List.Nodup.subperm h.queue.nodup h.allocated).length_le
  unfold Kernel.findProcessByPid
  rw [walked, find?_eq_ite]
  by_cases queued : pid ∈ l
  · simp [queued]
  · by_cases current : k.gCurrentProcess = some pid <;> simp [queued, current]

theorem Queued.schedule_stranded {p : Pid} (h : k.Queued l) (off : p ∉ l) (notCurrent : k.gCurrentProcess ≠ some p) :
    ∃ l', k.schedule.Queued l' ∧ p ∉ l' ∧ k.schedule.gCurrentProcess ≠ some p ∧ k.schedule.state p = k.state p := by
  cases l with
  | nil =>
    rw [h.schedule_nil]
    exact ⟨[], h.of_eq rfl rfl rfl, off, notCurrent, rfl⟩
  | cons x rest =>
    obtain ⟨current, back, queued, backCurrent, state, -⟩ := h.schedule_cons
    have other : p ≠ x := fun same => off (same ▸ List.mem_cons_self)
    have notBack : p ∉ back := fun mem => notCurrent (backCurrent p mem)
    have notRest : p ∉ rest := fun mem => off (List.mem_cons_of_mem x mem)
    refine ⟨rest ++ back, queued, ?_, ?_, ?_⟩
    · simp [notRest, notBack]
    · rw [current]
      exact fun same => other (Option.some.inj same).symm
    · rw [state p other, if_neg notBack]

theorem Queued.never_picked {p : Pid} (n : ℕ) :
    ∀ {k : Kernel} {l : List Pid}, k.Queued l → p ∉ l → k.gCurrentProcess ≠ some p →
      (Nat.iterate Kernel.schedule n k).gCurrentProcess ≠ some p ∧
        (Nat.iterate Kernel.schedule n k).state p = k.state p := by
  induction n with
  | zero => exact fun _ _ notCurrent => ⟨notCurrent, rfl⟩
  | succ n ih =>
    intro k l h off notCurrent
    obtain ⟨l', queued, off', notCurrent', state⟩ := h.schedule_stranded off notCurrent
    obtain ⟨never, same⟩ := ih queued off' notCurrent'
    rw [Function.iterate_succ_apply]
    exact ⟨never, same.trans state⟩

theorem ReadyExact.block {k₁ : Kernel} {c : Pid} (h : k.ReadyExact l) (current : k.gCurrentProcess = some c)
    (queue : k₁.readyQueue.Queue l) (current₁ : k₁.gCurrentProcess = k.gCurrentProcess) (pcbs : k₁.pcbs = k.pcbs)
    (state : k₁.state = Function.update k.state c .blocked) : k₁.ReadyExact l where
  queue := queue
  current_off c' hc := h.current_off c' (current₁ ▸ hc)
  allocated p mem := pcbs ▸ h.allocated p mem
  current_allocated c' hc := pcbs ▸ h.current_allocated c' (current₁ ▸ hc)
  ready_iff p := by
    rw [state]
    by_cases same : p = c
    · subst same
      simp [h.current_off p current]
    · simpa [same] using h.ready_iff p

theorem ReadyExact.blockCurrentProcess (h : k.ReadyExact l) (runs : k.CurrentRuns) (reason : BlockReason)
    (waitSource : Pid) :
    ∃ l', (k.blockCurrentProcess reason waitSource).ReadyExact l' ∧
      (k.blockCurrentProcess reason waitSource).CurrentRuns := by
  unfold Kernel.blockCurrentProcess
  cases current : k.gCurrentProcess with
  | none => exact ⟨l, h, runs⟩
  | some c =>
    dsimp only
    apply ReadyExact.schedule
    exact h.block current h.queue current.symm rfl rfl

theorem ReadyExact.readyQueueAdd {k₁ : Kernel} {pcb : Pid} (h : k.ReadyExact l) (queued : k₁.Queued l)
    (agree : ∀ p, p ≠ pcb → k₁.state p = k.state p) (off : pcb ∉ l)
    (notCurrent : k₁.gCurrentProcess ≠ some pcb) (allocated : pcb ∈ k₁.pcbs) :
    (k₁.readyQueueAdd pcb).ReadyExact (l ++ [pcb]) where
  toQueued := queued.readyQueueAdd off notCurrent allocated
  ready_iff p := by
    rw [state_readyQueueAdd]
    by_cases same : p = pcb
    · subst same
      simp
    · rw [Function.update_of_ne same, agree p same, ← h.ready_iff p]
      simp [same]

theorem CurrentRuns.readyQueueAdd {k₁ : Kernel} {pcb : Pid} (runs : k.CurrentRuns) (halted : k₁.halted = k.halted)
    (current : k₁.gCurrentProcess = k.gCurrentProcess) (agree : ∀ p, p ≠ pcb → k₁.state p = k.state p)
    (notCurrent : k.gCurrentProcess ≠ some pcb) : (k₁.readyQueueAdd pcb).CurrentRuns := by
  intro notHalted c hc
  rw [halted_readyQueueAdd, halted] at notHalted
  rw [current_readyQueueAdd, current] at hc
  have other : c ≠ pcb := fun same => notCurrent (same ▸ hc)
  rw [state_readyQueueAdd, Function.update_of_ne other, agree c other]
  exact runs notHalted c hc

theorem ReadyExact.unblockProcess (h : k.ReadyExact l) (runs : k.CurrentRuns) (running : k.halted = false)
    {pcb : Pid} (allocated : pcb ∈ k.pcbs) :
    ∃ l', (k.unblockProcess pcb).ReadyExact l' ∧ (k.unblockProcess pcb).CurrentRuns := by
  unfold Kernel.unblockProcess
  split_ifs with notBlocked
  · exact ⟨l, h, runs⟩
  · have blocked : k.state pcb = .blocked := not_not.mp notBlocked
    have off : pcb ∉ l := fun mem => by simp [(h.ready_iff pcb).mp mem] at blocked
    have notCurrent : k.gCurrentProcess ≠ some pcb := fun current => runs running pcb current blocked
    have agree : ∀ p, p ≠ pcb → Function.update k.state pcb .ready p = k.state p :=
      fun p other => Function.update_of_ne other _ _
    exact ⟨l ++ [pcb], h.readyQueueAdd (h.toQueued.of_eq rfl rfl rfl) agree off notCurrent allocated,
      runs.readyQueueAdd rfl rfl agree notCurrent⟩

theorem ReadyExact.schedulerAddProcess (h : k.ReadyExact l) (runs : k.CurrentRuns) {pcb : Pid}
    (allocated : pcb ∈ k.pcbs) (notQueued : k.state pcb ≠ .ready) (notCurrent : k.gCurrentProcess ≠ some pcb) :
    (k.schedulerAddProcess pcb).ReadyExact (l ++ [pcb]) ∧ (k.schedulerAddProcess pcb).CurrentRuns := by
  have off : pcb ∉ l := fun mem => notQueued ((h.ready_iff pcb).mp mem)
  exact ⟨h.readyQueueAdd h.toQueued (fun _ _ => rfl) off notCurrent allocated,
    runs.readyQueueAdd rfl rfl (fun _ _ => rfl) notCurrent⟩

theorem ReadyExact.spawnServer (h : k.ReadyExact l) (runs : k.CurrentRuns) {pid : Pid} (fresh : pid ∉ k.pcbs)
    (entryPoint stackTop : UInt64) :
    (k.spawnServer pid entryPoint stackTop).ReadyExact (l ++ [pid]) ∧
      (k.spawnServer pid entryPoint stackTop).CurrentRuns := by
  have off : pid ∉ l := fun mem => fresh (h.allocated pid mem)
  have notCurrent : k.gCurrentProcess ≠ some pid := fun current => fresh (h.current_allocated pid current)
  set k₂ : Kernel := { k.createPcbWithPid pid with
    state := Function.update (k.createPcbWithPid pid).state pid .ready
    context := Function.update (k.createPcbWithPid pid).context pid
      <| CpuContext.initialize entryPoint stackTop 3 }
  have agree : ∀ p, p ≠ pid → k₂.state p = k.state p := by
    intro p other
    simp [k₂, createPcbWithPid, initSignalState, other]
  -- the new PCB only clears its own `next`, which no queued PCB is
  have queue : k₂.readyQueue.Queue l := h.queue.congr rfl rfl (fun y mem => by
      have other : y ≠ pid := fun same => off (same ▸ mem)
      simp [k₂, createPcbWithPid, initSignalState, readyQueue, other]) (fun _ _ => rfl)
  have queued : k₂.Queued l := ⟨queue, h.current_off,
    fun p mem => List.mem_cons_of_mem pid (h.allocated p mem),
    fun c current => List.mem_cons_of_mem pid (h.current_allocated c current)⟩
  have eq : k.spawnServer pid entryPoint stackTop = k₂.readyQueueAdd pid := rfl
  rw [eq]
  exact ⟨h.readyQueueAdd queued agree off notCurrent List.mem_cons_self,
    runs.readyQueueAdd rfl rfl agree notCurrent⟩

end Kernel

inductive SchedOp
  | spawnServer (pid : Pid) (entryPoint stackTop : UInt64)
  | schedulerAddProcess (pcb : Pid)
  | schedule
  | blockCurrentProcess (reason : BlockReason) (waitSource : Pid)
  | unblockProcess (pcb : Pid)
  deriving DecidableEq, Repr

namespace Kernel

def schedStep (k : Kernel) : SchedOp → Kernel
  | .spawnServer pid entryPoint stackTop => k.spawnServer pid entryPoint stackTop
  | .schedulerAddProcess pcb => k.schedulerAddProcess pcb
  | .schedule => k.schedule
  | .blockCurrentProcess reason waitSource => k.blockCurrentProcess reason waitSource
  | .unblockProcess pcb => k.unblockProcess pcb

/-- Once the CPU halts nothing runs any more. -/
def schedRun (k : Kernel) : List SchedOp → Kernel
  | [] => k
  | op :: ops => if k.halted then k else (k.schedStep op).schedRun ops

/-- A spawned pid is new; `scheduler_add_process` gets an allocated PCB that
is neither queued nor running; `unblock_process` an allocated PCB. -/
def SchedAdmissible (k : Kernel) : SchedOp → Prop
  | .spawnServer pid _ _ => pid ∉ k.pcbs
  | .schedulerAddProcess pcb => pcb ∈ k.pcbs ∧ k.state pcb ≠ .ready ∧ k.gCurrentProcess ≠ some pcb
  | .unblockProcess pcb => pcb ∈ k.pcbs
  | .schedule | .blockCurrentProcess _ _ => True

instance (k : Kernel) : (op : SchedOp) → Decidable (k.SchedAdmissible op)
  | .spawnServer pid _ _ => inferInstanceAs (Decidable (pid ∉ k.pcbs))
  | .schedulerAddProcess pcb =>
    inferInstanceAs (Decidable (pcb ∈ k.pcbs ∧ k.state pcb ≠ .ready ∧ k.gCurrentProcess ≠ some pcb))
  | .unblockProcess pcb => inferInstanceAs (Decidable (pcb ∈ k.pcbs))
  | .schedule | .blockCurrentProcess _ _ => isTrue trivial

def SchedAdmissibleRun : Kernel → List SchedOp → Prop
  | _, [] => True
  | k, op :: ops => k.halted = true ∨ (k.SchedAdmissible op ∧ (k.schedStep op).SchedAdmissibleRun ops)

instance decidableSchedAdmissibleRun : (k : Kernel) → (ops : List SchedOp) → Decidable (k.SchedAdmissibleRun ops)
  | _, [] => isTrue trivial
  | k, op :: ops =>
    haveI := decidableSchedAdmissibleRun (k.schedStep op) ops
    inferInstanceAs (Decidable (k.halted = true ∨ (k.SchedAdmissible op ∧ (k.schedStep op).SchedAdmissibleRun ops)))

theorem readyExact_init : Kernel.init.ReadyExact [] ∧ Kernel.init.CurrentRuns := by
  refine ⟨⟨⟨⟨⟨List.nodup_nil, rfl, trivial⟩, rfl⟩, ?_, ?_, ?_⟩, ?_⟩, ?_⟩
  all_goals simp [Kernel.init, CurrentRuns]

variable {k : Kernel} {l : List Pid}

theorem ReadyExact.schedStep (h : k.ReadyExact l) (runs : k.CurrentRuns) (running : k.halted = false)
    (op : SchedOp) (adm : k.SchedAdmissible op) :
    ∃ l', (k.schedStep op).ReadyExact l' ∧ (k.schedStep op).CurrentRuns := by
  cases op with
  | spawnServer pid entryPoint stackTop => exact ⟨_, h.spawnServer runs adm entryPoint stackTop⟩
  | schedulerAddProcess pcb => exact ⟨_, h.schedulerAddProcess runs adm.1 adm.2.1 adm.2.2⟩
  | schedule =>
    obtain ⟨l', exact, runs'⟩ := h.schedule
    exact ⟨l', exact, runs'⟩
  | blockCurrentProcess reason waitSource => exact h.blockCurrentProcess runs reason waitSource
  | unblockProcess pcb => exact h.unblockProcess runs running adm

theorem ReadyExact.schedRun (ops : List SchedOp) :
    ∀ {k : Kernel} {l : List Pid}, k.ReadyExact l → k.CurrentRuns → k.SchedAdmissibleRun ops →
      ∃ l', (k.schedRun ops).ReadyExact l' := by
  induction ops with
  | nil => exact fun h _ _ => ⟨_, h⟩
  | cons op ops ih =>
    intro k l h runs admissible
    unfold Kernel.schedRun
    split_ifs with halted
    · exact ⟨l, h⟩
    · have running : k.halted = false := by simpa using halted
      obtain ⟨adm, rest⟩ := admissible.resolve_left halted
      obtain ⟨l', exact, runs'⟩ := h.schedStep runs running op adm
      exact ih exact runs' rest

end Kernel

/-- Along every run of the scheduler's own interface from the initial kernel
(spawning new servers, adding PCBs that are neither queued nor running,
scheduling, blocking the current process and unblocking PCBs), the ready queue
is a well-formed, duplicate-free doubly linked list of exactly the READY
processes, without the current one; and the process `n` places down the
queue is the current one after `n + 1` calls of `schedule`. -/
theorem scheduler_keeps_ready_queue_exact (ops : List SchedOp)
    (admissible : Kernel.init.SchedAdmissibleRun ops) :
    ∃ l, (Kernel.init.schedRun ops).readyQueue.Queue l ∧
      (∀ p, p ∈ l ↔ (Kernel.init.schedRun ops).state p = .ready) ∧
      (∀ c, (Kernel.init.schedRun ops).gCurrentProcess = some c → c ∉ l) ∧
      ∀ pre p post, l = pre ++ p :: post →
        (Nat.iterate Kernel.schedule (pre.length + 1) (Kernel.init.schedRun ops)).gCurrentProcess = some p := by
  obtain ⟨l, h⟩ := Kernel.ReadyExact.schedRun ops Kernel.readyExact_init.1 Kernel.readyExact_init.2 admissible
  refine ⟨l, h.queue, h.ready_iff, h.current_off, fun pre p post split => ?_⟩
  rw [split] at h
  exact h.picked_in_turn pre

def threeServers : List SchedOp := [.spawnServer 1 0 0, .spawnServer 2 0 0, .spawnServer 3 0 0, .schedule]

theorem scheduler_keeps_ready_queue_exact_three_servers :
    Kernel.init.SchedAdmissibleRun threeServers ∧
      ∃ l, (Kernel.init.schedRun threeServers).readyQueue.Queue l ∧
        (∀ p, p ∈ l ↔ (Kernel.init.schedRun threeServers).state p = .ready) ∧
        (∀ c, (Kernel.init.schedRun threeServers).gCurrentProcess = some c → c ∉ l) ∧
        ∀ pre p post, l = pre ++ p :: post →
          (Nat.iterate Kernel.schedule (pre.length + 1) (Kernel.init.schedRun threeServers)).gCurrentProcess = some p :=
  have admissible : Kernel.init.SchedAdmissibleRun threeServers := by decide +kernel
  ⟨admissible, scheduler_keeps_ready_queue_exact threeServers admissible⟩

def oneServerRunning : Kernel := Kernel.init.schedRun [.spawnServer 1 0 0, .schedule]

/-- One server spawned and scheduled runs with an empty ready queue, and the
next `schedule()` halts the CPU: `pick_next_process` looks at the queue before
`switch_to` puts the running process back on it, and `g_idle_process` is never
set (`Kernel.Queued.schedule_nil`). -/
theorem schedule_halts_with_running_current :
    oneServerRunning.gCurrentProcess = some 1 ∧ oneServerRunning.state 1 = .running ∧
      oneServerRunning.gReadyQueueHead = none ∧ oneServerRunning.halted = false ∧
      oneServerRunning.schedule.halted = true := by
  decide

end Xinim.Proc
