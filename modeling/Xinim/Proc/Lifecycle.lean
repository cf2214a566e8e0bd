import Xinim.Proc.Group

/-! The process life cycle of the x86_64 kernel: `sys_fork` and `sys_wait4`
(kernel/syscalls/process_mgmt.cpp) and `sys_exit` (kernel/syscalls/basic.cpp).
The repository declares `allocate_process` without defining it, so `sys_fork`
takes the pid of the PCB it returns and the fields `sys_fork` leaves unset as
arguments. The stack copies, the file table and the user copy of the status are
taken to succeed. A `sys_wait4` that blocks returns no value after its
`schedule()`; its retry is `sys_wait4` again. -/

namespace Xinim.Proc
open Intrusive

def eChild : ℤ := 10

def eNoSys : ℤ := 38

namespace Kernel

/-- The PCB `allocate_process` returns, entered under `pid` with the fields
`sys_fork` leaves as they come; it sets every other field itself. -/
def allocateProcess (k : Kernel) (pid : Pid) (pcb : NewPcb) : Kernel :=
  { k with
    pcbs := pid :: k.pcbs
    signalState := Function.update k.signalState pid pcb.signalState
    pgid := Function.update k.pgid pid pcb.pgid
    sid := Function.update k.sid pid pcb.sid
    pgNext := Function.update k.pgNext pid pcb.pgNext
    pgPrev := Function.update k.pgPrev pid pcb.pgPrev }

/-- `sys_fork` with `child` the pid of the allocated PCB: it joins no process
group or session and gets no signal state of its own. -/
def sysFork (k : Kernel) (child : Pid) (pcb : NewPcb) : Kernel × ℤ :=
  match k.gCurrentProcess with
  | none => (k, -eSrch)
  | some parent =>
    let k := k.allocateProcess child pcb
    let k := { k with
      state := Function.update k.state child .ready
      context := Function.update k.context child { k.context parent with rax := 0 }
      parentPid := Function.update k.parentPid child parent
      children := Function.update k.children child []
      hasExited := Function.update k.hasExited child false
      hasBeenWaited := Function.update k.hasBeenWaited child false
      exitStatus := Function.update k.exitStatus child 0 }
    let k := { k with children := Function.update k.children parent (child :: k.children parent) }
    let k := { k with
      timeQuantumStart := Function.update k.timeQuantumStart child 0
      blockedOn := Function.update k.blockedOn child .none
      ipcWaitSource := Function.update k.ipcWaitSource child 0 }
    (k.schedulerAddProcess child, child)

/-- One step of the reparenting loop of `sys_exit`: the child, if found, gets
init (pid 1) as parent and a node on init's list, if init is found. -/
def reparentToInit (k : Kernel) (child : Pid) : Kernel :=
  match k.findProcessByPid child with
  | none => k
  | some childPcb =>
    let k := { k with parentPid := Function.update k.parentPid childPcb 1 }
    match k.findProcessByPid 1 with
    | some init => { k with children := Function.update k.children init (childPcb :: k.children init) }
    | none => k

/-- The wake-up of the parent in `sys_exit`: SIGCHLD, and READY again if it
waits for a child; nothing puts it on the ready queue. -/
def notifyParent (k : Kernel) (current : Pid) : Kernel :=
  if k.parentPid current = 0 then k
  else
    match k.findProcessByPid (k.parentPid current) with
    | none => k
    | some parent =>
      let k := (k.sendSignal parent sigChld).1
      if k.state parent = .blocked ∧ k.blockedOn parent = .waitChild then
        { k with
          state := Function.update k.state parent .ready
          blockedOn := Function.update k.blockedOn parent .none }
      else k

/-- `sys_exit`; without a current process the CPU halts. -/
def sysExit (k : Kernel) (status : UInt64) : Kernel :=
  match k.gCurrentProcess with
  | none => { k with halted := true }
  | some current =>
    let k := { k with
      exitStatus := Function.update k.exitStatus current (toInt32 status.toNat)
      hasExited := Function.update k.hasExited current true }
    -- the loop runs over the child list as it was on entry
    let k := (k.children current).foldl reparentToInit k
    let k := k.removeFromProcessGroup current
    let k := k.notifyParent current
    let k := { k with state := Function.update k.state current .zombie }
    k.schedule

def reapable (k : Kernel) (pid : Pid) : Bool :=
  match k.findProcessByPid pid with
  | some child => k.state child = .zombie ∧ k.hasBeenWaited child = false
  | none => false

/-- `sys_wait4`: the pid it returns, with the status it stores when
`status_addr` is not null, or nothing when it blocked the caller. -/
def sysWait4 (k : Kernel) (pidArg statusAddr : UInt64) : Kernel × Option (ℤ × Option ℤ) :=
  match k.gCurrentProcess with
  | none => (k, some (-eSrch, none))
  | some parent =>
    if toPid pidArg ≠ -1 then (k, some (-eNoSys, none))
    else if k.children parent = [] then (k, some (-eChild, none))
    else
      match (k.children parent).find? k.reapable with
      | some child =>
        let status := if statusAddr ≠ 0 then some (toInt32 (k.exitStatus child * 2 ^ 8)) else none
        let k := { k with
          hasBeenWaited := Function.update k.hasBeenWaited child true
          children := Function.update k.children parent ((k.children parent).erase child)
          state := Function.update k.state child .dead }
        (k, some (child, status))
      | none =>
        let k := { k with
          state := Function.update k.state parent .blocked
          blockedOn := Function.update k.blockedOn parent .waitChild }
        (k.schedule, none)

variable {k : Kernel} {l : List Pid}

theorem Queued.reapable_eq_false (h : k.Queued l) (queuedAlive : ∀ p ∈ l, k.state p ≠ .zombie)
    (currentAlive : ∀ c, k.gCurrentProcess = some c → k.state c ≠ .zombie) (pid : Pid) :
    k.reapable pid = false := by
  unfold reapable
  rw [h.findProcessByPid]
  split_ifs with found
  · have alive : k.state pid ≠ .zombie := by
      rcases found with queued | current
      · exact queuedAlive pid queued
      · exact currentAlive pid current
    simp [alive]
  · rfl

theorem Queued.sysWait4_blocks (h : k.Queued l) (queuedAlive : ∀ p ∈ l, k.state p ≠ .zombie)
    (currentAlive : ∀ c, k.gCurrentProcess = some c → k.state c ≠ .zombie) {parent : Pid}
    (current : k.gCurrentProcess = some parent) (pidArg : UInt64) (anyChild : toPid pidArg = -1)
    (hasChildren : k.children parent ≠ []) (statusAddr : UInt64) :
    (k.sysWait4 pidArg statusAddr).2 = none := by
  have missed : (k.children parent).find? k.reapable = none :=
    List.find?_eq_none.mpr fun c _ => by simp [h.reapable_eq_false queuedAlive currentAlive c]
  simp [sysWait4, current, anyChild, hasChildren, missed]

end Kernel

def forkedChild : Kernel × ℤ := (Kernel.init.spawnServer 1 0 0).schedule.sysFork 2 .zeroed

/-- The child of a fork is in no process group and no session: its pgid and
sid are 0 while its parent's are 1, and as no group 1 exists,
`signal_process_group(1, SIGINT)` fails with -ESRCH although the live process 1
has pgid 1. -/
theorem fork_child_outside_parent_group :
    forkedChild.2 = 2 ∧ forkedChild.1.gCurrentProcess = some 1 ∧ forkedChild.1.pgid 1 = 1 ∧
      forkedChild.1.sid 1 = 1 ∧ forkedChild.1.pgid 2 = 0 ∧ forkedChild.1.sid 2 = 0 ∧
      forkedChild.1.findProcessGroup 1 = none ∧ (forkedChild.1.signalProcessGroup 1 2).2 = -eSrch := by
  decide

def exitedChild : Kernel := forkedChild.1.schedule.sysExit 5

/-- The exited child is a zombie no one has waited for, yet its parent's
`wait4(-1)` blocks, and as nothing else is ready the CPU halts. -/
theorem wait4_misses_zombie_child :
    exitedChild.gCurrentProcess = some 1 ∧ exitedChild.children 1 = [2] ∧ exitedChild.state 2 = .zombie ∧
      exitedChild.hasBeenWaited 2 = false ∧ (exitedChild.sysWait4 0xFFFFFFFFFFFFFFFF 0).2 = none ∧
      (exitedChild.sysWait4 0xFFFFFFFFFFFFFFFF 0).1.halted = true := by
  have current : exitedChild.gCurrentProcess = some 1 := by decide
  have queued : exitedChild.Queued [] := by
    refine ⟨by decide, fun _ _ => List.not_mem_nil, fun _ => by simp, fun c hc => ?_⟩
    rw [current, Option.some.injEq] at hc
    subst hc
    decide
  have currentAlive : ∀ c, exitedChild.gCurrentProcess = some c → exitedChild.state c ≠ .zombie := by
    intro c hc
    rw [current, Option.some.injEq] at hc
    subst hc
    decide
  have blocks := queued.sysWait4_blocks (fun _ => by simp) currentAlive current 0xFFFFFFFFFFFFFFFF (by decide)
    (by decide) 0
  exact ⟨current, by decide, by decide, by decide, blocks, by decide⟩

end Xinim.Proc
