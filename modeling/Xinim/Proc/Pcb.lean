import Mathlib
import Xinim.Core
import Xinim.Data.Intrusive

/-! The process control blocks of the x86_64 kernel (kernel/pcb.hpp) and the
globals of the scheduler and of the process-group table. A PCB is named by its
pid, and each field of the PCBs is one map from pid to value, so that an update
of one field of one PCB is one `Function.update` and leaves every other field
alone. The same holds for the process groups and sessions, named by the order
in which they were allocated. -/

namespace Xinim.Proc
open Intrusive

inductive ProcessState
  | created
  | ready
  | running
  | blocked
  | zombie
  | dead
  /-- Used by signal.cpp, not declared in pcb.hpp. -/
  | stopped
  deriving DecidableEq, Repr

inductive BlockReason
  | none
  | ipcRecv
  | ipcSend
  | timer
  | io
  | waitChild
  deriving DecidableEq, Repr

structure CpuContext where
  rax : UInt64
  rdi : UInt64
  rip : UInt64
  rsp : UInt64
  cs : UInt64
  deriving DecidableEq, Repr

def CpuContext.initialize (entryPoint stackTop : UInt64) (ring : ℕ) : CpuContext :=
  ⟨0, 0, entryPoint, stackTop, if ring = 0 then 0x08 else 0x1B⟩

def CpuContext.zero : CpuContext := ⟨0, 0, 0, 0, 0⟩

structure SignalHandler where
  handler : UInt64
  flags : UInt64
  mask : UInt64
  restorer : UInt64
  deriving DecidableEq, Repr

def SignalHandler.default : SignalHandler := ⟨0, 0, 0, 0⟩

structure SignalState where
  handlers : Fin 32 → SignalHandler
  pending : UInt64
  blocked : UInt64
  inHandler : Bool
  savedMask : UInt64

/-- `handlers[signum]`. Past the `NSIG` entries of the array the index reads the
four words that follow it: `pending`, `blocked`, the word of `in_handler`
(whose padding `init_signal_state` zeroes) and `saved_mask`. `send_signal` sets
no bit above 31, so no run reads past index 32. -/
def SignalState.handlerAt (s : SignalState) (signum : ℕ) : SignalHandler :=
  if h : signum < 32 then s.handlers ⟨signum, h⟩
  else ⟨s.pending, s.blocked, if s.inHandler then 1 else 0, s.savedMask⟩

def SignalState.setHandler (s : SignalState) (signum : ℕ) (new : SignalHandler) : SignalState :=
  { s with handlers := fun i => if (i : ℕ) = signum then new else s.handlers i }

/-- The fields of the PCB `allocate_process` returns that `sys_fork` does not
set: its signal state, process group, session and group links. -/
structure NewPcb where
  signalState : Option SignalState
  pgid : Pid
  sid : Pid
  pgNext : Option Pid
  pgPrev : Option Pid

def NewPcb.zeroed : NewPcb := ⟨none, 0, 0, none, none⟩

def toInt32 (n : ℤ) : ℤ := (n + 2 ^ 31) % 2 ^ 32 - 2 ^ 31

def toPid (n : UInt64) : Pid := toInt32 n.toNat

/-- A process group or a session is named by its allocation. -/
abbrev ObjId := ℕ

/-- The PCBs, one map per field, with the scheduler's globals and the tables
of process groups and sessions. -/
structure Kernel where
  /-- The pids of the PCBs allocated so far, the latest first. -/
  pcbs : List Pid
  state : Pid → ProcessState
  blockedOn : Pid → BlockReason
  ipcWaitSource : Pid → Pid
  context : Pid → CpuContext
  timeQuantumStart : Pid → UInt64
  exitStatus : Pid → ℤ
  parentPid : Pid → Pid
  /-- The `ChildNode` list from `children_head`, as pids. -/
  children : Pid → List Pid
  hasExited : Pid → Bool
  hasBeenWaited : Pid → Bool
  signalState : Pid → Option SignalState
  pgid : Pid → Pid
  sid : Pid → Pid
  pgNext : Pid → Option Pid
  pgPrev : Pid → Option Pid
  next : Pid → Option Pid
  prev : Pid → Option Pid
  gReadyQueueHead : Option Pid
  gReadyQueueTail : Option Pid
  gCurrentProcess : Option Pid
  gTicks : UInt64
  /-- `schedule` found nothing to run and the CPU spins in `hlt`. -/
  halted : Bool
  /-- The fields of each `ProcessGroup`. -/
  groupPgid : ObjId → Pid
  groupSessionId : ObjId → Pid
  members : ObjId → Option Pid
  groupNext : ObjId → Option ObjId
  groupPrev : ObjId → Option ObjId
  memberCount : ObjId → ℤ
  isForeground : ObjId → Bool
  gProcessGroupsHead : Option ObjId
  /-- The fields of each `Session`. -/
  sessionSid : ObjId → Pid
  foregroundGroup : ObjId → Option ObjId
  sessionNext : ObjId → Option ObjId
  sessionPrev : ObjId → Option ObjId
  gSessionsHead : Option ObjId
  /-- The next object `new` hands out. -/
  fresh : ObjId

namespace Kernel

/-- The state after `initialize_scheduler` and `init_process_groups`: no PCB
is in use. -/
def init : Kernel where
  pcbs := []
  state _ := .created
  blockedOn _ := .none
  ipcWaitSource _ := 0
  context _ := .zero
  timeQuantumStart _ := 0
  exitStatus _ := 0
  parentPid _ := 0
  children _ := []
  hasExited _ := false
  hasBeenWaited _ := false
  signalState _ := none
  pgid _ := 0
  sid _ := 0
  pgNext _ := none
  pgPrev _ := none
  next _ := none
  prev _ := none
  gReadyQueueHead := none
  gReadyQueueTail := none
  gCurrentProcess := none
  gTicks := 0
  halted := false
  groupPgid _ := 0
  groupSessionId _ := 0
  members _ := none
  groupNext _ := none
  groupPrev _ := none
  memberCount _ := 0
  isForeground _ := false
  gProcessGroupsHead := none
  sessionSid _ := 0
  foregroundGroup _ := none
  sessionNext _ := none
  sessionPrev _ := none
  gSessionsHead := none
  fresh := 0

def readyQueue (k : Kernel) : Ptrs Pid := ⟨k.next, k.prev, k.gReadyQueueHead, k.gReadyQueueTail⟩

def memberList (k : Kernel) (pg : ObjId) : Ptrs Pid := ⟨k.pgNext, k.pgPrev, k.members pg, none⟩

def groupList (k : Kernel) : Ptrs ObjId := ⟨k.groupNext, k.groupPrev, k.gProcessGroupsHead, none⟩

def sessionList (k : Kernel) : Ptrs ObjId := ⟨k.sessionNext, k.sessionPrev, k.gSessionsHead, none⟩

end Kernel

end Xinim.Proc
