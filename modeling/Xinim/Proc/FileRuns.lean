import Xinim.Proc.FileSafety

/-! What no later step undoes in a run of the file calls from boot. A pipe whose
read end is closed takes no byte again; one `close` of any read descriptor
closes it for every holder; and `fcntl(F_DUPFD)` with an argument above the
lowest free descriptor loops in the kernel for good. -/

namespace Xinim.Proc

namespace Tracked

def Reachable (t : Tracked) : Prop := ∃ k mem events, (boot k mem).run events = t

theorem run_append (t : Tracked) (before after : List Event) : t.run (before ++ after) = (t.run before).run after :=
  List.foldl_append

theorem Reachable.consistent {t : Tracked} (reach : t.Reachable) : t.Consistent := by
  obtain ⟨k, mem, events, rfl⟩ := reach
  exact (consistent_boot k mem).run events

theorem Reachable.run {t : Tracked} (reach : t.Reachable) (events : List Event) : (t.run events).Reachable := by
  obtain ⟨k, mem, before, rfl⟩ := reach
  exact ⟨k, mem, before ++ events, run_append _ before events⟩

theorem Reachable.step {t : Tracked} (reach : t.Reachable) (ev : Event) : (t.step ev).Reachable :=
  reach.run [ev]

@[simp] theorem step_sys (t : Tracked) (ev : Event) : (t.step ev).sys = (t.sys.step ev).sys := rfl

@[simp] theorem step_streams (t : Tracked) (ev : Event) :
    (t.step ev).streams = t.streams.record (t.sys.step ev).moved := rfl

theorem Consistent.readEnd_closed_run {t : Tracked} (h : t.Consistent) {a : ℕ}
    (closed : (t.sys.pipes a).readEndOpen = false) :
    ∀ events, ((t.run events).sys.pipes a).readEndOpen = false ∧ (t.run events).streams.accepted a = t.streams.accepted a
  | [] => ⟨closed, rfl⟩
  | ev :: rest => by
    obtain ⟨consistent, stays⟩ := keeps_step t.sys ev t.streams h
    obtain ⟨closed', same⟩ := stays a closed
    obtain ⟨closedRun, sameRun⟩ := Consistent.readEnd_closed_run consistent closed' rest
    exact ⟨closedRun, sameRun.trans same⟩

end Tracked

/-- Once a pipe's read end is closed in a state some run from boot reaches, it
stays closed whatever the processes do next, and no write to the pipe is
reported again: every byte ever accepted by it was accepted before. -/
theorem closed_read_end_accepts_nothing_more {t : Tracked} (reach : t.Reachable) {a : ℕ}
    (closed : (t.sys.pipes a).readEndOpen = false) (events : List Event) :
    ((t.run events).sys.pipes a).readEndOpen = false ∧ (t.run events).streams.accepted a = t.streams.accepted a :=
  reach.consistent.readEnd_closed_run closed events

def serverAtBoot : Tracked := Tracked.boot (Kernel.init.spawnServer 1 0 0).schedule fun _ => 0

def pipeClosedAtBoot : Tracked := serverAtBoot.run [.call (.sysPipe 0x1000), .call (.sysClose 3)]

theorem closed_read_end_accepts_nothing_more_after_close :
    (pipeClosedAtBoot.sys.pipes 1).readEndOpen = false ∧
      ((pipeClosedAtBoot.run [.call (.sysWrite 4 0x1000 1)]).sys.pipes 1).readEndOpen = false ∧
        (pipeClosedAtBoot.run [.call (.sysWrite 4 0x1000 1)]).streams.accepted 1 = pipeClosedAtBoot.streams.accepted 1 := by
  have reach : pipeClosedAtBoot.Reachable := ⟨_, _, _, rfl⟩
  have closed : (pipeClosedAtBoot.sys.pipes 1).readEndOpen = false := by decide +kernel
  exact ⟨closed, closed_read_end_accepts_nothing_more reach closed _⟩

/-! ### `sys_close` of a read descriptor -/

namespace Sys

variable {s : Sys} {cur : Pid}

theorem step_call_of_idle (current : s.kernel.gCurrentProcess = some cur) (idle : s.waiting cur = none) (c : Syscall) :
    s.step (.call c) = s.syscall c := by
  unfold step
  rw [current]
  dsimp only
  rw [idle]
  rfl

theorem sysClose_moved (fd : UInt64) : (s.sysClose fd).moved = .none := by
  unfold sysClose
  split
  · rfl
  · split
    · rfl
    · split
      · rfl
      · dsimp only
        exact ret_moved _ _

theorem sysClose_readEnd {fd : UInt64} {j : Fd} (current : s.kernel.gCurrentProcess = some cur)
    (found : (s.fdTable cur).getFd fd.toNat = some j) (pipe : ((s.fdTable cur).fds j).privateData ≠ 0)
    (reader : ((s.fdTable cur).fds j).fileFlags &&& FileFlags.accmode = FileFlags.rdonly) :
    ((s.sysClose fd).sys.pipes ((s.fdTable cur).fds j).privateData).readEndOpen = false := by
  have inRange := (FileDescriptorTable.getFd_range found).2
  unfold sysClose
  rw [current]
  dsimp only
  rw [if_neg (by omega), found]
  dsimp only
  rw [if_pos pipe, if_pos reader, ret_sys, setTable_pipes]
  show (Function.update s.pipes _ _ _).readEndOpen = false
  rw [Function.update_self]
  rfl

end Sys

/-- In a state some run from boot reaches, a process that closes one read
descriptor of a pipe closes the pipe's read end for every holder: whatever the
processes do next, the pipe accepts no byte beyond those it had accepted before
the close, though other descriptors on its read end, the copies that `fork` and
`dup` make, may still be open. -/
theorem closing_one_reader_closes_pipe {t : Tracked} (reach : t.Reachable) {cur : Pid} {fd : UInt64} {j : Fd}
    (current : t.sys.kernel.gCurrentProcess = some cur) (idle : t.sys.waiting cur = none)
    (found : (t.sys.fdTable cur).getFd fd.toNat = some j) (pipe : ((t.sys.fdTable cur).fds j).privateData ≠ 0)
    (reader : ((t.sys.fdTable cur).fds j).fileFlags &&& FileFlags.accmode = FileFlags.rdonly) (events : List Event) :
    (t.run (.call (.sysClose fd) :: events)).streams.accepted ((t.sys.fdTable cur).fds j).privateData =
      t.streams.accepted ((t.sys.fdTable cur).fds j).privateData := by
  have call := Sys.step_call_of_idle current idle (.sysClose fd)
  have closed : ((t.step (.call (.sysClose fd))).sys.pipes ((t.sys.fdTable cur).fds j).privateData).readEndOpen = false := by
    rw [Tracked.step_sys, call, Sys.syscall]
    exact Sys.sysClose_readEnd current found pipe reader
  have unrecorded : (t.step (.call (.sysClose fd))).streams = t.streams := by
    rw [Tracked.step_streams, call, Sys.syscall, Sys.sysClose_moved fd]
    rfl
  have later := ((reach.step _).consistent.readEnd_closed_run closed events).2
  rw [unrecorded] at later
  exact later

def forkedPipe : Tracked := serverAtBoot.run [.call (.sysPipe 0x1000), .call (.sysFork 2 .zeroed)]

/-- The parent closes its read descriptor 3: the child's descriptor 3 is still
open on the read end of pipe 1, and yet no later write to pipe 1 is accepted. -/
theorem closing_one_reader_closes_pipe_after_fork :
    ((forkedPipe.step (.call (.sysClose 3))).sys.fdTable 2).getFd 3 = some ⟨3, Nat.lt_of_sub_eq_succ rfl⟩ ∧
      (((forkedPipe.step (.call (.sysClose 3))).sys.fdTable 2).fds ⟨3, Nat.lt_of_sub_eq_succ rfl⟩).privateData = 1 ∧
      (forkedPipe.run [.call (.sysClose 3), .schedule, .call (.sysWrite 4 0x1000 1)]).streams.accepted 1 =
        forkedPipe.streams.accepted 1 := by
  have reach : forkedPipe.Reachable := ⟨_, _, _, rfl⟩
  have facts : forkedPipe.sys.kernel.gCurrentProcess = some 1 ∧ forkedPipe.sys.waiting 1 = none ∧
      (forkedPipe.sys.fdTable 1).getFd ((3 : UInt64).toNat) = some ⟨3, Nat.lt_of_sub_eq_succ rfl⟩ ∧
      ((forkedPipe.sys.fdTable 1).fds ⟨3, Nat.lt_of_sub_eq_succ rfl⟩).privateData = 1 ∧
      ((forkedPipe.sys.fdTable 1).fds ⟨3, Nat.lt_of_sub_eq_succ rfl⟩).fileFlags &&& FileFlags.accmode = FileFlags.rdonly ∧
      ((forkedPipe.step (.call (.sysClose 3))).sys.fdTable 2).getFd 3 = some ⟨3, Nat.lt_of_sub_eq_succ rfl⟩ ∧
      (((forkedPipe.step (.call (.sysClose 3))).sys.fdTable 2).fds ⟨3, Nat.lt_of_sub_eq_succ rfl⟩).privateData = 1 := by
    decide +kernel
  obtain ⟨current, idle, found, pipe, reader, childOpen, childPipe⟩ := facts
  have later := closing_one_reader_closes_pipe reach current idle found (by rw [pipe]; decide) reader
    [.schedule, .call (.sysWrite 4 0x1000 1)]
  rw [pipe] at later
  exact ⟨childOpen, childPipe, later⟩

/-! ### The loop of `F_DUPFD` -/

theorem dupfdLoop_allocateAt {t : FileDescriptorTable} {i : Fd} (lowest : t.lowestClosed = some i) {arg : ℤ}
    (below : (i.val : ℤ) < arg) :
    ∀ fuel, dupfdLoop arg fuel (t.allocateAt i) i.val = (t.allocateAt i, (i.val : ℤ), false)
  | 0 => rfl
  | fuel + 1 => by
    unfold dupfdLoop
    rw [if_pos ⟨below, Int.natCast_nonneg _⟩]
    dsimp only
    rw [FileDescriptorTable.allocateFd_closeFd_allocateAt lowest]
    exact dupfdLoop_allocateAt lowest below fuel

namespace Sys

variable {s : Sys} {cur : Pid}

section Spins

variable {fd newfd arg n : ℤ} {t₀ t : FileDescriptorTable}

theorem dupfdRun_of_spins (table : s.fdTable cur = t₀) (spins : dupfdLoop arg dupfdSlice t₀ newfd = (t, n, false)) :
    s.dupfdRun cur fd newfd arg = ⟨(s.setTable cur t).setWaiting cur (some (.dupfd fd n arg)), none, .none⟩ := by
  unfold dupfdRun
  rw [table, spins]
  rfl

theorem resume_dupfd_of_spins (table : s.fdTable cur = t₀) (spins : dupfdLoop arg dupfdSlice t₀ newfd = (t, n, false)) :
    s.resume cur (.dupfd fd newfd arg) =
      ⟨((s.setWaiting cur none).setTable cur t).setWaiting cur (some (.dupfd fd n arg)), none, .none⟩ := by
  rw [resume]
  exact dupfdRun_of_spins table spins

end Spins

theorem step_of_stuck {w : Waiting} (current : s.kernel.gCurrentProcess = some cur) (waiting : s.waiting cur = some w)
    (stuck : s.resume cur w = ⟨s, none, .none⟩) : ∀ ev, ev ≠ .schedule → s.step ev = ⟨s, none, .none⟩
  | .call c, _ => by
    unfold step
    rw [current]
    dsimp only
    rw [waiting]
    rfl
  | .resume, _ => by
    unfold step
    rw [current]
    dsimp only
    rw [waiting]
    exact stuck
  | .schedule, other => absurd rfl other

end Sys

/-- In a state some run from boot reaches, `fcntl(fd, F_DUPFD, arg)` on an open
`fd` with `arg` above the lowest free descriptor never returns: each turn of
its loop closes the descriptor `allocate_fd` handed out and gets the same one
back, so the caller waits in the call, and until another process is switched
in, every event leaves the system as the call left it. -/
theorem fcntl_dupfd_never_returns {t : Tracked} (reach : t.Reachable) {cur : Pid} {fd arg : UInt64} {j i : Fd}
    (current : t.sys.kernel.gCurrentProcess = some cur) (idle : t.sys.waiting cur = none)
    (found : (t.sys.fdTable cur).getFd fd.toNat = some j) (lowest : (t.sys.fdTable cur).lowestClosed = some i)
    (below : (i.val : ℤ) < toInt32 arg.toNat) :
    (t.sys.step (.call (.sysFcntl fd 0 arg))).result = none ∧
      ∀ ev, ev ≠ .schedule →
        (t.sys.step (.call (.sysFcntl fd 0 arg))).sys.step ev = ⟨(t.sys.step (.call (.sysFcntl fd 0 arg))).sys, none, .none⟩ := by
  have hinted := (reach.consistent.sound.tables cur).hinted
  have inRange := (FileDescriptorTable.getFd_range found).2
  have allocated : (t.sys.fdTable cur).allocateFd = ((t.sys.fdTable cur).allocateAt i, (i.val : ℤ)) := by
    rw [hinted.allocateFd_eq, lowest]
  have spins := dupfdLoop_allocateAt lowest below dupfdSlice
  have call : t.sys.step (.call (.sysFcntl fd 0 arg)) =
      ⟨(t.sys.setTable cur ((t.sys.fdTable cur).allocateAt i)).setWaiting cur
        (some (.dupfd fd.toNat i.val (toInt32 arg.toNat))), none, .none⟩ := by
    rw [Sys.step_call_of_idle current idle]
    unfold Sys.syscall Sys.sysFcntl
    rw [current]
    dsimp only
    rw [if_neg (by omega), found]
    simp only [if_pos]
    rw [allocated, if_neg (Int.not_lt.mpr (Int.natCast_nonneg _)),
      Sys.dupfdRun_of_spins (Function.update_self _ _ _) spins, Sys.setTable_setTable]
  rw [call]
  refine ⟨rfl, Sys.step_of_stuck current (Function.update_self _ _ _) ?_⟩
  refine (Sys.resume_dupfd_of_spins ?_ spins).trans ?_
  · rw [Sys.setWaiting_fdTable, Sys.setTable_fdTable, Function.update_self]
  · simp only [Sys.setWaiting, Sys.setTable, Function.update_idem]

/-- At boot server 1 holds descriptors 0, 1 and 2, so `fcntl(0, F_DUPFD, 10)`
allocates 3 and loops. -/
theorem fcntl_dupfd_never_returns_at_boot :
    (serverAtBoot.sys.fdTable 1).lowestClosed = some ⟨3, Nat.lt_of_sub_eq_succ rfl⟩ ∧
      (serverAtBoot.sys.step (.call (.sysFcntl 0 0 10))).result = none ∧
      ∀ ev, ev ≠ .schedule →
        (serverAtBoot.sys.step (.call (.sysFcntl 0 0 10))).sys.step ev =
          ⟨(serverAtBoot.sys.step (.call (.sysFcntl 0 0 10))).sys, none, .none⟩ := by
  have reach : serverAtBoot.Reachable := ⟨_, _, [], rfl⟩
  have current : serverAtBoot.sys.kernel.gCurrentProcess = some 1 := by decide +kernel
  have found : (serverAtBoot.sys.fdTable 1).getFd ((0 : UInt64).toNat) = some ⟨0, Nat.lt_of_sub_eq_succ rfl⟩ := by
    decide +kernel
  have lowest : (serverAtBoot.sys.fdTable 1).lowestClosed = some ⟨3, Nat.lt_of_sub_eq_succ rfl⟩ := by decide +kernel
  exact ⟨lowest, fcntl_dupfd_never_returns reach current rfl found lowest (by decide)⟩

end Xinim.Proc
