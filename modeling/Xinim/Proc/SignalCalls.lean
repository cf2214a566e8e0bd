import Xinim.Kernel.Uaccess
import Xinim.Proc.Lifecycle

/-! The signal system calls of the x86_64 kernel (kernel/syscalls/signal.cpp):
`sys_kill`, `sys_sigaction`, `sys_sigprocmask` and `sys_sigreturn`, with
`signal_return` of kernel/signal.cpp. They run beside the scheduler, `fork`,
`exit` and `wait4`, and the scheduler delivers pending signals on every switch.
Along every such run SIGKILL and SIGSTOP stay out of every mask and keep their
default handlers. -/

namespace Xinim.Proc

open Xinim.Kernel (UserMem copyFromUser copyToUser)

def sigBlock : UInt64 := 0
def sigUnblock : UInt64 := 1
def sigSetmask : UInt64 := 2

/-- `(1ULL << SIGKILL) | (1ULL << SIGSTOP)`, the signals no mask may hold. -/
def unmaskable : UInt64 := sigBit sigKill ||| sigBit sigStop

/-- A `struct sigaction_user` as its 32 packed bytes: handler, flags, restorer
and mask. -/
def SignalHandler.toUser (h : SignalHandler) : List UInt8 :=
  Buffer.storeLE 8 h.handler.toNat ++ Buffer.storeLE 8 h.flags.toNat ++ Buffer.storeLE 8 h.restorer.toNat ++
    Buffer.storeLE 8 h.mask.toNat

def SignalHandler.ofUser (bytes : List UInt8) : SignalHandler where
  handler := UInt64.ofNat (Buffer.loadLE (bytes.take 8))
  flags := UInt64.ofNat (Buffer.loadLE ((bytes.drop 8).take 8))
  mask := UInt64.ofNat (Buffer.loadLE ((bytes.drop 24).take 8))
  restorer := UInt64.ofNat (Buffer.loadLE ((bytes.drop 16).take 8))

namespace Kernel

def ensureSignalState (k : Kernel) (pcb : Pid) : Kernel :=
  if k.signalState pcb = none then k.initSignalState pcb else k

def signalStateOf (k : Kernel) (pcb : Pid) : SignalState := (k.signalState pcb).getD .initial

def setSignalState (k : Kernel) (pcb : Pid) (s : SignalState) : Kernel :=
  { k with signalState := Function.update k.signalState pcb (some s) }

/-- `sys_kill(pid, sig)`. Both arguments are `uint64_t`, so `pid <= 0` holds
only for 0. -/
def sysKill (k : Kernel) (pid sig : UInt64) : Kernel × ℤ :=
  if sig.toNat ≥ nsig then (k, -eInval)
  else if sig = 0 then
    match k.findProcessByPid (toPid pid) with
    | none => (k, -eSrch)
    | some _ => (k, 0)
  else if pid = 0 then (k, -eInval)
  else
    match k.findProcessByPid (toPid pid) with
    | none => (k, -eSrch)
    | some target => k.sendSignal target (toInt32 sig.toNat)

/-- `sys_sigaction(signum, act_addr, oldact_addr)`: the signal state is set up
before the signal number is checked; the old action is copied out before the
new one is read, and a fault in either leaves the handler as it was. -/
def sysSigaction (k : Kernel) (mem : UserMem) (signum act oldact : UInt64) : Kernel × UserMem × ℤ :=
  match k.gCurrentProcess with
  | none => (k, mem, -eSrch)
  | some cur =>
    let k := k.ensureSignalState cur
    let s := k.signalStateOf cur
    if signum < 1 ∨ signum.toNat ≥ nsig then (k, mem, -eInval)
    else if signum.toNat = sigKill ∨ signum.toNat = sigStop then (k, mem, -eInval)
    else
      let old := if oldact ≠ 0 then copyToUser mem oldact (s.handlerAt signum.toNat).toUser else .ok mem
      match old with
      | .error e => (k, mem, e)
      | .ok mem =>
        if act = 0 then (k, mem, 0)
        else
          match copyFromUser mem act 32 with
          | .error e => (k, mem, e)
          | .ok bytes =>
            let new := SignalHandler.ofUser bytes
            -- SIGKILL and SIGSTOP cannot be in the mask
            let new := { new with mask := new.mask &&& ~~~unmaskable }
            (k.setSignalState cur (s.setHandler signum.toNat new), mem, 0)

/-- `sys_sigprocmask(how, set_addr, oldset_addr)`: `how` is looked at only when
a new mask is given. -/
def sysSigprocmask (k : Kernel) (mem : UserMem) (how set oldset : UInt64) : Kernel × UserMem × ℤ :=
  match k.gCurrentProcess with
  | none => (k, mem, -eSrch)
  | some cur =>
    let k := k.ensureSignalState cur
    let s := k.signalStateOf cur
    let old := if oldset ≠ 0 then copyToUser mem oldset (Buffer.storeLE 8 s.blocked.toNat) else .ok mem
    match old with
    | .error e => (k, mem, e)
    | .ok mem =>
      if set = 0 then (k, mem, 0)
      else
        match copyFromUser mem set 8 with
        | .error e => (k, mem, e)
        | .ok bytes =>
          -- SIGKILL and SIGSTOP cannot be blocked
          let newmask := UInt64.ofNat (Buffer.loadLE bytes) &&& ~~~unmaskable
          if how = sigBlock then (k.setSignalState cur { s with blocked := s.blocked ||| newmask }, mem, 0)
          else if how = sigUnblock then (k.setSignalState cur { s with blocked := s.blocked &&& ~~~newmask }, mem, 0)
          else if how = sigSetmask then (k.setSignalState cur { s with blocked := newmask }, mem, 0)
          else (k, mem, -eInval)

def signalReturn (k : Kernel) (pcb : Pid) : Kernel :=
  match k.signalState pcb with
  | none => k
  | some s => k.setSignalState pcb { s with blocked := s.savedMask, inHandler := false }

/-- `sys_sigreturn`, which returns to no caller: `signal_return`, then
`schedule()`; without a current process the CPU halts. -/
def sysSigreturn (k : Kernel) : Kernel :=
  match k.gCurrentProcess with
  | none => { k with halted := true }
  | some cur => (k.signalReturn cur).schedule

end Kernel

/-- What happens to the PCBs and user memory: a call of the scheduler's
interface, a process call, or a signal call of the current process. -/
inductive SignalEvent
  | sched (op : SchedOp)
  | fork (child : Pid) (pcb : NewPcb)
  | exit (status : UInt64)
  | wait4 (pid statusAddr : UInt64)
  | kill (pid sig : UInt64)
  | sigaction (signum act oldact : UInt64)
  | sigprocmask (how set oldset : UInt64)
  | sigreturn

/-- Whether the PCB a `fork` allocates comes with no signal state. -/
def SignalEvent.Unsignalled : SignalEvent → Prop
  | .fork _ pcb => pcb.signalState = none
  | _ => True

structure SignalSys where
  kernel : Kernel
  mem : UserMem

namespace SignalSys

/-- One event; the values the calls return are dropped. Events after the CPU
halted are run too, which only adds runs. -/
def step (t : SignalSys) : SignalEvent → SignalSys
  | .sched op => ⟨t.kernel.schedStep op, t.mem⟩
  | .fork child pcb => ⟨(t.kernel.sysFork child pcb).1, t.mem⟩
  | .exit status => ⟨t.kernel.sysExit status, t.mem⟩
  | .wait4 pid statusAddr => ⟨(t.kernel.sysWait4 pid statusAddr).1, t.mem⟩
  | .kill pid sig => ⟨(t.kernel.sysKill pid sig).1, t.mem⟩
  | .sigaction signum act oldact =>
    ⟨(t.kernel.sysSigaction t.mem signum act oldact).1, (t.kernel.sysSigaction t.mem signum act oldact).2.1⟩
  | .sigprocmask how set oldset =>
    ⟨(t.kernel.sysSigprocmask t.mem how set oldset).1, (t.kernel.sysSigprocmask t.mem how set oldset).2.1⟩
  | .sigreturn => ⟨t.kernel.sysSigreturn, t.mem⟩

def run (t : SignalSys) (events : List SignalEvent) : SignalSys := events.foldl step t

end SignalSys

/-! ### SIGKILL and SIGSTOP stay unmaskable -/

section Masks

variable {a b m : UInt64}

theorem or_and_eq_zero (ha : a &&& m = 0) (hb : b &&& m = 0) : (a ||| b) &&& m = 0 := by
  rw [← UInt64.toBitVec_inj] at *
  simp only [UInt64.toBitVec_and, UInt64.toBitVec_or, UInt64.toBitVec_zero] at *
  rw [BitVec.and_or_distrib_right, ha, hb, BitVec.or_zero]

theorem and_not_and_eq_zero (a m : UInt64) : a &&& ~~~m &&& m = 0 := by
  rw [← UInt64.toBitVec_inj]
  simp only [UInt64.toBitVec_and, UInt64.toBitVec_not, UInt64.toBitVec_zero]
  rw [BitVec.and_assoc]
  simp

theorem and_and_eq_zero (ha : a &&& m = 0) (b : UInt64) : a &&& b &&& m = 0 := by
  rw [← UInt64.toBitVec_inj] at *
  simp only [UInt64.toBitVec_and, UInt64.toBitVec_zero] at *
  rw [BitVec.and_assoc, BitVec.and_comm b.toBitVec, ← BitVec.and_assoc, ha, BitVec.zero_and]

end Masks

def Catchable (i : ℕ) : Prop := 1 ≤ i ∧ (i : ℤ) < nsig ∧ (i : ℤ) ≠ sigKill ∧ (i : ℤ) ≠ sigStop

instance : DecidablePred Catchable := fun i =>
  inferInstanceAs (Decidable (1 ≤ i ∧ (i : ℤ) < nsig ∧ (i : ℤ) ≠ sigKill ∧ (i : ℤ) ≠ sigStop))

theorem sigBit_and_unmaskable {i : ℕ} (inWord : i ≤ 64) (notKill : i ≠ 9) (notStop : i ≠ 19) :
    sigBit i &&& unmaskable = 0 := by
  have all : ∀ j : Fin 65, (j : ℕ) ≠ 9 → (j : ℕ) ≠ 19 → sigBit (j : ℕ) &&& unmaskable = 0 := by decide
  exact all ⟨i, by omega⟩ notKill notStop

/-- What every signal state keeps: SIGKILL and SIGSTOP are in no mask, and a
signal `sys_sigaction` refuses keeps the all-zero handler. -/
structure SignalState.Sound (s : SignalState) : Prop where
  blocked : s.blocked &&& unmaskable = 0
  savedMask : s.savedMask &&& unmaskable = 0
  masks : ∀ i, (s.handlers i).mask &&& unmaskable = 0
  fixed : ∀ i : Fin 32, ¬ Catchable i → s.handlers i = .default

theorem SignalState.Sound.handlerAt_mask {s : SignalState} (sound : s.Sound) (signum : ℕ) :
    (s.handlerAt signum).mask &&& unmaskable = 0 := by
  unfold SignalState.handlerAt
  split_ifs
  · exact sound.masks _
  all_goals
    dsimp only
    decide

theorem SignalState.Sound.setPending {s : SignalState} (sound : s.Sound) (pending : UInt64) :
    { s with pending }.Sound :=
  ⟨sound.blocked, sound.savedMask, sound.masks, sound.fixed⟩

theorem SignalState.Sound.initial : SignalState.initial.Sound :=
  ⟨rfl, rfl, fun _ => (rfl : SignalHandler.default.mask &&& unmaskable = 0), fun _ _ => rfl⟩

theorem SignalState.Sound.setHandler {s : SignalState} (sound : s.Sound) {i : ℕ} (c : Catchable i)
    (new : SignalHandler) : (s.setHandler i { new with mask := new.mask &&& ~~~unmaskable }).Sound := by
  refine { sound with masks := fun j => ?_, fixed := fun j refused => ?_ }
  · dsimp only [SignalState.setHandler]
    split_ifs
    · exact and_not_and_eq_zero _ _
    · exact sound.masks j
  · have other : (j : ℕ) ≠ i := fun same => refused (same ▸ c)
    dsimp only [SignalState.setHandler]
    rw [if_neg other]
    exact sound.fixed j refused

namespace Kernel

def SignalsSound (k : Kernel) : Prop := ∀ p s, k.signalState p = some s → s.Sound

variable {k k' : Kernel}

@[simp] theorem signalState_setSignalState (p : Pid) (s : SignalState) :
    (k.setSignalState p s).signalState = Function.update k.signalState p (some s) := rfl

theorem SignalsSound.of_eq (h : k.SignalsSound) (same : k'.signalState = k.signalState) : k'.SignalsSound := by
  intro p s found
  rw [same] at found
  exact h p s found

theorem SignalsSound.update (h : k.SignalsSound) {p : Pid} {o : Option SignalState}
    (same : k'.signalState = Function.update k.signalState p o) (sound : ∀ s, o = some s → s.Sound) :
    k'.SignalsSound := by
  intro q s found
  rw [same] at found
  by_cases at_p : q = p
  · subst at_p
    rw [Function.update_self] at found
    exact sound s found
  · rw [Function.update_of_ne at_p] at found
    exact h q s found

theorem SignalsSound.setSignalState (h : k.SignalsSound) {p : Pid} {s : SignalState} (sound : s.Sound) :
    (k.setSignalState p s).SignalsSound :=
  h.update rfl fun _ eq => Option.some_injective _ eq ▸ sound

theorem SignalsSound.initSignalState (h : k.SignalsSound) (p : Pid) : (k.initSignalState p).SignalsSound :=
  h.update rfl fun _ eq => Option.some_injective _ eq ▸ SignalState.Sound.initial

theorem SignalsSound.ensureSignalState (h : k.SignalsSound) (p : Pid) : (k.ensureSignalState p).SignalsSound := by
  unfold Kernel.ensureSignalState
  split_ifs
  · exact h.initSignalState p
  · exact h

theorem SignalsSound.signalStateOf (h : k.SignalsSound) (p : Pid) : (k.signalStateOf p).Sound := by
  unfold Kernel.signalStateOf
  cases found : k.signalState p with
  | none => exact SignalState.Sound.initial
  | some s => exact h p s found

theorem SignalsSound.modifySignalState (h : k.SignalsSound) (p : Pid) {f : SignalState → SignalState}
    (keeps : ∀ s, s.Sound → (f s).Sound) : (k.modifySignalState p f).SignalsSound := by
  refine h.update rfl fun s found => ?_
  cases was : k.signalState p with
  | none => rw [was] at found; cases found
  | some s₀ =>
    rw [was, Option.map_some] at found
    exact Option.some_injective _ found ▸ keeps s₀ (h p s₀ was)

theorem SignalsSound.sendSignal (h : k.SignalsSound) (pcb : Pid) (signum : ℤ) :
    (k.sendSignal pcb signum).1.SignalsSound := by
  have ensured := h.ensureSignalState pcb
  unfold Kernel.sendSignal
  unfold Kernel.ensureSignalState at ensured
  generalize (if k.signalState pcb = none then k.initSignalState pcb else k) = k₁ at ensured ⊢
  split_ifs
  · exact h
  · exact ensured.of_eq rfl
  · exact ensured.of_eq rfl
  · have restarted :
        (if signum = sigCont ∧ k₁.state pcb = .stopped then k₁.setState pcb .ready else k₁).SignalsSound := by
      split_ifs
      · exact ensured.of_eq rfl
      · exact ensured
    dsimp only
    generalize (if signum = sigCont ∧ k₁.state pcb = .stopped then k₁.setState pcb .ready else k₁) = k₂ at restarted ⊢
    have marked := restarted.modifySignalState pcb (f := fun s => { s with pending := s.pending ||| sigBit signum })
      fun s sound => sound.setPending _
    split_ifs
    · exact marked.of_eq rfl
    · exact marked

theorem SignalsSound.setupSignalFrame (h : k.SignalsSound) {pcb : Pid} {signum : ℕ} (inWord : signum ≤ 64)
    (handled : ∀ s, k.signalState pcb = some s → s.handlerAt signum ≠ .default) :
    (k.setupSignalFrame pcb signum).SignalsSound := by
  cases found : k.signalState pcb with
  | none => simpa only [Kernel.setupSignalFrame, found] using h
  | some s =>
    have sound := h pcb s found
    have refused : ∀ i : Fin 32, ¬ Catchable i → signum ≠ i := by
      rintro i refused rfl
      exact handled s found (by rw [SignalState.handlerAt_of_lt _ i.isLt]; exact sound.fixed i refused)
    have added_sound : ∀ added, added = 0 ∨ added = sigBit signum → added &&& unmaskable = 0 := by
      rintro added (rfl | rfl)
      · rfl
      · exact sigBit_and_unmaskable inWord (refused 9 (by decide)) (refused 19 (by decide))
    obtain ⟨added, added_eq, eq⟩ := signalState_setupSignalFrame found signum
    refine h.update eq fun s' found' => ?_
    cases Option.some_injective _ found'
    refine ⟨?_, sound.blocked, sound.masks, sound.fixed⟩
    exact or_and_eq_zero (or_and_eq_zero sound.blocked (sound.handlerAt_mask signum)) (added_sound added added_eq)

theorem SignalsSound.deliverPendingSignals (h : k.SignalsSound) (pcb : Pid) :
    (k.deliverPendingSignals pcb).1.SignalsSound := by
  unfold Kernel.deliverPendingSignals
  cases found : k.signalState pcb with
  | none => exact h
  | some s =>
    dsimp only
    have sound := h pcb s found
    have cleared := h.setSignalState (p := pcb)
      (sound.setPending (s.pending &&& ~~~sigBit (ffsll (s.pending &&& ~~~s.blocked))))
    split_ifs with inHandler empty zero ignored dfl
    · exact h
    · exact h
    · exact h
    · exact cleared
    · exact cleared.of_eq (signalState_defaultAction _ _ _)
    · refine cleared.setupSignalFrame (ffsll_le _) fun s' found' isDefault => dfl ?_
      rw [signalState_setSignalState, Function.update_self] at found'
      cases Option.some_injective _ found'
      rw [isDefault]
      rfl

/-! The scheduler and the process calls change no signal state but through
`send_signal`, `deliver_pending_signals` and a fresh PCB's. -/

@[simp] theorem signalState_readyQueueAdd (pcb : Pid) : (k.readyQueueAdd pcb).signalState = k.signalState := by
  rw [readyQueueAdd_eq]

@[simp] theorem signalState_readyQueueRemove (pcb : Pid) : (k.readyQueueRemove pcb).signalState = k.signalState := by
  rw [readyQueueRemove_eq]

theorem signalState_pickNextProcess : k.pickNextProcess.1.signalState = k.signalState := by
  unfold pickNextProcess readyQueuePop
  cases k.gReadyQueueHead with
  | none => rfl
  | some pcb => exact signalState_readyQueueRemove pcb

theorem signalState_requeueCurrent : k.requeueCurrent.signalState = k.signalState := by
  unfold requeueCurrent
  split
  · split_ifs
    · exact signalState_readyQueueAdd _
    · rfl
  · rfl

theorem signalState_reparentToInit (child : Pid) : (k.reparentToInit child).signalState = k.signalState := by
  unfold reparentToInit
  split
  · rfl
  · dsimp only
    split <;> rfl

theorem signalState_foldl_reparentToInit (children : List Pid) :
    (children.foldl reparentToInit k).signalState = k.signalState := by
  induction children generalizing k with
  | nil => rfl
  | cons child rest ih => rw [List.foldl_cons, ih, signalState_reparentToInit]

theorem signalState_deleteProcessGroup (pg : ObjId) : (k.deleteProcessGroup pg).signalState = k.signalState := by
  unfold deleteProcessGroup
  dsimp only
  split <;> split <;> split <;> (try split_ifs) <;> rfl

theorem signalState_removeFromProcessGroup (pcb : Pid) :
    (k.removeFromProcessGroup pcb).signalState = k.signalState := by
  unfold removeFromProcessGroup
  split
  · rfl
  · dsimp only
    split <;> split <;> split_ifs <;> first | rfl | exact signalState_deleteProcessGroup _

/-- A relation between the signal states before and after a call: it holds
where they do not change, composes, and holds across `send_signal` and
`deliver_pending_signals`. The scheduler and the process calls reach the
signal states only through these two and a new PCB's, so it holds across
every one of them. -/
structure SignalRel (R : (Pid → Option SignalState) → (Pid → Option SignalState) → Prop) : Prop where
  refl : ∀ σ, R σ σ
  trans : ∀ {σ₁ σ₂ σ₃}, R σ₁ σ₂ → R σ₂ σ₃ → R σ₁ σ₃
  sendSignal : ∀ (k : Kernel) (pcb : Pid) (signum : ℤ), R k.signalState (k.sendSignal pcb signum).1.signalState
  deliverPendingSignals : ∀ (k : Kernel) (pcb : Pid),
    R k.signalState (k.deliverPendingSignals pcb).1.signalState

namespace SignalRel

variable {R : (Pid → Option SignalState) → (Pid → Option SignalState) → Prop}

theorem of_eq (hR : SignalRel R) (same : k'.signalState = k.signalState) : R k.signalState k'.signalState :=
  same ▸ hR.refl _

theorem switchTo (hR : SignalRel R) (next : Pid) : R k.signalState (k.switchTo next).signalState := by
  unfold Kernel.switchTo
  dsimp only
  split_ifs
  · exact hR.refl _
  · refine hR.trans ?_ (hR.deliverPendingSignals _ next)
    exact hR.of_eq signalState_requeueCurrent
  · exact hR.of_eq signalState_requeueCurrent

theorem schedule (hR : SignalRel R) : R k.signalState k.schedule.signalState := by
  have picked : ({ k with gTicks := k.gTicks + 1 } : Kernel).pickNextProcess.1.signalState = k.signalState :=
    signalState_pickNextProcess
  unfold Kernel.schedule
  dsimp only
  rcases pick : ({ k with gTicks := k.gTicks + 1 } : Kernel).pickNextProcess with ⟨k₁, _ | next⟩
  · rw [pick] at picked
    exact hR.of_eq picked
  · rw [pick] at picked
    exact hR.trans (hR.of_eq picked) (hR.switchTo next)

theorem schedStep (hR : SignalRel R) (op : SchedOp)
    (spawned : ∀ pid entryPoint stackTop, op = .spawnServer pid entryPoint stackTop →
      R k.signalState (k.initSignalState pid).signalState) :
    R k.signalState (k.schedStep op).signalState := by
  cases op with
  | spawnServer pid entryPoint stackTop =>
    exact hR.trans (spawned pid entryPoint stackTop rfl) (hR.of_eq (signalState_readyQueueAdd _))
  | schedulerAddProcess pcb => exact hR.of_eq (signalState_readyQueueAdd pcb)
  | schedule => exact hR.schedule
  | blockCurrentProcess reason waitSource =>
    show R k.signalState (k.blockCurrentProcess reason waitSource).signalState
    unfold Kernel.blockCurrentProcess
    split
    · exact hR.refl _
    · refine hR.trans ?_ hR.schedule
      exact hR.refl _
  | unblockProcess pcb =>
    show R k.signalState (k.unblockProcess pcb).signalState
    unfold Kernel.unblockProcess
    split_ifs
    · exact hR.refl _
    · exact hR.of_eq (signalState_readyQueueAdd _)

theorem sysFork (hR : SignalRel R) (child : Pid) (pcb : NewPcb)
    (allocated : R k.signalState (k.allocateProcess child pcb).signalState) :
    R k.signalState (k.sysFork child pcb).1.signalState := by
  unfold Kernel.sysFork
  split
  · exact hR.refl _
  · exact hR.trans allocated (hR.of_eq (signalState_readyQueueAdd _))

theorem notifyParent (hR : SignalRel R) (current : Pid) : R k.signalState (k.notifyParent current).signalState := by
  unfold Kernel.notifyParent
  split_ifs
  · exact hR.refl _
  · split
    · exact hR.refl _
    · rename_i parent _
      dsimp only
      split_ifs
      · exact hR.sendSignal k parent sigChld
      · exact hR.sendSignal k parent sigChld

theorem sysExit (hR : SignalRel R) (status : UInt64) : R k.signalState (k.sysExit status).signalState := by
  unfold Kernel.sysExit
  split
  · exact hR.refl _
  · rename_i current _
    dsimp only
    refine hR.trans ?_ hR.schedule
    refine hR.trans ?_ (hR.notifyParent current)
    refine hR.of_eq ?_
    rw [signalState_removeFromProcessGroup, signalState_foldl_reparentToInit]

theorem sysWait4 (hR : SignalRel R) (pidArg statusAddr : UInt64) :
    R k.signalState (k.sysWait4 pidArg statusAddr).1.signalState := by
  unfold Kernel.sysWait4
  split
  · exact hR.refl _
  · split
    · exact hR.refl _
    · split
      · exact hR.refl _
      · split
        · exact hR.refl _
        · refine hR.trans ?_ hR.schedule
          exact hR.refl _

theorem sysKill (hR : SignalRel R) (pid sig : UInt64) : R k.signalState (k.sysKill pid sig).1.signalState := by
  unfold Kernel.sysKill
  split_ifs
  · exact hR.refl _
  · split <;> exact hR.refl _
  · exact hR.refl _
  · split
    · exact hR.refl _
    · exact hR.sendSignal _ _ _

theorem ofInvariant (P : (Pid → Option SignalState) → Prop)
    (sendSignal : ∀ (k : Kernel) pcb signum, P k.signalState → P (k.sendSignal pcb signum).1.signalState)
    (deliverPendingSignals : ∀ (k : Kernel) pcb, P k.signalState → P (k.deliverPendingSignals pcb).1.signalState) :
    SignalRel fun σ σ' => P σ → P σ' where
  refl _ h := h
  trans h₁ h₂ h := h₂ (h₁ h)
  sendSignal k pcb signum := sendSignal k pcb signum
  deliverPendingSignals k pcb := deliverPendingSignals k pcb

end SignalRel

theorem soundRel : SignalRel fun σ σ' => (∀ p s, σ p = some s → s.Sound) → ∀ p s, σ' p = some s → s.Sound :=
  SignalRel.ofInvariant _ (fun _ pcb signum h => SignalsSound.sendSignal h pcb signum)
    fun _ pcb h => SignalsSound.deliverPendingSignals h pcb

theorem SignalsSound.sysSigaction (h : k.SignalsSound) (mem : UserMem) (signum act oldact : UInt64) :
    (k.sysSigaction mem signum act oldact).1.SignalsSound := by
  unfold Kernel.sysSigaction
  split
  · exact h
  · rename_i cur _
    have ensured := h.ensureSignalState cur
    dsimp only
    split
    · exact ensured
    · split
      · exact ensured
      · rename_i valid accepted
        have c : Catchable signum.toNat := by
          rw [not_or] at valid accepted
          have positive : ¬ signum.toNat < 1 := fun lt => valid.1 (UInt64.lt_iff_toNat_lt.mpr lt)
          exact ⟨by omega, by omega, accepted.1, accepted.2⟩
        split
        · exact ensured
        · split
          · exact ensured
          · split
            · exact ensured
            · exact ensured.setSignalState ((ensured.signalStateOf cur).setHandler c _)

theorem SignalsSound.sysSigprocmask (h : k.SignalsSound) (mem : UserMem) (how set oldset : UInt64) :
    (k.sysSigprocmask mem how set oldset).1.SignalsSound := by
  unfold Kernel.sysSigprocmask
  split
  · exact h
  · rename_i cur _
    have ensured := h.ensureSignalState cur
    have sound := ensured.signalStateOf cur
    dsimp only
    split
    · exact ensured
    · split
      · exact ensured
      · split
        · exact ensured
        · rename_i bytes _
          have stripped := and_not_and_eq_zero (UInt64.ofNat (Buffer.loadLE bytes)) unmaskable
          split_ifs
          · refine ensured.setSignalState ?_
            exact { sound with blocked := or_and_eq_zero sound.blocked stripped }
          · refine ensured.setSignalState ?_
            exact { sound with blocked := and_and_eq_zero sound.blocked _ }
          · refine ensured.setSignalState ?_
            exact { sound with blocked := stripped }
          · exact ensured

theorem SignalsSound.signalReturn (h : k.SignalsSound) (pcb : Pid) : (k.signalReturn pcb).SignalsSound := by
  unfold Kernel.signalReturn
  cases found : k.signalState pcb with
  | none => exact h
  | some s =>
    have sound := h pcb s found
    refine h.setSignalState ?_
    exact { sound with blocked := sound.savedMask }

theorem SignalsSound.sysSigreturn (h : k.SignalsSound) : k.sysSigreturn.SignalsSound := by
  unfold Kernel.sysSigreturn
  split
  · exact h.of_eq rfl
  · exact soundRel.schedule (h.signalReturn _)

theorem signalsSound_init : Kernel.init.SignalsSound := fun _ _ none => by cases none

end Kernel

namespace SignalSys

theorem sound_step {t : SignalSys} (h : t.kernel.SignalsSound) :
    (ev : SignalEvent) → ev.Unsignalled → (t.step ev).kernel.SignalsSound
  | .sched op, _ =>
    Kernel.soundRel.schedStep op (fun pid _ _ _ sound => Kernel.SignalsSound.initSignalState sound pid) h
  | .fork child pcb, unsignalled =>
    Kernel.soundRel.sysFork child pcb (fun sound => Kernel.SignalsSound.update sound rfl fun _ found => by
      rw [show pcb.signalState = none from unsignalled] at found
      cases found) h
  | .exit status, _ => Kernel.soundRel.sysExit status h
  | .wait4 pid statusAddr, _ => Kernel.soundRel.sysWait4 pid statusAddr h
  | .kill pid sig, _ => Kernel.soundRel.sysKill pid sig h
  | .sigaction signum act oldact, _ => h.sysSigaction t.mem signum act oldact
  | .sigprocmask how set oldset, _ => h.sysSigprocmask t.mem how set oldset
  | .sigreturn, _ => h.sysSigreturn

theorem sound_run {t : SignalSys} (h : t.kernel.SignalsSound) :
    (events : List SignalEvent) → (∀ ev ∈ events, ev.Unsignalled) → (t.run events).kernel.SignalsSound
  | [], _ => h
  | ev :: rest, allocated =>
    sound_run (sound_step h ev (allocated ev List.mem_cons_self)) rest fun ev' later =>
      allocated ev' (List.mem_cons_of_mem ev later)

end SignalSys

/-- Along every run from the initial kernel, whatever the processes spawn,
fork, exit, wait for, send and mask, and whatever the scheduler delivers on
its switches, no process has SIGKILL or SIGSTOP in its blocked mask, in the
mask saved for a running handler or in a handler's mask, and both keep the
all-zero `SIG_DFL` handler, as long as `allocate_process` hands `fork` PCBs
with no signal state. -/
theorem sigkill_sigstop_never_blocked_or_caught (mem : UserMem) (events : List SignalEvent)
    (unsignalled : ∀ ev ∈ events, ev.Unsignalled) {p : Pid} {s : SignalState}
    (found : ((⟨Kernel.init, mem⟩ : SignalSys).run events).kernel.signalState p = some s) :
    s.blocked &&& unmaskable = 0 ∧ s.savedMask &&& unmaskable = 0 ∧ (∀ i, (s.handlers i).mask &&& unmaskable = 0) ∧
      s.handlerAt sigKill.toNat = .default ∧ s.handlerAt sigStop.toNat = .default := by
  have sound := SignalSys.sound_run (t := ⟨Kernel.init, mem⟩) Kernel.signalsSound_init events unsignalled p s found
  exact ⟨sound.blocked, sound.savedMask, sound.masks, sound.fixed 9 (by decide), sound.fixed 19 (by decide)⟩

def blockingAll : SignalSys :=
  (⟨Kernel.init, fun _ => 0xFF⟩ : SignalSys).run
    [.sched (.spawnServer 1 0 0), .sched .schedule, .fork 2 .zeroed, .sigprocmask sigSetmask 0x1000 0]

/-- The mask it gets is every signal but SIGKILL and SIGSTOP. -/
theorem blocking_all_keeps_sigkill_sigstop :
    (blockingAll.kernel.signalState 1).map SignalState.blocked = some (~~~unmaskable) ∧
      (blockingAll.kernel.signalStateOf 1).blocked &&& unmaskable = 0 := by
  have isSome : (blockingAll.kernel.signalState 1).isSome = true := by decide +kernel
  have found : blockingAll.kernel.signalState 1 = some (blockingAll.kernel.signalStateOf 1) := by
    unfold Kernel.signalStateOf
    cases was : blockingAll.kernel.signalState 1 with
    | none => rw [was] at isSome; cases isSome
    | some s => rfl
  exact ⟨by decide +kernel,
    (sigkill_sigstop_never_blocked_or_caught _ _ (by simp [SignalEvent.Unsignalled, NewPcb.zeroed]) found).1⟩

/-! ### `sys_kill` sees only the ready queue and the current process -/

theorem Kernel.Queued.sysKill_of_stranded {k : Kernel} {l : List Pid} (h : k.Queued l) {pid : UInt64}
    (sig : UInt64) (off : toPid pid ∉ l) (notCurrent : k.gCurrentProcess ≠ some (toPid pid)) (named : pid ≠ 0)
    (valid : (sig.toNat : ℤ) < nsig) : k.sysKill pid sig = (k, -eSrch) := by
  have missed : k.findProcessByPid (toPid pid) = none := by
    rw [h.findProcessByPid, if_neg (not_or.mpr ⟨off, notCurrent⟩)]
  unfold Kernel.sysKill
  rw [if_neg (not_le.mpr valid), missed]
  split_ifs <;> rfl

/-- Along every run of the scheduler's interface from the initial kernel, a
process blocked while another one runs is out of reach of `sys_kill`: the
probe with signal 0 reports no such process, and every signal, SIGKILL
included, fails with `-ESRCH` and leaves the kernel as it was. -/
theorem kill_cannot_reach_blocked_process (ops : List SchedOp) (admissible : Kernel.init.SchedAdmissibleRun ops)
    {pid : UInt64} (sig : UInt64) (blocked : (Kernel.init.schedRun ops).state (toPid pid) = .blocked)
    (notCurrent : (Kernel.init.schedRun ops).gCurrentProcess ≠ some (toPid pid)) (named : pid ≠ 0)
    (valid : (sig.toNat : ℤ) < nsig) :
    (Kernel.init.schedRun ops).sysKill pid sig = (Kernel.init.schedRun ops, -eSrch) := by
  obtain ⟨l, h⟩ := Kernel.ReadyExact.schedRun ops Kernel.readyExact_init.1 Kernel.readyExact_init.2 admissible
  have off : toPid pid ∉ l := fun queued => by
    have ready := (h.ready_iff _).mp queued
    rw [blocked] at ready
    cases ready
  exact h.toQueued.sysKill_of_stranded sig off notCurrent named valid

def blockedServer : Kernel :=
  Kernel.init.schedRun [.spawnServer 1 0 0, .spawnServer 2 0 0, .schedule, .blockCurrentProcess .io 0]

/-- SIGKILL sent to the blocked server 1 finds no such process. -/
theorem sigkill_misses_blocked_server : blockedServer.sysKill 1 9 = (blockedServer, -eSrch) :=
  kill_cannot_reach_blocked_process _ (by decide +kernel) 9 (by decide +kernel) (by decide +kernel) (by decide)
    (by decide)

end Xinim.Proc
