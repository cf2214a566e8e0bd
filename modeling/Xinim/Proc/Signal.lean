import Xinim.Proc.Pcb

/-! Signals of the x86_64 kernel (kernel/signal.cpp): `send_signal`, which
stops, kills or wakes its target at once for some signals and otherwise marks
the signal pending, and `deliver_pending_signals`, which the scheduler calls
on a process it switches to in user mode. Pending and blocked sets are
`uint64_t` masks. -/

namespace Xinim.Proc

def sigPipe : ℤ := 13
def sigKill : ℤ := 9
def sigChld : ℤ := 17
def sigCont : ℤ := 18
def sigStop : ℤ := 19
def nsig : ℤ := 32
def sigDfl : UInt64 := 0
def sigIgn : UInt64 := 1
def saNodefer : UInt64 := 0x40000000

def eSrch : ℤ := 3
def eInval : ℤ := 22

inductive SignalDefaultAction
  | term
  | ignore
  | stop
  | cont
  | core
  deriving DecidableEq, Repr

def getDefaultAction (signum : ℤ) : SignalDefaultAction :=
  if signum ∈ [1, 2, 14, 15, 10, 12, 13, 16, 24, 25, 31, 30] then .term
  else if signum ∈ [3, 4, 5, 6, 7, 8, 11] then .core
  else if signum ∈ [17, 23, 28] then .ignore
  else if signum ∈ [19, 20, 21, 22] then .stop
  else if signum = 18 then .cont
  else .term

def sigBit (signum : ℤ) : UInt64 := 1 <<< UInt64.ofInt signum

/-- `__builtin_ffsll`: one more than the index of the lowest set bit, `0` for `0`. -/
def ffsll (x : UInt64) : ℕ :=
  (((List.range 64).find? fun i => x.toNat.testBit i).map (· + 1)).getD 0

theorem ffsll_le (x : UInt64) : ffsll x ≤ 64 := by
  unfold ffsll
  cases found : (List.range 64).find? (fun i => x.toNat.testBit i) with
  | none => simp
  | some n =>
    have below := List.mem_range.mp (List.mem_of_find?_eq_some found)
    simp only [Option.map_some, Option.getD_some]
    omega

/-- What `init_signal_state` leaves: every handler `SIG_DFL`, nothing pending
or blocked. -/
def SignalState.initial : SignalState := ⟨fun _ => .default, 0, 0, false, 0⟩

@[simp] theorem SignalState.handlerAt_of_lt (s : SignalState) {signum : ℕ} (inArray : signum < 32) :
    s.handlerAt signum = s.handlers ⟨signum, inArray⟩ := by
  rw [handlerAt, dif_pos inArray]

namespace Kernel

def initSignalState (k : Kernel) (pcb : Pid) : Kernel :=
  { k with signalState := Function.update k.signalState pcb (some .initial) }

def modifySignalState (k : Kernel) (pcb : Pid) (f : SignalState → SignalState) : Kernel :=
  { k with signalState := Function.update k.signalState pcb ((k.signalState pcb).map f) }

def setState (k : Kernel) (pcb : Pid) (s : ProcessState) : Kernel :=
  { k with state := Function.update k.state pcb s }

def sendSignal (k : Kernel) (pcb : Pid) (signum : ℤ) : Kernel × ℤ :=
  if signum < 1 ∨ signum ≥ nsig then (k, -eInval)
  else
    let k := if k.signalState pcb = none then k.initSignalState pcb else k
    if signum = sigKill then
      ({ k with
          state := Function.update k.state pcb .zombie
          exitStatus := Function.update k.exitStatus pcb (128 + signum)
          hasExited := Function.update k.hasExited pcb true }, 0)
    else if signum = sigStop then (k.setState pcb .stopped, 0)
    else
      let k := if signum = sigCont ∧ k.state pcb = .stopped then k.setState pcb .ready else k
      let k := k.modifySignalState pcb fun s => { s with pending := s.pending ||| sigBit signum }
      -- a blocked process is woken for a signal it does not block
      let unblocked := ((k.signalState pcb).map fun s => s.blocked &&& sigBit signum == 0).getD false
      if k.state pcb = .blocked ∧ unblocked then (k.setState pcb .ready, 0) else (k, 0)

/-- `setup_signal_frame(pcb, signum)`. `handler` points into the signal state,
so each of its fields is read after the writes that come before it. -/
def setupSignalFrame (k : Kernel) (pcb : Pid) (signum : ℕ) : Kernel :=
  match k.signalState pcb with
  | none => k
  | some s =>
    let s := { s with savedMask := s.blocked }
    let s := { s with blocked := s.blocked ||| (s.handlerAt signum).mask }
    let s := if (s.handlerAt signum).flags &&& saNodefer == 0 then { s with blocked := s.blocked ||| sigBit signum }
      else s
    let ctx := k.context pcb
    let rsp := (ctx.rsp - 16) &&& ~~~15
    { k with
      signalState := Function.update k.signalState pcb (some { s with inHandler := true })
      context := Function.update k.context pcb
        { ctx with rdi := UInt64.ofNat signum, rsp := rsp, rip := (s.handlerAt signum).handler } }

def defaultAction (k : Kernel) (pcb : Pid) (signum : ℕ) : Kernel × Bool :=
  match getDefaultAction signum with
  | .term | .core =>
    ({ k with
        state := Function.update k.state pcb .zombie
        exitStatus := Function.update k.exitStatus pcb (128 + signum)
        hasExited := Function.update k.hasExited pcb true }, true)
  | .ignore => (k, false)
  | .stop => (k.setState pcb .stopped, true)
  | .cont => (if k.state pcb = .stopped then k.setState pcb .ready else k, false)

/-- `deliver_pending_signals(pcb)`: acts on the signal numbered by `ffsll` of
the deliverable set. -/
def deliverPendingSignals (k : Kernel) (pcb : Pid) : Kernel × Bool :=
  match k.signalState pcb with
  | none => (k, false)
  | some s =>
    if s.inHandler then (k, false)
    else
      let deliverable := s.pending &&& ~~~s.blocked
      if deliverable = 0 then (k, false)
      else
        let signum := ffsll deliverable
        if signum = 0 then (k, false)
        else
          let s := { s with pending := s.pending &&& ~~~sigBit signum }
          let k := { k with signalState := Function.update k.signalState pcb (some s) }
          let handler := s.handlerAt signum
          if handler.handler = sigIgn then (k, false)
          else if handler.handler = sigDfl then k.defaultAction pcb signum
          else (k.setupSignalFrame pcb signum, true)

theorem signalState_defaultAction (k : Kernel) (pcb : Pid) (signum : ℕ) :
    (k.defaultAction pcb signum).1.signalState = k.signalState := by
  unfold defaultAction
  cases getDefaultAction signum with
  | term | core | ignore | stop => rfl
  | cont => split_ifs <;> rfl

theorem signalState_setupSignalFrame {k : Kernel} {pcb : Pid} {s : SignalState} (found : k.signalState pcb = some s)
    (signum : ℕ) :
    ∃ added, (added = 0 ∨ added = sigBit signum) ∧
      (k.setupSignalFrame pcb signum).signalState = Function.update k.signalState pcb
        (some { s with
          savedMask := s.blocked
          blocked := s.blocked ||| (s.handlerAt signum).mask ||| added
          inHandler := true }) := by
  have mask : ({ s with savedMask := s.blocked }.handlerAt signum).mask = (s.handlerAt signum).mask := by
    unfold SignalState.handlerAt
    split_ifs <;> rfl
  unfold setupSignalFrame
  rw [found]
  dsimp only
  rw [mask]
  split_ifs
  · exact ⟨_, .inr rfl, rfl⟩
  · exact ⟨0, .inl rfl, by rw [UInt64.or_zero]⟩

/-- What `deliver_pending_signals` may do to the state of its process: make it
a zombie, stop it, or make a stopped one ready. -/
def DeliveredState (before after : ProcessState) : Prop :=
  after = before ∨ after = .zombie ∨ after = .stopped ∨ (before = .stopped ∧ after = .ready)

theorem defaultAction_shape (k : Kernel) (pcb : Pid) (signum : ℕ) :
    ∃ (s : ProcessState) (es : Pid → ℤ) (he : Pid → Bool),
      (k.defaultAction pcb signum).1 =
        { k with
          state := Function.update k.state pcb s
          exitStatus := es
          hasExited := he } ∧ DeliveredState (k.state pcb) s := by
  have unchanged : k = { k with
      state := Function.update k.state pcb (k.state pcb)
      exitStatus := k.exitStatus
      hasExited := k.hasExited } := by
    rw [Function.update_eq_self]
  have zombie : ∃ (es : Pid → ℤ) (he : Pid → Bool),
      ({ k with
          state := Function.update k.state pcb .zombie
          exitStatus := Function.update k.exitStatus pcb (128 + signum)
          hasExited := Function.update k.hasExited pcb true } : Kernel) =
        { k with
          state := Function.update k.state pcb .zombie
          exitStatus := es
          hasExited := he } := ⟨_, _, rfl⟩
  cases action : getDefaultAction signum with
  | term | core =>
    obtain ⟨es, he, eq⟩ := zombie
    exact ⟨.zombie, es, he, by simpa only [defaultAction, action] using eq, Or.inr (Or.inl rfl)⟩
  | ignore =>
    exact ⟨k.state pcb, k.exitStatus, k.hasExited, by simpa only [defaultAction, action] using unchanged,
      Or.inl rfl⟩
  | stop =>
    exact ⟨.stopped, k.exitStatus, k.hasExited, by simp only [defaultAction, action, setState],
      Or.inr (Or.inr (Or.inl rfl))⟩
  | cont =>
    by_cases stopped : k.state pcb = .stopped
    · exact ⟨.ready, k.exitStatus, k.hasExited, by simp only [defaultAction, action, stopped, setState, if_true],
        Or.inr (Or.inr (Or.inr ⟨stopped, rfl⟩))⟩
    · exact ⟨k.state pcb, k.exitStatus, k.hasExited,
        by simpa only [defaultAction, action, stopped, if_false] using unchanged, Or.inl rfl⟩

theorem deliverPendingSignals_shape (k : Kernel) (pcb : Pid) :
    ∃ (s : ProcessState) (ss : Pid → Option SignalState) (ctx : Pid → CpuContext) (es : Pid → ℤ)
      (he : Pid → Bool),
      (k.deliverPendingSignals pcb).1 =
        { k with
          state := Function.update k.state pcb s
          signalState := ss
          context := ctx
          exitStatus := es
          hasExited := he } ∧ DeliveredState (k.state pcb) s := by
  have keep : ∀ ss : Pid → Option SignalState, ∀ ctx : Pid → CpuContext,
      { k with signalState := ss, context := ctx } =
        { k with
          state := Function.update k.state pcb (k.state pcb)
          signalState := ss
          context := ctx
          exitStatus := k.exitStatus
          hasExited := k.hasExited } := by
    intro ss ctx
    rw [Function.update_eq_self]
  have nothing : ∃ (s : ProcessState) (ss : Pid → Option SignalState) (ctx : Pid → CpuContext) (es : Pid → ℤ)
      (he : Pid → Bool),
      k = { k with
          state := Function.update k.state pcb s
          signalState := ss
          context := ctx
          exitStatus := es
          hasExited := he } ∧ DeliveredState (k.state pcb) s :=
    ⟨k.state pcb, _, _, _, _, keep k.signalState k.context, Or.inl rfl⟩
  unfold deliverPendingSignals
  cases found : k.signalState pcb with
  | none => exact nothing
  | some s =>
    dsimp only
    by_cases inHandler : s.inHandler = true
    · simpa only [inHandler, if_true] using nothing
    · rw [if_neg inHandler]
      by_cases empty : s.pending &&& ~~~s.blocked = 0
      · simpa only [empty, if_true] using nothing
      · rw [if_neg empty]
        by_cases zero : ffsll (s.pending &&& ~~~s.blocked) = 0
        · simpa only [zero, if_true] using nothing
        · rw [if_neg zero]
          split_ifs with ignored dfl
          · exact ⟨k.state pcb, _, k.context, _, _, keep _ _, Or.inl rfl⟩
          · obtain ⟨st, es, he, eq, delivered⟩ := defaultAction_shape
              { k with
                signalState := Function.update k.signalState pcb
                  (some { s with pending := s.pending &&& ~~~sigBit (ffsll (s.pending &&& ~~~s.blocked)) }) }
              pcb (ffsll (s.pending &&& ~~~s.blocked))
            exact ⟨st, _, k.context, es, he, eq, delivered⟩
          · unfold setupSignalFrame
            split
            · exact ⟨k.state pcb, _, k.context, _, _, keep _ _, Or.inl rfl⟩
            · exact ⟨k.state pcb, _, _, _, _, keep _ _, Or.inl rfl⟩

theorem deliverPendingSignals_frame (k : Kernel) (pcb : Pid) :
    (k.deliverPendingSignals pcb).1.readyQueue = k.readyQueue ∧
      (k.deliverPendingSignals pcb).1.gCurrentProcess = k.gCurrentProcess ∧
      (k.deliverPendingSignals pcb).1.pcbs = k.pcbs ∧
      (k.deliverPendingSignals pcb).1.halted = k.halted ∧
      ∃ s, DeliveredState (k.state pcb) s ∧ (k.deliverPendingSignals pcb).1.state = Function.update k.state pcb s := by
  obtain ⟨s, ss, ctx, es, he, eq, delivered⟩ := k.deliverPendingSignals_shape pcb
  rw [eq]
  exact ⟨rfl, rfl, rfl, rfl, s, delivered, rfl⟩

end Kernel

/-- A SIGCONT sent to a process stops it: `ffsll` numbers the bits from one,
so `deliver_pending_signals` acts on signal 19, SIGSTOP, whose default action
stops the process, and leaves SIGCONT pending. Signal 31, the last one
`send_signal` accepts, is delivered through `handlers[32]`, one past the
`NSIG` handlers of the array. -/
theorem delivery_acts_on_next_signal :
    ((Kernel.init.sendSignal 1 sigCont).1.deliverPendingSignals 1).1.state 1 = .stopped ∧
      (((Kernel.init.sendSignal 1 sigCont).1.deliverPendingSignals 1).1.signalState 1).map SignalState.pending =
        some (sigBit sigCont) ∧
      ffsll ((((Kernel.init.sendSignal 1 31).1.signalState 1).map SignalState.pending).getD 0) = nsig.toNat := by
  decide

end Xinim.Proc
