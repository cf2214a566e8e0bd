import Xinim.Proc.SignalCalls

/-! A signal handler's saved mask, from the `setup_signal_frame` that enters
the handler to the `sys_sigreturn` that leaves it. `deliver_pending_signals`
enters no second handler while one runs, and only `signal_return` reads or
writes the saved mask, so whatever every process does in between, a process
leaves its handler with the mask it had blocked when the signal arrived. -/

namespace Xinim.Proc

open Xinim.Kernel (UserMem)

structure SignalState.InHandlerWith (m : UInt64) (s : SignalState) : Prop where
  inHandler : s.inHandler = true
  savedMask : s.savedMask = m

/-- Owing `m` back: inside a handler entered with `m` blocked, or outside any
handler with `m` blocked. -/
def SignalState.Restores (m : UInt64) (s : SignalState) : Prop :=
  s.InHandlerWith m ∨ s.inHandler = false ∧ s.blocked = m

structure SignalState.SameMasks (s s' : SignalState) : Prop where
  inHandler : s'.inHandler = s.inHandler
  savedMask : s'.savedMask = s.savedMask
  blocked : s'.blocked = s.blocked

namespace SignalState

variable {s s' : SignalState} {m : UInt64}

theorem SameMasks.refl (s : SignalState) : s.SameMasks s := ⟨rfl, rfl, rfl⟩

theorem InHandlerWith.of_frame (h : s.InHandlerWith m) (inHandler : s'.inHandler = s.inHandler)
    (savedMask : s'.savedMask = s.savedMask) : s'.InHandlerWith m :=
  ⟨inHandler.trans h.inHandler, savedMask.trans h.savedMask⟩

theorem InHandlerWith.of_sameMasks (h : s.InHandlerWith m) (same : s.SameMasks s') : s'.InHandlerWith m :=
  h.of_frame same.inHandler same.savedMask

theorem Restores.of_sameMasks (h : s.Restores m) (same : s.SameMasks s') : s'.Restores m := by
  rcases h with inside | ⟨outside, blocked⟩
  · exact .inl (inside.of_sameMasks same)
  · exact .inr ⟨same.inHandler.trans outside, same.blocked.trans blocked⟩

theorem InHandlerWith.ne_initial (h : s.InHandlerWith m) : s ≠ .initial := fun initial => by
  have := h.inHandler
  rw [initial] at this
  cases this

end SignalState

namespace Kernel

variable {k k' : Kernel} {p q : Pid} {m : UInt64}

theorem signalStateOf_of_eq (same : k'.signalState = k.signalState) (p : Pid) :
    k'.signalStateOf p = k.signalStateOf p := by
  unfold signalStateOf
  rw [same]

theorem signalStateOf_update_of_ne (ne : p ≠ q) {o : Option SignalState}
    (same : k'.signalState = Function.update k.signalState q o) : k'.signalStateOf p = k.signalStateOf p := by
  unfold signalStateOf
  rw [same, Function.update_of_ne ne]

@[simp] theorem signalStateOf_setSignalState_self (s : SignalState) : (k.setSignalState p s).signalStateOf p = s := by
  unfold signalStateOf
  rw [signalState_setSignalState, Function.update_self, Option.getD_some]

theorem signalState_of_inHandlerWith (h : (k.signalStateOf p).InHandlerWith m) :
    k.signalState p = some (k.signalStateOf p) := by
  unfold signalStateOf at h ⊢
  cases found : k.signalState p with
  | none =>
    rw [found] at h
    exact absurd rfl h.ne_initial
  | some s => rfl

theorem signalStateOf_ensureSignalState (q : Pid) : (k.ensureSignalState q).signalStateOf p = k.signalStateOf p := by
  unfold ensureSignalState
  split_ifs with none
  · by_cases same : p = q
    · subst same
      unfold signalStateOf initSignalState
      dsimp only
      rw [Function.update_self, none]
      rfl
    · exact signalStateOf_update_of_ne same rfl
  · rfl

theorem signalStateOf_initSignalState_of_ne (ne : p ≠ q) :
    (k.initSignalState q).signalStateOf p = k.signalStateOf p :=
  signalStateOf_update_of_ne ne rfl

theorem signalStateOf_allocateProcess_of_ne (ne : p ≠ q) (pcb : NewPcb) :
    (k.allocateProcess q pcb).signalStateOf p = k.signalStateOf p :=
  signalStateOf_update_of_ne ne rfl

/-! ### What the signal primitives do to a process's masks -/

theorem sameMasks_update {s s' : SignalState} (found : k.signalState q = some s)
    (updated : k'.signalState = Function.update k.signalState q (some s')) (same : s.SameMasks s') :
    (k.signalStateOf p).SameMasks (k'.signalStateOf p) := by
  by_cases at_q : p = q
  · subst at_q
    unfold signalStateOf
    rw [updated, Function.update_self, found]
    exact same
  · rw [signalStateOf_update_of_ne at_q updated]
    exact .refl _

theorem sameMasks_modifySignalState (q : Pid) {f : SignalState → SignalState}
    (keeps : ∀ s : SignalState, s.SameMasks (f s)) :
    (k.signalStateOf p).SameMasks ((k.modifySignalState q f).signalStateOf p) := by
  cases found : k.signalState q with
  | none =>
    have same : (k.modifySignalState q f).signalState = k.signalState := by
      unfold modifySignalState
      dsimp only
      rw [found, Option.map_none, ← found, Function.update_eq_self]
    rw [signalStateOf_of_eq same]
    exact .refl _
  | some s =>
    refine sameMasks_update found ?_ (keeps s)
    unfold modifySignalState
    rw [found, Option.map_some]

theorem sameMasks_sendSignal (q : Pid) (signum : ℤ) :
    (k.signalStateOf p).SameMasks ((k.sendSignal q signum).1.signalStateOf p) := by
  have ensured := signalStateOf_ensureSignalState (k := k) (p := p) q
  unfold sendSignal
  unfold ensureSignalState at ensured
  generalize (if k.signalState q = none then k.initSignalState q else k) = k₁ at ensured ⊢
  split_ifs
  · exact .refl _
  · exact ensured ▸ .refl _
  · exact ensured ▸ .refl _
  · have restarted :
        (if signum = sigCont ∧ k₁.state q = .stopped then k₁.setState q .ready else k₁).signalState =
          k₁.signalState := by
      split_ifs <;> rfl
    dsimp only
    generalize (if signum = sigCont ∧ k₁.state q = .stopped then k₁.setState q .ready else k₁) = k₂
      at restarted ⊢
    have marked := sameMasks_modifySignalState (k := k₂) (p := p) q
      (f := fun s => { s with pending := s.pending ||| sigBit signum }) fun s => ⟨rfl, rfl, rfl⟩
    rw [signalStateOf_of_eq restarted, ensured] at marked
    split_ifs
    · exact marked
    · exact marked

theorem signalStateOf_setupSignalFrame_of_ne (ne : p ≠ q) (signum : ℕ) :
    (k.setupSignalFrame q signum).signalStateOf p = k.signalStateOf p := by
  cases found : k.signalState q with
  | none => simp only [setupSignalFrame, found]
  | some s =>
    obtain ⟨_, -, eq⟩ := signalState_setupSignalFrame found signum
    exact signalStateOf_update_of_ne ne eq

theorem setupSignalFrame_inHandlerWith {s : SignalState} (found : k.signalState q = some s) (signum : ℕ) :
    ((k.setupSignalFrame q signum).signalStateOf q).InHandlerWith s.blocked := by
  obtain ⟨_, -, eq⟩ := signalState_setupSignalFrame found signum
  unfold signalStateOf
  rw [eq, Function.update_self]
  exact ⟨rfl, rfl⟩

theorem deliverPendingSignals_masks (q : Pid) :
    (k.signalStateOf p).SameMasks ((k.deliverPendingSignals q).1.signalStateOf p) ∨
      (k.signalStateOf p).inHandler = false ∧
        ((k.deliverPendingSignals q).1.signalStateOf p).InHandlerWith (k.signalStateOf p).blocked := by
  unfold deliverPendingSignals
  cases found : k.signalState q with
  | none => exact .inl (.refl _)
  | some s =>
    dsimp only
    have cleared : (k.signalStateOf p).SameMasks ((k.setSignalState q
        { s with pending := s.pending &&& ~~~sigBit (ffsll (s.pending &&& ~~~s.blocked)) }).signalStateOf p) :=
      sameMasks_update found rfl ⟨rfl, rfl, rfl⟩
    split_ifs with inHandler empty zero ignored dfl
    · exact .inl (.refl _)
    · exact .inl (.refl _)
    · exact .inl (.refl _)
    · exact .inl cleared
    · rw [signalStateOf_of_eq (signalState_defaultAction _ _ _)]
      exact .inl cleared
    · by_cases at_q : p = q
      · subst at_q
        have was : k.signalStateOf p = s := by
          unfold signalStateOf
          rw [found]
          rfl
        have entered := setupSignalFrame_inHandlerWith (k := k.setSignalState p
          { s with pending := s.pending &&& ~~~sigBit (ffsll (s.pending &&& ~~~s.blocked)) })
          (by rw [signalState_setSignalState, Function.update_self]) (ffsll (s.pending &&& ~~~s.blocked))
        rw [was]
        exact .inr ⟨Bool.eq_false_iff.mpr inHandler, entered⟩
      · left
        rw [signalStateOf_setupSignalFrame_of_ne at_q]
        exact cleared

/-! ### Across the scheduler and the process calls -/

theorem inHandlerRel (p : Pid) (m : UInt64) :
    SignalRel fun σ σ' => ((σ p).getD .initial).InHandlerWith m → ((σ' p).getD .initial).InHandlerWith m :=
  SignalRel.ofInvariant _ (fun _ q signum inside => inside.of_sameMasks (sameMasks_sendSignal q signum))
    fun k q inside => by
      rcases deliverPendingSignals_masks (k := k) (p := p) q with same | ⟨outside, -⟩
      · exact inside.of_sameMasks same
      · exact absurd (inside.inHandler.symm.trans outside) (by decide)

theorem restoresRel (p : Pid) (m : UInt64) :
    SignalRel fun σ σ' => ((σ p).getD .initial).Restores m → ((σ' p).getD .initial).Restores m :=
  SignalRel.ofInvariant _ (fun _ q signum owed => owed.of_sameMasks (sameMasks_sendSignal q signum))
    fun k q owed => by
      rcases deliverPendingSignals_masks (k := k) (p := p) q with same | ⟨outside, entered⟩
      · exact owed.of_sameMasks same
      · rcases owed with inside | ⟨-, blocked⟩
        · exact absurd (inside.inHandler.symm.trans outside) (by decide)
        · exact .inl (blocked ▸ entered)

/-! ### The signal calls of the current process -/

theorem inHandlerWith_setSignalState (h : (k.signalStateOf p).InHandlerWith m) {s : SignalState}
    (keeps : q = p → s.inHandler = (k.signalStateOf p).inHandler ∧ s.savedMask = (k.signalStateOf p).savedMask) :
    ((k.setSignalState q s).signalStateOf p).InHandlerWith m := by
  by_cases at_q : p = q
  · subst at_q
    rw [signalStateOf_setSignalState_self]
    exact h.of_frame (keeps rfl).1 (keeps rfl).2
  · rw [signalStateOf_update_of_ne at_q rfl]
    exact h

theorem inHandlerWith_sysSigaction (h : (k.signalStateOf p).InHandlerWith m) (mem : UserMem)
    (signum act oldact : UInt64) : ((k.sysSigaction mem signum act oldact).1.signalStateOf p).InHandlerWith m := by
  unfold sysSigaction
  split
  · exact h
  · rename_i cur _
    have ensured : ((k.ensureSignalState cur).signalStateOf p).InHandlerWith m := by
      rw [signalStateOf_ensureSignalState]
      exact h
    dsimp only
    split
    · exact ensured
    · split
      · exact ensured
      · split
        · exact ensured
        · split
          · exact ensured
          · split
            · exact ensured
            · exact inHandlerWith_setSignalState ensured fun same => by subst same; exact ⟨rfl, rfl⟩

theorem inHandlerWith_sysSigprocmask (h : (k.signalStateOf p).InHandlerWith m) (mem : UserMem)
    (how set oldset : UInt64) : ((k.sysSigprocmask mem how set oldset).1.signalStateOf p).InHandlerWith m := by
  unfold sysSigprocmask
  split
  · exact h
  · rename_i cur _
    have ensured : ((k.ensureSignalState cur).signalStateOf p).InHandlerWith m := by
      rw [signalStateOf_ensureSignalState]
      exact h
    dsimp only
    split
    · exact ensured
    · split
      · exact ensured
      · split
        · exact ensured
        · split_ifs
          · exact inHandlerWith_setSignalState ensured fun same => by subst same; exact ⟨rfl, rfl⟩
          · exact inHandlerWith_setSignalState ensured fun same => by subst same; exact ⟨rfl, rfl⟩
          · exact inHandlerWith_setSignalState ensured fun same => by subst same; exact ⟨rfl, rfl⟩
          · exact ensured

theorem inHandlerWith_signalReturn_of_ne (h : (k.signalStateOf p).InHandlerWith m) (ne : p ≠ q) :
    ((k.signalReturn q).signalStateOf p).InHandlerWith m := by
  unfold signalReturn
  split
  · exact h
  · exact inHandlerWith_setSignalState h fun same => absurd same.symm ne

theorem signalReturn_restores (h : (k.signalStateOf p).InHandlerWith m) :
    ((k.signalReturn p).signalStateOf p).inHandler = false ∧ ((k.signalReturn p).signalStateOf p).blocked = m := by
  unfold signalReturn
  rw [signalState_of_inHandlerWith h]
  dsimp only
  rw [signalStateOf_setSignalState_self]
  exact ⟨rfl, h.savedMask⟩

theorem restores_sysSigreturn (h : (k.signalStateOf p).InHandlerWith m) :
    (k.sysSigreturn.signalStateOf p).Restores m := by
  unfold sysSigreturn
  split
  · exact .inl h
  · rename_i cur _
    by_cases own : p = cur
    · subst own
      exact (restoresRel p m).schedule (.inr (signalReturn_restores h))
    · exact .inl ((inHandlerRel p m).schedule (inHandlerWith_signalReturn_of_ne h own))

end Kernel

def SignalEvent.creates (p : Pid) : SignalEvent → Bool
  | .sched (.spawnServer pid _ _) => pid == p
  | .fork child _ => child == p
  | _ => false

namespace SignalSys

variable {t : SignalSys} {p : Pid} {m : UInt64}

theorem restores_step (h : (t.kernel.signalStateOf p).InHandlerWith m) :
    (ev : SignalEvent) → ev.creates p = false → ((t.step ev).kernel.signalStateOf p).Restores m
  | .sched op, fresh => by
    refine .inl ((Kernel.inHandlerRel p m).schedStep op (fun pid _ _ spawned => ?_) h)
    subst spawned
    have other : p ≠ pid := fun same => by
      subst same
      simp [SignalEvent.creates] at fresh
    intro inside
    show ((t.kernel.initSignalState pid).signalStateOf p).InHandlerWith m
    rw [Kernel.signalStateOf_initSignalState_of_ne other]
    exact inside
  | .fork child pcb, fresh => by
    have other : p ≠ child := fun same => by
      subst same
      simp [SignalEvent.creates] at fresh
    refine .inl ((Kernel.inHandlerRel p m).sysFork child pcb (fun inside => ?_) h)
    show ((t.kernel.allocateProcess child pcb).signalStateOf p).InHandlerWith m
    rw [Kernel.signalStateOf_allocateProcess_of_ne other]
    exact inside
  | .exit status, _ => .inl ((Kernel.inHandlerRel p m).sysExit status h)
  | .wait4 pid statusAddr, _ => .inl ((Kernel.inHandlerRel p m).sysWait4 pid statusAddr h)
  | .kill pid sig, _ => .inl ((Kernel.inHandlerRel p m).sysKill pid sig h)
  | .sigaction signum act oldact, _ => .inl (Kernel.inHandlerWith_sysSigaction h t.mem signum act oldact)
  | .sigprocmask how set oldset, _ => .inl (Kernel.inHandlerWith_sysSigprocmask h t.mem how set oldset)
  | .sigreturn, _ => Kernel.restores_sysSigreturn h

end SignalSys

/-- Once a process is inside a signal handler entered with mask `m`, every
run of events of any process that re-creates no PCB under its pid keeps it
inside that handler with `m` saved, up to the event that takes it out, and
that event leaves it outside with `m` blocked: a handler's own
`sys_sigprocmask`, other processes' signals, forks, exits and waits, and the
scheduler's deliveries to others change nothing of what its `sys_sigreturn`
gives back. -/
theorem sigreturn_restores_handler_mask {t : SignalSys} {p : Pid} {m : UInt64}
    (entered : (t.kernel.signalStateOf p).InHandlerWith m) (events : List SignalEvent)
    (fresh : ∀ ev ∈ events, ev.creates p = false)
    (inside : ∀ n < events.length, ((t.run (events.take n)).kernel.signalStateOf p).inHandler = true) :
    ((t.run events).kernel.signalStateOf p).Restores m := by
  induction events generalizing t with
  | nil => exact .inl entered
  | cons ev rest ih =>
    have stepped := SignalSys.restores_step entered ev (fresh ev List.mem_cons_self)
    cases rest with
    | nil => exact stepped
    | cons ev' rest' =>
      have still : ((t.step ev).kernel.signalStateOf p).inHandler = true := inside 1 (by simp)
      have kept : ((t.step ev).kernel.signalStateOf p).InHandlerWith m := by
        rcases stepped with kept | ⟨outside, -⟩
        · exact kept
        · exact absurd (still.symm.trans outside) (by decide)
      exact ih kept (fun ev'' mem => fresh ev'' (List.mem_cons_of_mem ev mem))
        fun n below => inside (n + 1) (by simpa using below)

def handlerMem : UserMem := fun a =>
  if a = 0x1001 then 0x40 else if 0x2000 ≤ a ∧ a < 0x2008 then 0xFF else 0

/-- Servers 1 and 2 run; 1 takes a handler for signal 11 and is sent signal
10, which the switch back to it delivers as signal 11, entering the handler. -/
def inSignalHandler : SignalSys :=
  (⟨Kernel.init, handlerMem⟩ : SignalSys).run
    [.sched (.spawnServer 1 0 0), .sched (.spawnServer 2 0 0), .sched .schedule, .sigaction 11 0x1000 0,
      .kill 1 10, .sched .schedule, .sched .schedule]

/-- Inside the handler, server 1 blocks every signal it may and returns: it
gets back the empty mask it had when the signal came. -/
theorem handler_blocking_all_returns_to_empty_mask :
    (inSignalHandler.kernel.signalStateOf 1).InHandlerWith 0 ∧
      ((inSignalHandler.run [.sigprocmask sigSetmask 0x2000 0, .sigreturn]).kernel.signalStateOf 1).Restores 0 :=
  have entered : (inSignalHandler.kernel.signalStateOf 1).InHandlerWith 0 := ⟨by decide +kernel, by decide +kernel⟩
  ⟨entered, sigreturn_restores_handler_mask entered _ (by decide) (by decide +kernel)⟩

end Xinim.Proc
