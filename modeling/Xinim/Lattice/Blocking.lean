import Xinim.Lattice.Delivery

/-! The blocking `lattice_recv` of kernel/lattice_ipc.cpp against `lattice_send`
over the channels of this node, one access to shared state at a time. One
thread receives for `dst`; `n` threads send to it. A read of `is_listening`,
a queue push and a scan of the channels are each a step; the locked handoff of
`lattice_send` is one step, so between steps only the receiver holds
`g_ipc_mutex`: from its `unique_lock` to `wait_until`, and from a wake-up to
its return. `wait_until` may return at any step, timed out or not, as the
100 ms deadline and spurious wake-ups allow; `notify_all` then changes nothing
that a safety property depends on. Beside the state a run logs each message
accepted for `dst` and each one taken, and the sender of the message in the
inbox. -/

namespace Xinim.Lattice

variable {α : Type}

/-- Where a thread is in `lattice_send(src, dst, msg, flags)` once it has its
channel `key` on this node: before the test of `is_listening(dst)`, before the
locked handoff, before `push_back`, before the second test of
`is_listening(dst)`, before clearing the flag. -/
inductive SendPc (α : Type)
  | idle
  | found (key : ChannelKey) (msg : α) (flags : IpcFlags)
  | handingOff (key : ChannelKey) (msg : α)
  | queueing (key : ChannelKey) (msg : α)
  | pushed
  | waking

namespace SendPc

def busy : SendPc α → Bool
  | idle => false
  | _ => true

def channel : SendPc α → Option ChannelKey
  | found key _ _ | queueing key _ => some key
  | _ => none

end SendPc

/-- Where the receiver is in `lattice_recv(dst, out, flags)`: in the unlocked
scan of the channels; holding `g_ipc_mutex` before `lattice_listen`, before the
loop's test of the inbox or before its scan of the channels; or inside
`wait_until`, the mutex released. -/
inductive RecvPc
  | idle
  | scanning (flags : IpcFlags)
  | registering
  | checkingInbox
  | checkingChannels
  | waiting
  deriving DecidableEq

namespace RecvPc

def holds : RecvPc → Bool
  | registering | checkingInbox | checkingChannels => true
  | _ => false

def listens : RecvPc → Bool
  | checkingInbox | checkingChannels | waiting => true
  | _ => false

end RecvPc

structure Threads (n : ℕ) (α : Type) where
  ipc : Ipc α
  senders : Fin n → SendPc α
  receiver : RecvPc
  sent : List (Pid × Pid × α)
  received : List (Pid × Pid × α)
  inboxFrom : Pid

/-- A thread enters `lattice_send`, a thread takes its next step, the receiver
enters `lattice_recv`, or it takes its next step (`timedOut` is what
`wait_until` returns). -/
inductive Event (n : ℕ) (α : Type)
  | send (th : Fin n) (src : Pid) (msg : α) (flags : IpcFlags)
  | sender (th : Fin n)
  | recv (flags : IpcFlags)
  | receiver (timedOut : Bool)

namespace Threads

variable {n : ℕ} (here : Node) (dst : Pid)

def init : Threads n α := ⟨.init, fun _ => .idle, .idle, [], [], 0⟩

def setSender (t : Threads n α) (th : Fin n) (pc : SendPc α) : Threads n α :=
  { t with senders := Function.update t.senders th pc }

/-- `find` or `connect`; over a remote channel the call ends with what
`net::send` returns. -/
def enterSend (t : Threads n α) (th : Fin n) (src : Pid) (msg : α) (flags : IpcFlags) : Threads n α :=
  let ch := Ipc.sendChannel t.ipc.graph here src dst
  let t := { t with ipc := { t.ipc with graph := ch.1 } }
  if ch.2.2.2 = here then t.setSender th (.found ch.2 msg flags) else t

/-- Under the lock: `inbox_[dst] = msg`, `set_listening(dst, false)`,
`unblock`, `notify_all`, `yield_to`. -/
def handOff (t : Threads n α) (src : Pid) (msg : α) : Threads n α :=
  { t with
    ipc := { graph := { t.ipc.graph with inbox := t.ipc.graph.inbox.insert dst msg }.setListening dst false
             scheduler := (t.ipc.scheduler.unblock dst).yieldTo dst }
    sent := t.sent ++ [(src, dst, msg)]
    inboxFrom := src }

def push (t : Threads n α) (key : ChannelKey) (msg : α) : Threads n α :=
  { t with
    ipc := { t.ipc with graph := { t.ipc.graph with edges := Graph.pushBack key msg t.ipc.graph.edges } }
    sent := t.sent ++ [(key.1, dst, msg)] }

def wake (t : Threads n α) : Threads n α :=
  { t with ipc := { graph := t.ipc.graph.setListening dst false, scheduler := t.ipc.scheduler.unblock dst } }

def senderStep (t : Threads n α) (th : Fin n) : Threads n α :=
  match t.senders th with
  | .idle => t
  | .found key msg flags =>
    if t.ipc.graph.isListening dst then t.setSender th (.handingOff key msg)
    else if flags = .nonblock then t.setSender th .idle
    else t.setSender th (.queueing key msg)
  | .handingOff key msg =>
    -- the `lock_guard` waits while the receiver holds `g_ipc_mutex`
    if t.receiver.holds then t else (t.handOff dst key.1 msg).setSender th .idle
  | .queueing key msg => (t.push dst key msg).setSender th .pushed
  | .pushed => if t.ipc.graph.isListening dst then t.setSender th .waking else t.setSender th .idle
  | .waking => (t.wake dst).setSender th .idle

def takeInbox (t : Threads n α) (msg : α) : Threads n α :=
  { t with
    ipc := { t.ipc with graph := { t.ipc.graph with inbox := t.ipc.graph.inbox.erase dst } }
    received := t.received ++ [(t.inboxFrom, dst, msg)] }

def takeChannel (t : Threads n α) (r : ChannelKey × α × List (ChannelKey × List α)) : Threads n α :=
  { t with
    ipc := { t.ipc with graph := { t.ipc.graph with edges := r.2.2 } }
    received := t.received ++ [(r.1.1, dst, r.2.1)] }

/-- The return of a blocking receive: `unblock(dst)`, `set_listening(dst,
false)` and the lock released. -/
def finish (t : Threads n α) : Threads n α := { t.wake dst with receiver := .idle }

def enterRecv (t : Threads n α) (flags : IpcFlags) : Threads n α :=
  match t.ipc.graph.inbox.lookup dst with
  | some msg => t.takeInbox dst msg
  | none => { t with receiver := .scanning flags }

def receiverStep (t : Threads n α) (timedOut : Bool) : Threads n α :=
  match t.receiver with
  | .idle => t
  | .scanning flags =>
    match Graph.popFront dst here t.ipc.graph.edges with
    | some r => { t.takeChannel dst r with receiver := .idle }
    | none => { t with receiver := if flags = .nonblock then .idle else .registering }
  | .registering =>
    { t with
      ipc := { graph := t.ipc.graph.setListening dst true, scheduler := (t.ipc.scheduler.blockOn dst (-1)).2 }
      receiver := .checkingInbox }
  | .checkingInbox =>
    match t.ipc.graph.inbox.lookup dst with
    | some msg => (t.takeInbox dst msg).finish dst
    | none => { t with receiver := .checkingChannels }
  | .checkingChannels =>
    match Graph.popFront dst here t.ipc.graph.edges with
    | some r => (t.takeChannel dst r).finish dst
    | none => { t with receiver := .waiting }
  | .waiting => if timedOut then t.finish dst else { t with receiver := .checkingInbox }

def step (t : Threads n α) : Event n α → Threads n α
  | .send th src msg flags => if (t.senders th).busy then t else t.enterSend here dst th src msg flags
  | .sender th => t.senderStep dst th
  | .recv flags => if t.receiver = .idle then t.enterRecv dst flags else t
  | .receiver timedOut => t.receiverStep here dst timedOut

def run (t : Threads n α) (events : List (Event n α)) : Threads n α := events.foldl (step here dst) t

/-- A thread enters `lattice_send` only while no other thread is in it. -/
def Serial (t : Threads n α) : Event n α → Prop
  | .send th _ _ _ => ∀ other, other ≠ th → (t.senders other).busy = false
  | .sender _ | .recv _ | .receiver _ => True

instance (t : Threads n α) : (ev : Event n α) → Decidable (t.Serial ev)
  | .send th _ _ _ => inferInstanceAs (Decidable (∀ other, other ≠ th → (t.senders other).busy = false))
  | .sender _ | .recv _ | .receiver _ => isTrue trivial

def SerialRun : Threads n α → List (Event n α) → Prop
  | _, [] => True
  | t, ev :: evs => t.Serial ev ∧ SerialRun (t.step here dst ev) evs

instance decidableSerialRun : (t : Threads n α) → (evs : List (Event n α)) → Decidable (t.SerialRun here dst evs)
  | _, [] => isTrue trivial
  | t, ev :: evs =>
    haveI := decidableSerialRun (t.step here dst ev) evs
    inferInstanceAs (Decidable (t.Serial ev ∧ (t.step here dst ev).SerialRun here dst evs))

def held (t : Threads n α) (src : Pid) : List α :=
  if t.inboxFrom = src then (t.ipc.graph.inbox.lookup dst).toList else []

/-- What `src` sent to `dst` and is still held: the inbox, then the channel of
this node. -/
def pending (t : Threads n α) (src : Pid) : List α :=
  t.held dst src ++ Graph.queueOf t.ipc.graph.edges (src, dst, here)

def Logged (t : Threads n α) : Prop :=
  ∀ src, (between src dst t.sent).Perm (between src dst t.received ++ t.pending here dst src)

end Threads

namespace SendPc

theorem busy_of_channel {pc : SendPc α} {key : ChannelKey} (found : pc.channel = some key) : pc.busy = true := by
  cases pc <;> first | rfl | cases found

end SendPc

namespace Threads

variable {n : ℕ} {here : Node} {dst : Pid} {t : Threads n α}

section Log

theorem held_of_none (empty : t.ipc.graph.inbox.lookup dst = none) (src : Pid) : t.held dst src = [] := by
  simp [held, empty]

theorem Logged.congr {t' : Threads n α} (h : t.Logged here dst) (sent : t'.sent = t.sent)
    (received : t'.received = t.received) (inboxFrom : t'.inboxFrom = t.inboxFrom)
    (inbox : t'.ipc.graph.inbox = t.ipc.graph.inbox)
    (queues : ∀ k, Graph.queueOf t'.ipc.graph.edges k = Graph.queueOf t.ipc.graph.edges k) :
    t'.Logged here dst := by
  intro src
  have same : t'.pending here dst src = t.pending here dst src := by
    simp only [pending, held, inbox, inboxFrom, queues]
  rw [sent, received, same]
  exact h src

theorem Logged.handOff (h : t.Logged here dst) (empty : t.ipc.graph.inbox.lookup dst = none) (src : Pid)
    (msg : α) : (t.handOff dst src msg).Logged here dst := by
  intro src'
  have log := h src'
  rw [pending, held_of_none empty, List.nil_append] at log
  have heldAfter : (t.handOff dst src msg).held dst src' = if src = src' then [msg] else [] := by
    simp [Threads.handOff, held, Graph.setListening]
  rw [pending, heldAfter]
  simp only [Threads.handOff, Graph.setListening, between_append, between_singleton, and_true]
  by_cases same : src = src'
  · rw [if_pos same]
    exact (log.append_right [msg]).trans (by rw [List.append_assoc]; exact List.perm_append_comm.append_left _)
  · rw [if_neg same, List.append_nil, List.nil_append]
    exact log

theorem Logged.push (h : t.Logged here dst) {src : Pid} (mem : (src, dst, here) ∈ t.ipc.graph.edges.map (·.1))
    (msg : α) : (t.push dst (src, dst, here) msg).Logged here dst := by
  intro src'
  have log := h src'
  have heldSame : (t.push dst (src, dst, here) msg).held dst src' = t.held dst src' := rfl
  unfold pending at log ⊢
  rw [heldSame]
  simp only [Threads.push, between_append, between_singleton, and_true, Graph.queueOf_pushBack msg mem]
  by_cases same : src = src'
  · subst same
    simpa only [if_true, List.append_assoc] using log.append_right [msg]
  · have other : (src', dst, here) ≠ (src, dst, here) := fun key => same (Prod.ext_iff.mp key).1.symm
    rw [if_neg same, if_neg other, List.append_nil]
    exact log

theorem Logged.takeInbox (h : t.Logged here dst) {msg : α} (present : t.ipc.graph.inbox.lookup dst = some msg) :
    (t.takeInbox dst msg).Logged here dst := by
  intro src
  have log := h src
  rw [pending, held, present, Option.toList_some] at log
  simp only [pending, held, Threads.takeInbox, between_append, between_singleton, and_true, AList.lookup_erase,
    Option.toList_none, ite_self, List.nil_append, List.append_assoc]
  exact log

theorem Logged.takeChannel (h : t.Logged here dst) (nodup : (t.ipc.graph.edges.map (·.1)).Nodup)
    {r : ChannelKey × α × List (ChannelKey × List α)} (found : Graph.popFront dst here t.ipc.graph.edges = some r) :
    (t.takeChannel dst r).Logged here dst := by
  obtain ⟨⟨sender, toDst, node⟩, msg, rest⟩ := r
  obtain ⟨toPid, onNode, front, others, -⟩ := Graph.popFront_spec nodup found
  dsimp only at toPid onNode front others
  subst toPid onNode
  intro src
  have log := h src
  have heldSame : (t.takeChannel toDst ((sender, toDst, node), msg, rest)).held toDst src = t.held toDst src := rfl
  unfold pending at log ⊢
  rw [heldSame]
  simp only [Threads.takeChannel, between_append, between_singleton, and_true]
  by_cases same : sender = src
  · subst same
    rw [if_pos rfl, front] at *
    rw [List.append_assoc]
    exact log.trans (List.perm_middle.append_left _)
  · have other : (src, toDst, node) ≠ (sender, toDst, node) := fun key => same (Prod.ext_iff.mp key).1.symm
    rw [if_neg same, List.append_nil, others _ other]
    exact log

end Log

/-- The invariant of the threads: `dst` listens only while its receiver is
between `lattice_listen` and its return; the inbox is empty while the
receiver scans the channels under the lock; an inbox that is full while `dst`
listens is about to be taken; a thread that saw `dst` listening finds the inbox
empty when it gets the lock, unless the receiver is about to empty it; every
channel a thread will push onto leads to `dst` on this node; at most one thread
is in `lattice_send`; and the log balances. -/
structure Inv (here : Node) (dst : Pid) (t : Threads n α) : Prop where
  nodup : (t.ipc.graph.edges.map (·.1)).Nodup
  listening : t.ipc.graph.isListening dst = true → t.receiver.listens = true
  drained : t.receiver = .checkingChannels → t.ipc.graph.inbox.lookup dst = none
  claimed : (t.ipc.graph.inbox.lookup dst).isSome → t.ipc.graph.isListening dst = true →
    t.receiver = .checkingInbox
  handoff : ∀ th key msg, t.senders th = .handingOff key msg →
    t.ipc.graph.inbox.lookup dst = none ∨ t.receiver = .checkingInbox
  channel : ∀ th key, (t.senders th).channel = some key →
    key.2.1 = dst ∧ key.2.2 = here ∧ key ∈ t.ipc.graph.edges.map (·.1)
  single : ∀ th th', (t.senders th).busy = true → (t.senders th').busy = true → th = th'
  logged : t.Logged here dst

theorem inv_init : (init : Threads n α).Inv here dst where
  nodup := List.nodup_nil
  listening listens := by simp [init, Ipc.init, Graph.empty, Graph.isListening] at listens
  drained busy := by cases busy
  claimed present := by simp [init, Ipc.init, Graph.empty] at present
  handoff _ _ _ pc := by cases pc
  channel _ _ found := by cases found
  single _ _ busy := by cases busy
  logged src := by
    by_cases named : (0 : Pid) = src <;> simp [init, Ipc.init, Graph.empty, pending, held, Graph.queueOf, named]

theorem Inv.alone (h : t.Inv here dst) {th : Fin n} (busy : (t.senders th).busy = true) :
    ∀ other, other ≠ th → (t.senders other).busy = false := fun other ne =>
  Bool.eq_false_iff.mpr fun busy' => ne (h.single other th busy' busy)

theorem Inv.setSender (h : t.Inv here dst) (th : Fin n) (pc : SendPc α)
    (alone : pc.busy = true → ∀ other, other ≠ th → (t.senders other).busy = false)
    (handoff : ∀ key msg, pc = .handingOff key msg →
      t.ipc.graph.inbox.lookup dst = none ∨ t.receiver = .checkingInbox)
    (channel : ∀ key, pc.channel = some key →
      key.2.1 = dst ∧ key.2.2 = here ∧ key ∈ t.ipc.graph.edges.map (·.1)) :
    (t.setSender th pc).Inv here dst where
  nodup := h.nodup
  listening := h.listening
  drained := h.drained
  claimed := h.claimed
  handoff other key msg moved := by
    by_cases same : other = th
    · subst same
      exact handoff key msg (by simpa [Threads.setSender] using moved)
    · exact h.handoff other key msg (by simpa [Threads.setSender, same] using moved)
  channel other key found := by
    by_cases same : other = th
    · subst same
      exact channel key (by simpa [Threads.setSender] using found)
    · exact h.channel other key (by simpa [Threads.setSender, same] using found)
  single a b busyA busyB := by
    simp only [Threads.setSender, Function.update_apply] at busyA busyB
    split_ifs at busyA busyB with isA isB isB
    · exact isA.trans isB.symm
    · exact absurd busyB (by rw [alone busyA b isB]; decide)
    · exact absurd busyA (by rw [alone busyB a isA]; decide)
    · exact h.single a b busyA busyB
  logged := h.logged

theorem Inv.setReceiver (h : t.Inv here dst) (r : RecvPc)
    (listening : t.ipc.graph.isListening dst = true → r.listens = true)
    (drained : r = .checkingChannels → t.ipc.graph.inbox.lookup dst = none)
    (claimed : (t.ipc.graph.inbox.lookup dst).isSome → t.ipc.graph.isListening dst = true → r = .checkingInbox)
    (handoff : ∀ th key msg, t.senders th = .handingOff key msg →
      t.ipc.graph.inbox.lookup dst = none ∨ r = .checkingInbox) :
    ({ t with receiver := r } : Threads n α).Inv here dst :=
  ⟨h.nodup, listening, drained, claimed, handoff, h.channel, h.single, h.logged⟩

theorem Inv.of_idle (quiet : ∀ th, (t.senders th).busy = false) (nodup : (t.ipc.graph.edges.map (·.1)).Nodup)
    (listening : t.ipc.graph.isListening dst = true → t.receiver.listens = true)
    (drained : t.receiver = .checkingChannels → t.ipc.graph.inbox.lookup dst = none)
    (claimed : (t.ipc.graph.inbox.lookup dst).isSome → t.ipc.graph.isListening dst = true →
      t.receiver = .checkingInbox)
    (logged : t.Logged here dst) : t.Inv here dst where
  nodup := nodup
  listening := listening
  drained := drained
  claimed := claimed
  handoff th _ _ pc := absurd (quiet th) (by rw [pc]; simp [SendPc.busy])
  channel th _ found := absurd (quiet th) (by rw [SendPc.busy_of_channel found]; decide)
  single a _ busy _ := absurd busy (by rw [quiet a]; decide)
  logged := logged

theorem Inv.release (h : t.Inv here dst) (th : Fin n) : (t.setSender th .idle).Inv here dst :=
  h.setSender th _ (fun busy => by cases busy) (fun _ _ moved => by cases moved) fun _ found => by cases found

theorem Inv.quiet (h : t.Inv here dst) (deaf : t.receiver.listens = false) : t.ipc.graph.isListening dst = false :=
  Bool.eq_false_iff.mpr fun listens => by rw [h.listening listens] at deaf; cases deaf

theorem Inv.empty_of_handingOff (h : t.Inv here dst) {th : Fin n} {key : ChannelKey} {msg : α}
    (pc : t.senders th = .handingOff key msg) (away : t.receiver ≠ .checkingInbox) :
    t.ipc.graph.inbox.lookup dst = none :=
  (h.handoff th key msg pc).resolve_right away

theorem Inv.enterSend (h : t.Inv here dst) {th : Fin n} (idle : (t.senders th).busy = false)
    (serial : ∀ other, other ≠ th → (t.senders other).busy = false) (src : Pid) (msg : α) (flags : IpcFlags) :
    (t.enterSend here dst th src msg flags).Inv here dst := by
  obtain ⟨queues, listening, inbox, keepsNodup⟩ := Ipc.sendChannel_frame t.ipc.graph here src dst
  have flag : (Ipc.sendChannel t.ipc.graph here src dst).1.isListening dst = t.ipc.graph.isListening dst := by
    simp only [Graph.isListening, listening]
  have quiet : ∀ other, (t.senders other).busy = false := fun other =>
    if same : other = th then same ▸ idle else serial other same
  have found : ({ t with ipc := { t.ipc with graph := (Ipc.sendChannel t.ipc.graph here src dst).1 } } :
      Threads n α).Inv here dst := by
    refine Inv.of_idle quiet (keepsNodup h.nodup) (fun listens => h.listening (flag ▸ listens)) (fun busy => ?_)
      (fun present listens => ?_) (h.logged.congr rfl rfl rfl inbox queues)
    · dsimp only
      rw [inbox]
      exact h.drained busy
    · dsimp only at present
      rw [inbox] at present
      exact h.claimed present (flag ▸ listens)
  unfold Threads.enterSend
  dsimp only
  split_ifs with onNode
  · refine found.setSender th _ (fun _ => serial) (fun _ _ pc => by cases pc) fun key named => ?_
    cases named
    exact ⟨(Ipc.sendChannel_key t.ipc.graph here src dst).2, onNode, Ipc.mem_sendChannel t.ipc.graph here src dst⟩
  · exact found

theorem Inv.handOff (h : t.Inv here dst) {th : Fin n} {key : ChannelKey} {msg : α}
    (pc : t.senders th = .handingOff key msg) (free : t.receiver.holds = false) :
    ((t.handOff dst key.1 msg).setSender th .idle).Inv here dst := by
  have away : t.receiver ≠ .checkingInbox := fun holds => by rw [holds] at free; cases free
  have empty := h.empty_of_handingOff pc away
  have alone := h.alone (show (t.senders th).busy = true by rw [pc]; rfl)
  have quiet : ∀ other, (((t.handOff dst key.1 msg).setSender th .idle).senders other).busy = false := by
    intro other
    by_cases same : other = th
    · simp [Threads.setSender, same, SendPc.busy]
    · simpa [Threads.setSender, Threads.handOff, same] using alone other same
  have deaf : ((t.handOff dst key.1 msg).setSender th .idle).ipc.graph.isListening dst = false := by
    simp [Threads.handOff, Threads.setSender, Graph.isListening, Graph.setListening]
  refine Inv.of_idle quiet h.nodup (fun listens => ?_) (fun scanning => ?_) (fun _ listens => ?_)
    (h.logged.handOff empty key.1 msg)
  · rw [deaf] at listens
    cases listens
  · exact absurd free (by rw [show t.receiver = .checkingChannels from scanning]; decide)
  · rw [deaf] at listens
    cases listens

theorem Inv.push (h : t.Inv here dst) {th : Fin n} {key : ChannelKey} {msg : α}
    (pc : t.senders th = .queueing key msg) : ((t.push dst key msg).setSender th .pushed).Inv here dst := by
  obtain ⟨toDst, onNode, mem⟩ := h.channel th key (by rw [pc]; rfl)
  obtain ⟨src, d, node⟩ := key
  dsimp only at toDst onNode mem
  subst toDst onNode
  have keys := Graph.keys_pushBack (src, d, node) msg t.ipc.graph.edges
  have pushed : (t.push d (src, d, node) msg).Inv node d := {
    nodup := by
      dsimp only [Threads.push]
      rw [keys]
      exact h.nodup
    listening := h.listening
    drained := h.drained
    claimed := h.claimed
    handoff := h.handoff
    channel := fun other key found => by
      obtain ⟨toDst, onNode, mem'⟩ := h.channel other key found
      refine ⟨toDst, onNode, ?_⟩
      dsimp only [Threads.push]
      rw [keys]
      exact mem'
    single := h.single
    logged := h.logged.push mem msg }
  exact pushed.setSender th .pushed (fun _ => h.alone (by rw [pc]; rfl)) (fun _ _ pc => by cases pc)
    fun _ found => by cases found

theorem Inv.wake (h : t.Inv here dst) : (t.wake dst).Inv here dst where
  nodup := h.nodup
  listening listens := by simp [Threads.wake, Graph.isListening, Graph.setListening] at listens
  drained := h.drained
  claimed _ listens := by simp [Threads.wake, Graph.isListening, Graph.setListening] at listens
  handoff := h.handoff
  channel := h.channel
  single := h.single
  logged := h.logged

theorem Inv.takeInbox (h : t.Inv here dst) {msg : α} (present : t.ipc.graph.inbox.lookup dst = some msg) :
    (t.takeInbox dst msg).Inv here dst where
  nodup := h.nodup
  listening := h.listening
  drained _ := by simp [Threads.takeInbox]
  claimed taken := by simp [Threads.takeInbox] at taken
  handoff _ _ _ _ := .inl (by simp [Threads.takeInbox])
  channel := h.channel
  single := h.single
  logged := h.logged.takeInbox present

theorem Inv.takeChannel (h : t.Inv here dst) {r : ChannelKey × α × List (ChannelKey × List α)}
    (found : Graph.popFront dst here t.ipc.graph.edges = some r) : (t.takeChannel dst r).Inv here dst := by
  have keys := (Graph.popFront_spec h.nodup found).2.2.2.2
  refine ⟨?_, h.listening, h.drained, h.claimed, h.handoff, fun th key found' => ?_, h.single,
    h.logged.takeChannel h.nodup found⟩
  · dsimp only [Threads.takeChannel]
    rw [keys]
    exact h.nodup
  · obtain ⟨toDst, onNode, mem⟩ := h.channel th key found'
    refine ⟨toDst, onNode, ?_⟩
    dsimp only [Threads.takeChannel]
    rw [keys]
    exact mem

theorem Inv.finish (h : t.Inv here dst)
    (settled : t.receiver ≠ .checkingInbox ∨ t.ipc.graph.inbox.lookup dst = none) : (t.finish dst).Inv here dst := by
  have woken := h.wake
  refine woken.setReceiver .idle (fun listens => ?_) (fun busy => by cases busy) (fun _ listens => ?_)
    fun th key msg pc => .inl ?_
  · simp [Threads.wake, Graph.isListening, Graph.setListening] at listens
  · simp [Threads.wake, Graph.isListening, Graph.setListening] at listens
  · rcases settled with away | empty
    · exact h.empty_of_handingOff pc away
    · exact empty

theorem Inv.register (h : t.Inv here dst) :
    ({ t with
        ipc := { graph := t.ipc.graph.setListening dst true, scheduler := (t.ipc.scheduler.blockOn dst (-1)).2 }
        receiver := .checkingInbox } : Threads n α).Inv here dst where
  nodup := h.nodup
  listening _ := rfl
  drained busy := by cases busy
  claimed _ _ := rfl
  handoff _ _ _ _ := .inr rfl
  channel := h.channel
  single := h.single
  logged := h.logged

theorem Inv.senderStep (h : t.Inv here dst) (th : Fin n) : (t.senderStep dst th).Inv here dst := by
  unfold Threads.senderStep
  cases pc : t.senders th with
  | idle => exact h
  | found key msg flags =>
    have alone := h.alone (show (t.senders th).busy = true by rw [pc]; rfl)
    dsimp only
    split_ifs with listens nonblock
    · -- saw `dst` listening: the inbox is empty or the receiver is about to take it
      refine h.setSender th _ (fun _ => alone) (fun _ _ _ => ?_) fun _ found => by cases found
      cases present : t.ipc.graph.inbox.lookup dst with
      | none => exact .inl rfl
      | some _ => exact .inr (h.claimed (by rw [present]; rfl) listens)
    · exact h.release th
    · refine h.setSender th _ (fun _ => alone) (fun _ _ moved => by cases moved) fun key' found => ?_
      exact h.channel th key' (by rw [pc]; exact found)
  | handingOff key msg =>
    dsimp only
    split_ifs with busy
    · exact h
    · exact h.handOff pc (Bool.eq_false_iff.mpr busy)
  | queueing key msg => exact h.push pc
  | pushed =>
    dsimp only
    split_ifs
    · exact h.setSender th _ (fun _ => h.alone (by rw [pc]; rfl)) (fun _ _ moved => by cases moved)
        fun _ found => by cases found
    · exact h.release th
  | waking => exact h.wake.release th

theorem Inv.enterRecv (h : t.Inv here dst) (idle : t.receiver = .idle) (flags : IpcFlags) :
    (t.enterRecv dst flags).Inv here dst := by
  unfold Threads.enterRecv
  cases present : t.ipc.graph.inbox.lookup dst with
  | some msg => exact h.takeInbox present
  | none =>
    have deaf := h.quiet (by rw [idle]; rfl)
    exact h.setReceiver _ (fun listens => by rw [deaf] at listens; cases listens) (fun busy => by cases busy)
      (fun held => by rw [present] at held; cases held) fun _ _ _ _ => .inl present

theorem Inv.receiverStep (h : t.Inv here dst) (timedOut : Bool) : (t.receiverStep here dst timedOut).Inv here dst := by
  unfold Threads.receiverStep
  cases rc : t.receiver with
  | idle => exact h
  | scanning flags =>
    have deaf := h.quiet (by rw [rc]; rfl)
    have empty : ∀ th key msg, t.senders th = .handingOff key msg → t.ipc.graph.inbox.lookup dst = none :=
      fun th key msg pc => h.empty_of_handingOff pc (by rw [rc]; exact RecvPc.noConfusion)
    dsimp only
    cases found : Graph.popFront dst here t.ipc.graph.edges with
    | some r =>
      exact (h.takeChannel found).setReceiver .idle (fun listens => by cases deaf.symm.trans listens)
        (fun busy => by cases busy) (fun _ listens => by cases deaf.symm.trans listens)
        fun th key msg pc => .inl (empty th key msg pc)
    | none =>
      refine h.setReceiver _ (fun listens => by rw [deaf] at listens; cases listens) (fun busy => ?_)
        (fun _ listens => by rw [deaf] at listens; cases listens) fun th key msg pc => .inl (empty th key msg pc)
      split_ifs at busy
  | registering => exact h.register
  | checkingInbox =>
    dsimp only
    cases present : t.ipc.graph.inbox.lookup dst with
    | some msg => exact (h.takeInbox present).finish (.inr (by simp [Threads.takeInbox]))
    | none =>
      exact h.setReceiver _ (fun _ => rfl) (fun _ => present) (fun held => by rw [present] at held; cases held)
        fun _ _ _ _ => .inl present
  | checkingChannels =>
    have empty := h.drained rc
    dsimp only
    cases found : Graph.popFront dst here t.ipc.graph.edges with
    | some r => exact (h.takeChannel found).finish (.inr empty)
    | none =>
      exact h.setReceiver _ (fun _ => rfl) (fun busy => by cases busy)
        (fun held => by rw [empty] at held; cases held) fun _ _ _ _ => .inl empty
  | waiting =>
    dsimp only
    split_ifs
    · exact h.finish (.inl (by rw [rc]; exact RecvPc.noConfusion))
    · exact h.setReceiver _ (fun _ => rfl) (fun busy => by cases busy) (fun _ _ => rfl) fun _ _ _ _ => .inr rfl

theorem Inv.step (h : t.Inv here dst) (ev : Event n α) (serial : t.Serial ev) : (t.step here dst ev).Inv here dst := by
  cases ev with
  | send th src msg flags =>
    dsimp only [Threads.step]
    split_ifs with busy
    · exact h
    · exact h.enterSend (Bool.eq_false_iff.mpr busy) serial src msg flags
  | sender th => exact h.senderStep th
  | recv flags =>
    dsimp only [Threads.step]
    split_ifs with idle
    · exact h.enterRecv idle flags
    · exact h
  | receiver timedOut => exact h.receiverStep timedOut

theorem Inv.run (h : t.Inv here dst) (events : List (Event n α)) (serial : t.SerialRun here dst events) :
    (t.run here dst events).Inv here dst := by
  induction events generalizing t with
  | nil => exact h
  | cons ev rest ih => exact ih (h.step ev serial.1) serial.2

end Threads

/-- While at most one thread at a time is in `lattice_send` to `dst`, however
its steps and the blocking and non-blocking `lattice_recv` calls of `dst`
interleave, and whenever `wait_until` returns, no message accepted for `dst`
is lost or duplicated: for each sender the messages accepted are, up to order,
those taken and those still held in the inbox or on the channel. -/
theorem serialized_sends_lose_no_message {n : ℕ} (here : Node) (dst : Pid) (events : List (Event n α))
    (serial : (Threads.init : Threads n α).SerialRun here dst events) (src : Pid) :
    (between src dst (Threads.init.run here dst events).sent).Perm
      (between src dst (Threads.init.run here dst events).received ++
        (Threads.init.run here dst events).pending here dst src) :=
  (Threads.inv_init.run events serial).logged src

/-- The hypothesis is met by a run in which a message is queued and a
blocking receive then pops it. -/
theorem serialized_sends_lose_no_message_queued :
    let events : List (Event 1 ℕ) :=
      [.send 0 3 5 .none, .sender 0, .sender 0, .sender 0, .recv .none, .receiver false]
    (Threads.init : Threads 1 ℕ).SerialRun 1 7 events ∧
      (between 3 7 (Threads.init.run 1 7 events).sent).Perm
        (between 3 7 (Threads.init.run 1 7 events).received ++ (Threads.init.run 1 7 events).pending 1 7 3) :=
  ⟨by decide +kernel, serialized_sends_lose_no_message 1 7 _ (by decide +kernel) 3⟩

end Xinim.Lattice
