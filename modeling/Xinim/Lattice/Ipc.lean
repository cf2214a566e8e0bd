import Xinim.Sched.Scheduler

/-! The lattice IPC of kernel/lattice_ipc.cpp as one node sees it: the
channels of `lattice::Graph` keyed by `(src, dst, node_id)` in the order of
`std::map`, each with its FIFO of plaintext messages, the listening flags and
the direct-handoff inbox, with `lattice_connect`, `lattice_listen`,
`lattice_send`, the non-blocking `lattice_recv` and `poll_network`. Messages
are of any type. The key exchange and the AEAD encryption are left out: a send
over a remote channel only reports what `net::send` returned, and a packet
`poll_network` receives carries what `aead_decrypt` gives for it. `here` is
`net::local_node()`. -/

namespace Xinim.Lattice
open Sched

abbrev Node := ℤ

def anyNode : Node := -1

abbrev ChannelKey := Pid × Pid × Node

/-- The order of `std::tuple`, which `std::map` iterates in. -/
def keyLt (a b : ChannelKey) : Bool :=
  a.1 < b.1 || (a.1 = b.1 && (a.2.1 < b.2.1 || (a.2.1 = b.2.1 && a.2.2 < b.2.2)))

def ok : ℤ := 0
def eTryAgain : ℤ := -3
def eIo : ℤ := -5
def eNoMessage : ℤ := -7

inductive IpcFlags
  | none
  | nonblock
  deriving DecidableEq, Repr

/-- `lattice::Graph`; a channel is its queue, since its `src`, `dst` and
`node_id` repeat its key. -/
structure Graph (α : Type) where
  edges : List (ChannelKey × List α)
  listening : AList (fun _ : Pid => Bool)
  inbox : AList (fun _ : Pid => α)

namespace Graph

variable {α : Type}

def empty : Graph α := ⟨[], ∅, ∅⟩

def insertEdge (key : ChannelKey) (queue : List α) :
    List (ChannelKey × List α) → List (ChannelKey × List α)
  | [] => [(key, queue)]
  | e :: rest => if keyLt key e.1 then (key, queue) :: e :: rest else e :: insertEdge key queue rest

def queueOf (edges : List (ChannelKey × List α)) (key : ChannelKey) : List α :=
  ((edges.find? (·.1 = key)).map (·.2)).getD []

def connect (g : Graph α) (src dst : Pid) (node : Node) : Graph α :=
  if (src, dst, node) ∈ g.edges.map (·.1) then g
  else { g with edges := insertEdge (src, dst, node) [] g.edges }

/-- `Graph::find`: with `ANY_NODE`, the first channel from `src` to `dst`. -/
def find (g : Graph α) (src dst : Pid) (node : Node) : Option ChannelKey :=
  if node ≠ anyNode then
    if (src, dst, node) ∈ g.edges.map (·.1) then some (src, dst, node) else none
  else (g.edges.find? fun e => e.1.1 = src ∧ e.1.2.1 = dst).map (·.1)

def isListening (g : Graph α) (pid : Pid) : Bool := (g.listening.lookup pid).getD false

def setListening (g : Graph α) (pid : Pid) (flag : Bool) : Graph α :=
  { g with listening := g.listening.insert pid flag }

def pushBack (key : ChannelKey) (msg : α) : List (ChannelKey × List α) → List (ChannelKey × List α)
  | [] => []
  | e :: rest => if e.1 = key then (e.1, e.2 ++ [msg]) :: rest else e :: pushBack key msg rest

/-- The loop of `lattice_recv`: the first channel in key order into `pid` on
node `here` with a queued message gives up its front. -/
def popFront (pid : Pid) (here : Node) :
    List (ChannelKey × List α) → Option (ChannelKey × α × List (ChannelKey × List α))
  | [] => none
  | (key, queue) :: rest =>
    match queue with
    | msg :: later =>
      if key.2.1 = pid ∧ key.2.2 = here then some (key, msg, (key, later) :: rest)
      else (popFront pid here rest).map fun r => (r.1, r.2.1, (key, msg :: later) :: r.2.2)
    | [] => (popFront pid here rest).map fun r => (r.1, r.2.1, (key, []) :: r.2.2)

section Queues

variable {edges : List (ChannelKey × List α)} {key k : ChannelKey}

theorem queueOf_cons (e : ChannelKey × List α) (rest : List (ChannelKey × List α)) (k : ChannelKey) :
    queueOf (e :: rest) k = if e.1 = k then e.2 else queueOf rest k := by
  unfold queueOf
  rw [List.find?_cons]
  by_cases same : e.1 = k <;> simp [same]

theorem queueOf_of_not_mem (h : k ∉ edges.map (·.1)) : queueOf edges k = [] := by
  induction edges with
  | nil => rfl
  | cons e rest ih =>
    have other : e.1 ≠ k := fun same => h (same ▸ List.mem_map_of_mem List.mem_cons_self)
    rw [queueOf_cons, if_neg other]
    exact ih fun mem => h (List.mem_cons_of_mem _ mem)

theorem mem_of_queueOf_ne_nil (h : queueOf edges k ≠ []) : k ∈ edges.map (·.1) :=
  Classical.byContradiction fun absent => h (queueOf_of_not_mem absent)

theorem keys_insertEdge (key : ChannelKey) (queue : List α) (edges : List (ChannelKey × List α)) :
    ((insertEdge key queue edges).map (·.1)).Perm (key :: edges.map (·.1)) := by
  induction edges with
  | nil => exact List.Perm.refl _
  | cons e rest ih =>
    unfold insertEdge
    split_ifs
    · exact List.Perm.refl _
    · exact (ih.cons e.1).trans (List.Perm.swap _ _ _)

theorem queueOf_insertEdge (h : key ∉ edges.map (·.1)) (k : ChannelKey) :
    queueOf (insertEdge key [] edges) k = queueOf edges k := by
  induction edges with
  | nil =>
    rw [insertEdge, queueOf_cons]
    split_ifs <;> rfl
  | cons e rest ih =>
    have later : key ∉ rest.map (·.1) := fun mem => h (List.mem_cons_of_mem _ mem)
    unfold insertEdge
    split_ifs
    · rw [queueOf_cons]
      split_ifs with same
      · rw [← same, queueOf_of_not_mem h]
      · rfl
    · rw [queueOf_cons, queueOf_cons, ih later]

theorem keys_pushBack (key : ChannelKey) (msg : α) (edges : List (ChannelKey × List α)) :
    (pushBack key msg edges).map (·.1) = edges.map (·.1) := by
  induction edges with
  | nil => rfl
  | cons e rest ih =>
    unfold pushBack
    split_ifs
    · rfl
    · rw [List.map_cons, List.map_cons, ih]

theorem queueOf_pushBack (msg : α) (h : key ∈ edges.map (·.1)) (k : ChannelKey) :
    queueOf (pushBack key msg edges) k = if k = key then queueOf edges key ++ [msg] else queueOf edges k := by
  induction edges with
  | nil => exact absurd h List.not_mem_nil
  | cons e rest ih =>
    unfold pushBack
    by_cases first : e.1 = key
    · rw [if_pos first, queueOf_cons, queueOf_cons, queueOf_cons, if_pos first]
      by_cases same : k = key
      · rw [if_pos (first.trans same.symm), if_pos same]
      · rw [if_neg fun h' => same (h'.symm.trans first), if_neg same, if_neg fun h' => same (h'.symm.trans first)]
    · have later : key ∈ rest.map (·.1) := by
        rcases List.mem_cons.mp h with h | h
        · exact absurd h.symm first
        · exact h
      rw [if_neg first, queueOf_cons, queueOf_cons, queueOf_cons, if_neg first, ih later]
      by_cases same : e.1 = k
      · have notKey : k ≠ key := fun isKey => first (same.trans isKey)
        simp only [same, notKey, if_true, if_false]
      · by_cases isKey : k = key <;> simp only [same, isKey, first, if_true, if_false]

theorem queueOf_of_popFront_eq_none {pid : Pid} {here : Node} (h : popFront pid here edges = none)
    (src : Pid) : queueOf edges (src, pid, here) = [] := by
  induction edges with
  | nil => rfl
  | cons e rest ih =>
    obtain ⟨k0, queue⟩ := e
    rw [queueOf_cons]
    cases queue with
    | nil =>
      simp only [popFront, Option.map_eq_none_iff] at h
      split_ifs
      · rfl
      · exact ih h
    | cons msg later =>
      simp only [popFront] at h
      split_ifs at h with here'
      split_ifs with same
      · subst same
        exact absurd ⟨rfl, rfl⟩ here'
      · exact ih (Option.map_eq_none_iff.mp h)

theorem popFront_spec {pid : Pid} {here : Node} {msg : α} {rest' : List (ChannelKey × List α)}
    (nodup : (edges.map (·.1)).Nodup) (h : popFront pid here edges = some (key, msg, rest')) :
    key.2.1 = pid ∧ key.2.2 = here ∧ queueOf edges key = msg :: queueOf rest' key ∧
      (∀ k, k ≠ key → queueOf rest' k = queueOf edges k) ∧ rest'.map (·.1) = edges.map (·.1) := by
  induction edges generalizing rest' with
  | nil => cases h
  | cons e rest ih =>
    obtain ⟨k0, queue⟩ := e
    have restNodup := (List.nodup_cons.mp nodup).2
    have fresh := (List.nodup_cons.mp nodup).1
    have further : ∀ {rest''}, popFront pid here rest = some (key, msg, rest'') →
        rest' = (k0, queue) :: rest'' → key.2.1 = pid ∧ key.2.2 = here ∧
          queueOf ((k0, queue) :: rest) key = msg :: queueOf rest' key ∧
          (∀ k, k ≠ key → queueOf rest' k = queueOf ((k0, queue) :: rest) k) ∧
          rest'.map (·.1) = ((k0, queue) :: rest).map (·.1) := by
      intro rest'' found shape
      obtain ⟨dst, node, front, others, keys⟩ := ih restNodup found
      have other : k0 ≠ key := fun same =>
        fresh (same ▸ mem_of_queueOf_ne_nil (by rw [front]; exact List.cons_ne_nil _ _))
      subst shape
      refine ⟨dst, node, ?_, fun k hk => ?_, ?_⟩
      · rw [queueOf_cons, queueOf_cons, if_neg other, if_neg other, front]
      · rw [queueOf_cons, queueOf_cons, others k hk]
      · rw [List.map_cons, List.map_cons, keys]
    cases queue with
    | nil =>
      simp only [popFront, Option.map_eq_some_iff] at h
      obtain ⟨⟨key', msg', rest''⟩, found, same⟩ := h
      simp only [Prod.mk.injEq] at same
      obtain ⟨rfl, rfl, rfl⟩ := same
      exact further found rfl
    | cons first later =>
      simp only [popFront] at h
      split_ifs at h with here'
      · simp only [Option.some.injEq, Prod.mk.injEq] at h
        obtain ⟨rfl, rfl, rfl⟩ := h
        refine ⟨here'.1, here'.2, ?_, fun k hk => ?_, rfl⟩
        · rw [queueOf_cons, queueOf_cons, if_pos rfl, if_pos rfl]
        · rw [queueOf_cons, queueOf_cons, if_neg (Ne.symm hk), if_neg (Ne.symm hk)]
      · simp only [Option.map_eq_some_iff] at h
        obtain ⟨⟨key', msg', rest''⟩, found, same⟩ := h
        simp only [Prod.mk.injEq] at same
        obtain ⟨rfl, rfl, rfl⟩ := same
        exact further found rfl

end Queues

section Connect

variable (g : Graph α) (src dst : Pid) (node : Node)

@[simp] theorem listening_connect : (g.connect src dst node).listening = g.listening := by
  unfold connect
  split_ifs <;> rfl

@[simp] theorem inbox_connect : (g.connect src dst node).inbox = g.inbox := by
  unfold connect
  split_ifs <;> rfl

theorem queueOf_connect (k : ChannelKey) : queueOf (g.connect src dst node).edges k = queueOf g.edges k := by
  unfold connect
  split_ifs with present
  · rfl
  · exact queueOf_insertEdge present k

theorem mem_connect : (src, dst, node) ∈ (g.connect src dst node).edges.map (·.1) := by
  unfold connect
  split_ifs with present
  · exact present
  · exact (keys_insertEdge _ _ _).symm.subset List.mem_cons_self

theorem nodup_connect (nodup : (g.edges.map (·.1)).Nodup) :
    ((g.connect src dst node).edges.map (·.1)).Nodup := by
  unfold connect
  split_ifs with present
  · exact nodup
  · exact (keys_insertEdge _ _ _).nodup_iff.mpr (List.nodup_cons.mpr ⟨present, nodup⟩)

end Connect

end Graph

structure Ipc (α : Type) where
  graph : Graph α
  scheduler : Scheduler

namespace Ipc

variable {α : Type}

def init : Ipc α := ⟨.empty, .init⟩

/-- `lattice_connect`: node `0` means this node; both directions. -/
def latticeConnect (s : Ipc α) (here : Node) (src dst : Pid) (node : Node) : ℤ × Ipc α :=
  let node := if node = 0 then here else node
  (ok, { s with graph := (s.graph.connect src dst node).connect dst src node })

def latticeListen (s : Ipc α) (pid : Pid) : Ipc α := { s with graph := s.graph.setListening pid true }

def sendChannel (g : Graph α) (here : Node) (src dst : Pid) : Graph α × ChannelKey :=
  match g.find src dst anyNode with
  | some key => (g, key)
  | none => (g.connect src dst here, (src, dst, here))

section SendChannel

variable (g : Graph α) (here : Node) (src dst : Pid)

theorem sendChannel_key : (sendChannel g here src dst).2.1 = src ∧ (sendChannel g here src dst).2.2.1 = dst := by
  unfold sendChannel Graph.find
  cases found : (g.edges.find? fun e => e.1.1 = src ∧ e.1.2.1 = dst) with
  | none => simp [anyNode]
  | some e =>
    have fits := List.find?_some found
    simp only [decide_eq_true_eq] at fits
    simp [anyNode, fits]

theorem mem_sendChannel : (sendChannel g here src dst).2 ∈ (sendChannel g here src dst).1.edges.map (·.1) := by
  unfold sendChannel Graph.find
  cases found : (g.edges.find? fun e => e.1.1 = src ∧ e.1.2.1 = dst) with
  | none =>
    simp only [anyNode, ne_eq, not_true_eq_false, if_false, Option.map_none]
    exact Graph.mem_connect g src dst here
  | some e =>
    simp only [anyNode, ne_eq, not_true_eq_false, if_false, Option.map_some]
    exact List.mem_map_of_mem (List.mem_of_find?_eq_some found)

theorem sendChannel_frame :
    (∀ k, Graph.queueOf (sendChannel g here src dst).1.edges k = Graph.queueOf g.edges k) ∧
      (sendChannel g here src dst).1.listening = g.listening ∧
      (sendChannel g here src dst).1.inbox = g.inbox ∧
      (((g.edges.map (·.1)).Nodup) → ((sendChannel g here src dst).1.edges.map (·.1)).Nodup) := by
  unfold sendChannel
  split
  · exact ⟨fun _ => rfl, rfl, rfl, id⟩
  · exact ⟨Graph.queueOf_connect g src dst here, Graph.listening_connect g src dst here,
      Graph.inbox_connect g src dst here, Graph.nodup_connect g src dst here⟩

end SendChannel

/-- `lattice_send`; `netOk` is what `net::send` returns for a remote channel. -/
def latticeSend (s : Ipc α) (here : Node) (src dst : Pid) (msg : α) (flags : IpcFlags) (netOk : Bool) :
    ℤ × Ipc α :=
  let ch := sendChannel s.graph here src dst
  if ch.2.2.2 ≠ here then (if netOk then ok else eIo, { s with graph := ch.1 })
  else if ch.1.isListening dst then
    (ok, { graph := { ch.1 with inbox := ch.1.inbox.insert dst msg }.setListening dst false
           scheduler := (s.scheduler.unblock dst).yieldTo dst })
  else if flags = .nonblock then (eTryAgain, { s with graph := ch.1 })
  else
    let queued := { ch.1 with edges := Graph.pushBack ch.2 msg ch.1.edges }
    if queued.isListening dst then
      (ok, { graph := queued.setListening dst false, scheduler := s.scheduler.unblock dst })
    else (ok, { s with graph := queued })

/-- `lattice_recv` with `IpcFlags::NONBLOCK`: the inbox first, then the
channels. -/
def latticeRecv (s : Ipc α) (here : Node) (pid : Pid) : ℤ × Option α × Ipc α :=
  match s.graph.inbox.lookup pid with
  | some msg => (ok, some msg, { s with graph := { s.graph with inbox := s.graph.inbox.erase pid } })
  | none =>
    match Graph.popFront pid here s.graph.edges with
    | some r => (ok, some r.2.1, { s with graph := { s.graph with edges := r.2.2 } })
    | none => (eNoMessage, none, s)

def minPayload : ℕ := 4 * 2 + 24 + 16

/-- A packet of `net::recv`: its source node, the two pids at the front of its
payload, the payload's size, and the message when `aead_decrypt` of the rest
yields exactly `sizeof(message)` bytes. -/
structure Packet (α : Type) where
  srcNode : Node
  src : Pid
  dst : Pid
  size : ℕ
  plain : Option α

/-- One pass of the loop of `poll_network`: the channel is found or made under
the packet's source node, and the decrypted message is queued on it. -/
def pollPacket (s : Ipc α) (pkt : Packet α) : Ipc α :=
  if pkt.size < minPayload then s
  else
    let ch := match s.graph.find pkt.src pkt.dst pkt.srcNode with
      | some key => (s.graph, key)
      | none => (s.graph.connect pkt.src pkt.dst pkt.srcNode, (pkt.src, pkt.dst, pkt.srcNode))
    match pkt.plain with
    | none => { s with graph := ch.1 }
    | some msg =>
      let queued := { ch.1 with edges := Graph.pushBack ch.2 msg ch.1.edges }
      if queued.isListening pkt.dst then
        { graph := queued.setListening pkt.dst false, scheduler := s.scheduler.unblock pkt.dst }
      else { s with graph := queued }

def pollNetwork (s : Ipc α) (pkts : List (Packet α)) : Ipc α := pkts.foldl pollPacket s

section Equations

variable (s : Ipc α) (here : Node)

theorem latticeSend_direct {src dst : Pid} (msg : α) (flags : IpcFlags) (netOk : Bool)
    (onNode : (sendChannel s.graph here src dst).2.2.2 = here)
    (listening : (sendChannel s.graph here src dst).1.isListening dst = true) :
    s.latticeSend here src dst msg flags netOk =
      (ok, { graph := { (sendChannel s.graph here src dst).1 with
                inbox := (sendChannel s.graph here src dst).1.inbox.insert dst msg }.setListening dst false
             scheduler := (s.scheduler.unblock dst).yieldTo dst }) := by
  simp only [latticeSend, onNode, listening, ne_eq, not_true_eq_false, if_false, if_true]

theorem latticeSend_refused {src dst : Pid} (msg : α) (netOk : Bool)
    (onNode : (sendChannel s.graph here src dst).2.2.2 = here)
    (quiet : (sendChannel s.graph here src dst).1.isListening dst = false) :
    s.latticeSend here src dst msg .nonblock netOk =
      (eTryAgain, { s with graph := (sendChannel s.graph here src dst).1 }) := by
  simp only [latticeSend, onNode, quiet, ne_eq, not_true_eq_false, if_false, if_true, Bool.false_eq_true]

theorem latticeSend_queued {src dst : Pid} (msg : α) {flags : IpcFlags} (netOk : Bool)
    (onNode : (sendChannel s.graph here src dst).2.2.2 = here)
    (quiet : (sendChannel s.graph here src dst).1.isListening dst = false) (blocking : flags ≠ .nonblock) :
    s.latticeSend here src dst msg flags netOk =
      (ok, { s with graph := { (sendChannel s.graph here src dst).1 with
        edges := Graph.pushBack (sendChannel s.graph here src dst).2 msg (sendChannel s.graph here src dst).1.edges } }) := by
  have unchanged : ({ (sendChannel s.graph here src dst).1 with
      edges := Graph.pushBack (sendChannel s.graph here src dst).2 msg
        (sendChannel s.graph here src dst).1.edges } : Graph α).isListening dst = false := quiet
  simp only [latticeSend, onNode, quiet, blocking, unchanged, ne_eq, not_true_eq_false, if_false,
    Bool.false_eq_true]

theorem latticeRecv_inbox {pid : Pid} {msg : α} (held : s.graph.inbox.lookup pid = some msg) :
    s.latticeRecv here pid = (ok, some msg, { s with graph := { s.graph with inbox := s.graph.inbox.erase pid } }) := by
  simp only [latticeRecv, held]

theorem latticeRecv_channel {pid : Pid} {r : ChannelKey × α × List (ChannelKey × List α)}
    (empty : s.graph.inbox.lookup pid = none) (found : Graph.popFront pid here s.graph.edges = some r) :
    s.latticeRecv here pid = (ok, some r.2.1, { s with graph := { s.graph with edges := r.2.2 } }) := by
  simp only [latticeRecv, empty, found]

theorem latticeRecv_none {pid : Pid} (empty : s.graph.inbox.lookup pid = none)
    (nothing : Graph.popFront pid here s.graph.edges = none) :
    s.latticeRecv here pid = (eNoMessage, none, s) := by
  simp only [latticeRecv, empty, nothing]

end Equations

end Ipc

def remotePolled : Ipc ℕ := Ipc.init.pollNetwork [⟨2, 3, 7, 100, some 42⟩]

/-- The packet is queued on the channel `(3, 7, 2)`; `lattice_recv(7)` looks
only at channels on node 1 and finds no message. -/
theorem remote_packet_unreachable_by_recv :
    Graph.queueOf remotePolled.graph.edges (3, 7, 2) = [42] ∧ (remotePolled.latticeRecv 1 7).1 = eNoMessage ∧
      (remotePolled.latticeRecv 1 7).2.1 = none := by
  decide

end Xinim.Lattice
