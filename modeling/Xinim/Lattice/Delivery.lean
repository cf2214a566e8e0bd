import Xinim.Lattice.Ipc

/-! Delivery of local messages over the lattice IPC. Beside the IPC state a
run keeps a log: each message that `lattice_send` accepted on a channel of
this node, each message `lattice_recv` returned together with the sender it
came from, and the sender of each message in the inbox. Messages from one
sender to one receiver are then received in order and at most once, and each
one not yet received is still held and returned by the receiver's next
`lattice_recv` calls, provided `lattice_listen` is only called for a pid with
nothing pending, as the blocking `lattice_recv` does. Without that condition a
second direct handoff overwrites the inbox. -/

namespace Xinim.Lattice

variable {α : Type}

inductive Op (α : Type)
  | connect (src dst : Pid) (node : Node)
  | listen (pid : Pid)
  | send (src dst : Pid) (msg : α) (flags : IpcFlags) (netOk : Bool)
  | recv (pid : Pid)

def Ipc.step (here : Node) (s : Ipc α) : Op α → Ipc α
  | .connect src dst node => (s.latticeConnect here src dst node).2
  | .listen pid => s.latticeListen pid
  | .send src dst msg flags netOk => (s.latticeSend here src dst msg flags netOk).2
  | .recv pid => (s.latticeRecv here pid).2.2

def between (src dst : Pid) (log : List (Pid × Pid × α)) : List α :=
  log.filterMap fun e => if e.1 = src ∧ e.2.1 = dst then some e.2.2 else none

@[simp] theorem between_nil (src dst : Pid) : between src dst ([] : List (Pid × Pid × α)) = [] := rfl

@[simp] theorem between_append (src dst : Pid) (log log' : List (Pid × Pid × α)) :
    between src dst (log ++ log') = between src dst log ++ between src dst log' :=
  List.filterMap_append

@[simp] theorem between_singleton (src dst a b : Pid) (msg : α) :
    between src dst [(a, b, msg)] = if a = src ∧ b = dst then [msg] else [] := by
  unfold between
  split_ifs <;> simp_all

namespace Graph

def waiting (pid : Pid) (here : Node) : List (ChannelKey × List α) → ℕ
  | [] => 0
  | e :: rest => (if e.1.2.1 = pid ∧ e.1.2.2 = here then e.2.length else 0) + waiting pid here rest

variable {pid : Pid} {here : Node} {edges : List (ChannelKey × List α)}

theorem length_queueOf_le_waiting (src : Pid) : (queueOf edges (src, pid, here)).length ≤ waiting pid here edges := by
  induction edges with
  | nil => exact Nat.zero_le _
  | cons e rest ih =>
    rw [queueOf_cons, waiting]
    by_cases same : e.1 = (src, pid, here)
    · rw [if_pos same, if_pos (by rw [same]; exact ⟨rfl, rfl⟩)]
      omega
    · rw [if_neg same]
      split_ifs <;> omega

theorem waiting_of_popFront_eq_none (h : popFront pid here edges = none) : waiting pid here edges = 0 := by
  induction edges with
  | nil => rfl
  | cons e rest ih =>
    obtain ⟨key, queue⟩ := e
    cases queue with
    | nil =>
      simp only [popFront, Option.map_eq_none_iff] at h
      simp only [waiting, ih h, List.length_nil, ite_self]
    | cons msg later =>
      simp only [popFront] at h
      split_ifs at h with target
      rw [waiting, if_neg target, ih (Option.map_eq_none_iff.mp h)]

theorem waiting_popFront {key : ChannelKey} {msg : α} {rest' : List (ChannelKey × List α)}
    (h : popFront pid here edges = some (key, msg, rest')) : waiting pid here edges = waiting pid here rest' + 1 := by
  induction edges generalizing rest' with
  | nil => cases h
  | cons e rest ih =>
    obtain ⟨k0, queue⟩ := e
    cases queue with
    | nil =>
      simp only [popFront, Option.map_eq_some_iff] at h
      obtain ⟨⟨key', msg', rest''⟩, found, same⟩ := h
      simp only [Prod.mk.injEq] at same
      obtain ⟨rfl, rfl, rfl⟩ := same
      simp only [waiting, ih found, List.length_nil, ite_self]
      omega
    | cons first later =>
      simp only [popFront] at h
      split_ifs at h with target
      · simp only [Option.some.injEq, Prod.mk.injEq] at h
        obtain ⟨rfl, rfl, rfl⟩ := h
        simp only [waiting, if_pos target, List.length_cons]
        omega
      · simp only [Option.map_eq_some_iff] at h
        obtain ⟨⟨key', msg', rest''⟩, found, same⟩ := h
        simp only [Prod.mk.injEq] at same
        obtain ⟨rfl, rfl, rfl⟩ := same
        simp only [waiting, if_neg target, ih found]
        omega

end Graph

structure Tracked (α : Type) where
  ipc : Ipc α
  sent : List (Pid × Pid × α)
  received : List (Pid × Pid × α)
  inboxFrom : AList (fun _ : Pid => Pid)

namespace Tracked

def init : Tracked α := ⟨.init, [], [], ∅⟩

def step (here : Node) (t : Tracked α) : Op α → Tracked α
  | .send src dst msg flags netOk =>
    let ch := Ipc.sendChannel t.ipc.graph here src dst
    { ipc := t.ipc.step here (.send src dst msg flags netOk)
      sent :=
        if ch.2.2.2 = here ∧ (ch.1.isListening dst = true ∨ flags ≠ .nonblock) then
          t.sent ++ [(src, dst, msg)]
        else t.sent
      received := t.received
      inboxFrom :=
        if ch.2.2.2 = here ∧ ch.1.isListening dst = true then t.inboxFrom.insert dst src
        else t.inboxFrom }
  | .recv pid =>
    { ipc := t.ipc.step here (.recv pid)
      sent := t.sent
      received :=
        match t.ipc.graph.inbox.lookup pid with
        | some msg => t.received ++ [((t.inboxFrom.lookup pid).getD pid, pid, msg)]
        | none =>
          match Graph.popFront pid here t.ipc.graph.edges with
          | some r => t.received ++ [(r.1.1, pid, r.2.1)]
          | none => t.received
      inboxFrom :=
        match t.ipc.graph.inbox.lookup pid with
        | some _ => t.inboxFrom.erase pid
        | none => t.inboxFrom }
  | op => { t with ipc := t.ipc.step here op }

def run (here : Node) (t : Tracked α) (ops : List (Op α)) : Tracked α := ops.foldl (step here) t

/-- `lattice_listen` only for a pid with nothing pending; `lattice_send` only
over a channel of this node. -/
def Admissible (here : Node) (t : Tracked α) : Op α → Prop
  | .listen pid =>
    (t.ipc.graph.inbox.lookup pid).isNone = true ∧ (Graph.popFront pid here t.ipc.graph.edges).isNone = true
  | .send src dst _ _ _ => (Ipc.sendChannel t.ipc.graph here src dst).2.2.2 = here
  | .connect _ _ _ | .recv _ => True

instance (here : Node) (t : Tracked α) : (op : Op α) → Decidable (t.Admissible here op)
  | .listen pid =>
    inferInstanceAs (Decidable ((t.ipc.graph.inbox.lookup pid).isNone = true ∧
      (Graph.popFront pid here t.ipc.graph.edges).isNone = true))
  | .send src dst _ _ _ =>
    inferInstanceAs (Decidable ((Ipc.sendChannel t.ipc.graph here src dst).2.2.2 = here))
  | .connect _ _ _ | .recv _ => isTrue trivial

def AdmissibleRun (here : Node) : Tracked α → List (Op α) → Prop
  | _, [] => True
  | t, op :: ops => t.Admissible here op ∧ AdmissibleRun here (t.step here op) ops

instance decidableAdmissibleRun (here : Node) :
    (t : Tracked α) → (ops : List (Op α)) → Decidable (t.AdmissibleRun here ops)
  | _, [] => isTrue trivial
  | t, op :: ops =>
    haveI := decidableAdmissibleRun here (t.step here op) ops
    inferInstanceAs (Decidable (t.Admissible here op ∧ (t.step here op).AdmissibleRun here ops))

def held (t : Tracked α) (src dst : Pid) : List α :=
  match t.ipc.graph.inbox.lookup dst with
  | some msg => if t.inboxFrom.lookup dst = some src then [msg] else []
  | none => []

def pendingFrom (here : Node) (t : Tracked α) (src dst : Pid) : List α :=
  t.held src dst ++ Graph.queueOf t.ipc.graph.edges (src, dst, here)

def waiting (here : Node) (t : Tracked α) (pid : Pid) : ℕ :=
  (if (t.ipc.graph.inbox.lookup pid).isSome then 1 else 0) + Graph.waiting pid here t.ipc.graph.edges

structure Consistent (here : Node) (t : Tracked α) : Prop where
  nodup : (t.ipc.graph.edges.map (·.1)).Nodup
  inbox_from : ∀ pid, (t.ipc.graph.inbox.lookup pid).isSome → (t.inboxFrom.lookup pid).isSome
  quiet : ∀ pid, t.ipc.graph.isListening pid = true →
    t.ipc.graph.inbox.lookup pid = none ∧ ∀ src, Graph.queueOf t.ipc.graph.edges (src, pid, here) = []
  log : ∀ src dst, between src dst t.sent = between src dst t.received ++ t.pendingFrom here src dst

variable {here : Node} {t : Tracked α}

theorem consistent_init : (init : Tracked α).Consistent here where
  nodup := List.nodup_nil
  inbox_from _ none := by simp [init, Ipc.init, Graph.empty] at none
  quiet _ listening := by simp [init, Ipc.init, Graph.empty, Graph.isListening] at listening
  log _ _ := rfl

theorem Consistent.frame {t' : Tracked α} (h : t.Consistent here)
    (nodup : (t'.ipc.graph.edges.map (·.1)).Nodup)
    (queues : ∀ k, Graph.queueOf t'.ipc.graph.edges k = Graph.queueOf t.ipc.graph.edges k)
    (inbox : t'.ipc.graph.inbox = t.ipc.graph.inbox) (listening : t'.ipc.graph.listening = t.ipc.graph.listening)
    (sent : t'.sent = t.sent) (received : t'.received = t.received) (inboxFrom : t'.inboxFrom = t.inboxFrom) :
    t'.Consistent here where
  nodup := nodup
  inbox_from pid := by
    rw [inbox, inboxFrom]
    exact h.inbox_from pid
  quiet pid := by
    have flag : t'.ipc.graph.isListening pid = t.ipc.graph.isListening pid := by
      simp only [Graph.isListening, listening]
    rw [flag, inbox]
    simp only [queues]
    exact h.quiet pid
  log src dst := by
    have same : t'.pendingFrom here src dst = t.pendingFrom here src dst := by
      simp only [pendingFrom, held, inbox, inboxFrom, queues]
    rw [sent, received, same]
    exact h.log src dst

theorem consistent_connect (h : t.Consistent here) (src dst : Pid) (node : Node) :
    (t.step here (.connect src dst node)).Consistent here := by
  have nodup := h.nodup
  apply h.frame
  · exact Graph.nodup_connect _ _ _ _ (Graph.nodup_connect _ _ _ _ nodup)
  · intro k
    exact (Graph.queueOf_connect _ _ _ _ k).trans (Graph.queueOf_connect _ _ _ _ k)
  · exact (Graph.inbox_connect _ _ _ _).trans (Graph.inbox_connect _ _ _ _)
  · exact (Graph.listening_connect _ _ _ _).trans (Graph.listening_connect _ _ _ _)
  all_goals rfl

theorem held_of_none {src dst : Pid} (empty : t.ipc.graph.inbox.lookup dst = none) : t.held src dst = [] := by
  simp [held, empty]

theorem consistent_listen (h : t.Consistent here) (pid : Pid) (adm : t.Admissible here (.listen pid)) :
    (t.step here (.listen pid)).Consistent here := by
  obtain ⟨noInbox, noQueue⟩ := adm
  refine ⟨h.nodup, h.inbox_from, fun p listening => ?_, h.log⟩
  by_cases same : p = pid
  · subst same
    exact ⟨Option.isNone_iff_eq_none.mp noInbox,
      Graph.queueOf_of_popFront_eq_none (Option.isNone_iff_eq_none.mp noQueue)⟩
  · have before : t.ipc.graph.isListening p = true := by
      simpa [step, Ipc.step, Ipc.latticeListen, Graph.setListening, Graph.isListening,
        AList.lookup_insert_ne same] using listening
    exact h.quiet p before

theorem consistent_of_direct (h : t.Consistent here) {t' : Tracked α} {g : Graph α} {src dst : Pid} {msg : α}
    (nodup : (g.edges.map (·.1)).Nodup) (queues : ∀ k, Graph.queueOf g.edges k = Graph.queueOf t.ipc.graph.edges k)
    (inbox : g.inbox = t.ipc.graph.inbox) (flags : g.listening = t.ipc.graph.listening)
    (listening : g.isListening dst = true)
    (graph : t'.ipc.graph = { g with inbox := g.inbox.insert dst msg }.setListening dst false)
    (sent : t'.sent = t.sent ++ [(src, dst, msg)]) (received : t'.received = t.received)
    (inboxFrom : t'.inboxFrom = t.inboxFrom.insert dst src) : t'.Consistent here := by
  have flag : ∀ p, g.isListening p = t.ipc.graph.isListening p := fun p => by
    simp only [Graph.isListening, flags]
  obtain ⟨noInbox, noQueue⟩ := h.quiet dst (by rw [← flag]; exact listening)
  have heldAfter : ∀ src' dst', t'.held src' dst' =
      if dst' = dst then (if src = src' then [msg] else []) else t.held src' dst' := by
    intro src' dst'
    unfold held
    rw [graph, inboxFrom]
    by_cases same : dst' = dst
    · subst same
      simp [Graph.setListening, AList.lookup_insert]
    · simp only [Graph.setListening, AList.lookup_insert_ne same, inbox, if_neg same]
  refine ⟨?_, fun p present => ?_, fun p listens => ?_, fun src' dst' => ?_⟩
  · rw [graph]
    exact nodup
  · rw [inboxFrom]
    by_cases same : p = dst
    · subst same
      simp [AList.lookup_insert]
    · rw [AList.lookup_insert_ne same]
      apply h.inbox_from p
      rw [graph] at present
      simpa [Graph.setListening, AList.lookup_insert_ne same, inbox] using present
  · rw [graph] at listens ⊢
    have other : p ≠ dst := by
      rintro rfl
      simp [Graph.setListening, Graph.isListening, AList.lookup_insert] at listens
    have before : t.ipc.graph.isListening p = true := by
      rw [← flag]
      simpa [Graph.setListening, Graph.isListening, AList.lookup_insert_ne other] using listens
    obtain ⟨empty, drained⟩ := h.quiet p before
    refine ⟨?_, fun src => ?_⟩
    · simpa [Graph.setListening, AList.lookup_insert_ne other, inbox] using empty
    · exact (queues _).trans (drained src)
  · have log := h.log src' dst'
    unfold pendingFrom at log ⊢
    have sameEdges : ({ g with inbox := g.inbox.insert dst msg }.setListening dst false).edges = g.edges := rfl
    rw [sent, received, heldAfter, between_append, between_singleton, graph, sameEdges, queues]
    by_cases same : dst' = dst
    · subst same
      rw [held_of_none noInbox, noQueue src', List.nil_append, List.append_nil] at log
      rw [log, noQueue src', if_pos rfl]
      by_cases from' : src = src'
      · simp [from']
      · simp [from']
    · rw [if_neg same, log]
      simp [Ne.symm same]

theorem consistent_of_queued (h : t.Consistent here) {t' : Tracked α} {g : Graph α} {src dst : Pid} {msg : α}
    (nodup : (g.edges.map (·.1)).Nodup) (queues : ∀ k, Graph.queueOf g.edges k = Graph.queueOf t.ipc.graph.edges k)
    (inbox : g.inbox = t.ipc.graph.inbox) (flags : g.listening = t.ipc.graph.listening)
    (mem : (src, dst, here) ∈ g.edges.map (·.1)) (quiet : g.isListening dst = false)
    (graph : t'.ipc.graph = { g with edges := Graph.pushBack (src, dst, here) msg g.edges })
    (sent : t'.sent = t.sent ++ [(src, dst, msg)]) (received : t'.received = t.received)
    (inboxFrom : t'.inboxFrom = t.inboxFrom) : t'.Consistent here := by
  have flag : ∀ p, t'.ipc.graph.isListening p = t.ipc.graph.isListening p := fun p => by
    simp only [graph, Graph.isListening, flags]
  have queuesAfter : ∀ k, Graph.queueOf t'.ipc.graph.edges k =
      if k = (src, dst, here) then Graph.queueOf t.ipc.graph.edges k ++ [msg]
      else Graph.queueOf t.ipc.graph.edges k := by
    intro k
    rw [graph, Graph.queueOf_pushBack msg mem k]
    split_ifs with same
    · rw [same, queues]
    · exact queues k
  have inboxAfter : t'.ipc.graph.inbox = t.ipc.graph.inbox := by
    rw [graph]
    exact inbox
  refine ⟨?_, fun p => ?_, fun p listens => ?_, fun src' dst' => ?_⟩
  · rw [graph, List.map_congr_left (fun _ _ => rfl), Graph.keys_pushBack]
    exact nodup
  · rw [inboxAfter, inboxFrom]
    exact h.inbox_from p
  · rw [flag] at listens
    have other : p ≠ dst := by
      rintro rfl
      have before : g.isListening p = t.ipc.graph.isListening p := by
        simp only [Graph.isListening, flags]
      rw [← before, quiet] at listens
      cases listens
    obtain ⟨empty, drained⟩ := h.quiet p listens
    refine ⟨inboxAfter ▸ empty, fun src => ?_⟩
    rw [queuesAfter, if_neg fun same => other (Prod.ext_iff.mp (Prod.ext_iff.mp same).2).1]
    exact drained src
  · have heldSame : t'.held src' dst' = t.held src' dst' := by
      simp only [held, inboxAfter, inboxFrom]
    have log := h.log src' dst'
    unfold pendingFrom at log ⊢
    rw [sent, received, heldSame, queuesAfter, between_append, between_singleton, log]
    by_cases same : src = src' ∧ dst = dst'
    · obtain ⟨rfl, rfl⟩ := same
      simp
    · have notKey : (src', dst', here) ≠ (src, dst, here) := by
        intro key
        simp only [Prod.mk.injEq] at key
        exact same ⟨key.1.symm, key.2.1.symm⟩
      rw [if_neg same, if_neg notKey, List.append_nil]

theorem consistent_of_inbox_recv (h : t.Consistent here) {t' : Tracked α} {pid : Pid} {msg : α}
    (present : t.ipc.graph.inbox.lookup pid = some msg)
    (graph : t'.ipc.graph = { t.ipc.graph with inbox := t.ipc.graph.inbox.erase pid })
    (sent : t'.sent = t.sent)
    (received : t'.received = t.received ++ [((t.inboxFrom.lookup pid).getD pid, pid, msg)])
    (inboxFrom : t'.inboxFrom = t.inboxFrom.erase pid) : t'.Consistent here := by
  obtain ⟨sender, named⟩ := Option.isSome_iff_exists.mp (h.inbox_from pid (by rw [present]; rfl))
  have heldAfter : ∀ src' dst', t'.held src' dst' = if dst' = pid then [] else t.held src' dst' := by
    intro src' dst'
    unfold held
    rw [graph, inboxFrom]
    by_cases same : dst' = pid
    · subst same
      simp
    · simp only [AList.lookup_erase_ne same, if_neg same]
  refine ⟨?_, fun p there => ?_, fun p listens => ?_, fun src' dst' => ?_⟩
  · rw [graph]
    exact h.nodup
  · have other : p ≠ pid := by
      rintro rfl
      simp [graph] at there
    rw [inboxFrom, AList.lookup_erase_ne other]
    apply h.inbox_from p
    simpa [graph, AList.lookup_erase_ne other] using there
  · have before : t.ipc.graph.isListening p = true := by
      rw [graph] at listens
      exact listens
    obtain ⟨empty, drained⟩ := h.quiet p before
    have other : p ≠ pid := by
      rintro rfl
      rw [present] at empty
      cases empty
    refine ⟨?_, fun src => ?_⟩
    · rw [graph]
      simpa [AList.lookup_erase_ne other] using empty
    · rw [graph]
      exact drained src
  · have log := h.log src' dst'
    unfold pendingFrom at log ⊢
    rw [sent, received, heldAfter, between_append, between_singleton, log, graph, named, Option.getD_some]
    by_cases same : dst' = pid
    · subst same
      unfold held
      rw [present, named]
      by_cases from' : sender = src'
      · simp [from']
      · simp [from']
    · simp [same, Ne.symm same]

theorem consistent_of_channel_recv (h : t.Consistent here) {t' : Tracked α} {pid : Pid} {key : ChannelKey}
    {msg : α} {rest : List (ChannelKey × List α)}
    (empty : t.ipc.graph.inbox.lookup pid = none)
    (found : Graph.popFront pid here t.ipc.graph.edges = some (key, msg, rest))
    (graph : t'.ipc.graph = { t.ipc.graph with edges := rest })
    (sent : t'.sent = t.sent) (received : t'.received = t.received ++ [(key.1, pid, msg)])
    (inboxFrom : t'.inboxFrom = t.inboxFrom) : t'.Consistent here := by
  obtain ⟨toPid, onNode, front, others, keys⟩ := Graph.popFront_spec h.nodup found
  obtain ⟨sender, dst, node⟩ := key
  dsimp only at toPid onNode front others
  subst toPid node
  have heldSame : ∀ src' dst', t'.held src' dst' = t.held src' dst' := by
    intro src' dst'
    simp only [held, graph, inboxFrom]
  refine ⟨?_, fun p => ?_, fun p listens => ?_, fun src' dst' => ?_⟩
  · rw [graph]
    dsimp only
    rw [keys]
    exact h.nodup
  · rw [graph, inboxFrom]
    exact h.inbox_from p
  · rw [graph] at listens ⊢
    obtain ⟨inboxEmpty, drained⟩ := h.quiet p listens
    have other : p ≠ dst := by
      rintro rfl
      rw [drained sender] at front
      cases front
    refine ⟨inboxEmpty, fun src => ?_⟩
    dsimp only
    rw [others _ fun same => other (Prod.ext_iff.mp (Prod.ext_iff.mp same).2).1]
    exact drained src
  · have log := h.log src' dst'
    unfold pendingFrom at log ⊢
    rw [sent, received, heldSame, between_append, between_singleton, log, graph]
    dsimp only
    by_cases same : sender = src' ∧ dst = dst'
    · obtain ⟨rfl, rfl⟩ := same
      rw [front, held_of_none empty]
      simp
    · have notKey : (src', dst', here) ≠ (sender, dst, here) := by
        intro key
        simp only [Prod.mk.injEq] at key
        exact same ⟨key.1.symm, key.2.1.symm⟩
      rw [if_neg same, others _ notKey, List.append_nil]

theorem consistent_send (h : t.Consistent here) (src dst : Pid) (msg : α) (flags : IpcFlags) (netOk : Bool)
    (adm : t.Admissible here (.send src dst msg flags netOk)) :
    (t.step here (.send src dst msg flags netOk)).Consistent here := by
  have onNode : (Ipc.sendChannel t.ipc.graph here src dst).2.2.2 = here := adm
  obtain ⟨queues, listening, inbox, keepsNodup⟩ := Ipc.sendChannel_frame t.ipc.graph here src dst
  obtain ⟨fromSrc, toDst⟩ := Ipc.sendChannel_key t.ipc.graph here src dst
  have key : (Ipc.sendChannel t.ipc.graph here src dst).2 = (src, dst, here) :=
    Prod.ext fromSrc (Prod.ext toDst onNode)
  have nodup := keepsNodup h.nodup
  by_cases listens : (Ipc.sendChannel t.ipc.graph here src dst).1.isListening dst = true
  · have sent : (t.step here (.send src dst msg flags netOk)).sent = t.sent ++ [(src, dst, msg)] := by
      simp only [step, onNode, listens, true_or, and_self, if_true]
    have inboxFrom : (t.step here (.send src dst msg flags netOk)).inboxFrom = t.inboxFrom.insert dst src := by
      simp only [step, onNode, listens, and_self, if_true]
    apply consistent_of_direct h nodup queues inbox listening listens _ sent rfl inboxFrom
    simp only [step, Ipc.step, Ipc.latticeSend_direct t.ipc here msg flags netOk onNode listens]
  · have quiet : (Ipc.sendChannel t.ipc.graph here src dst).1.isListening dst = false := by
      simpa using listens
    by_cases nonblock : flags = .nonblock
    · subst nonblock
      have graph : (t.step here (.send src dst msg .nonblock netOk)).ipc.graph =
          (Ipc.sendChannel t.ipc.graph here src dst).1 := by
        simp only [step, Ipc.step, Ipc.latticeSend_refused t.ipc here msg netOk onNode quiet]
      refine h.frame ?_ ?_ ?_ ?_ ?_ rfl ?_
      · rw [graph]
        exact nodup
      · rw [graph]
        exact queues
      · rw [graph]
        exact inbox
      · rw [graph]
        exact listening
      · simp only [step, onNode, quiet, ne_eq, not_true_eq_false, Bool.false_eq_true, or_self, and_false,
          if_false]
      · simp only [step, onNode, quiet, Bool.false_eq_true, and_false, if_false]
    · have sent : (t.step here (.send src dst msg flags netOk)).sent = t.sent ++ [(src, dst, msg)] := by
        simp only [step, onNode, nonblock, ne_eq, not_false_eq_true, or_true, and_self, if_true]
      have inboxFrom : (t.step here (.send src dst msg flags netOk)).inboxFrom = t.inboxFrom := by
        simp only [step, onNode, quiet, Bool.false_eq_true, and_false, if_false]
      apply consistent_of_queued h nodup queues inbox listening (key ▸ Ipc.mem_sendChannel ..) quiet _ sent rfl
        inboxFrom
      simp only [step, Ipc.step, Ipc.latticeSend_queued t.ipc here msg netOk onNode quiet nonblock, key]

theorem step_recv_inbox {pid : Pid} {msg : α} (present : t.ipc.graph.inbox.lookup pid = some msg) :
    t.step here (.recv pid) =
      { ipc := { t.ipc with graph := { t.ipc.graph with inbox := t.ipc.graph.inbox.erase pid } }
        sent := t.sent
        received := t.received ++ [((t.inboxFrom.lookup pid).getD pid, pid, msg)]
        inboxFrom := t.inboxFrom.erase pid } := by
  simp only [step, Ipc.step, Ipc.latticeRecv_inbox t.ipc here present, present]

theorem step_recv_channel {pid : Pid} {key : ChannelKey} {msg : α} {rest : List (ChannelKey × List α)}
    (empty : t.ipc.graph.inbox.lookup pid = none)
    (found : Graph.popFront pid here t.ipc.graph.edges = some (key, msg, rest)) :
    t.step here (.recv pid) =
      { ipc := { t.ipc with graph := { t.ipc.graph with edges := rest } }
        sent := t.sent
        received := t.received ++ [(key.1, pid, msg)]
        inboxFrom := t.inboxFrom } := by
  simp only [step, Ipc.step, Ipc.latticeRecv_channel t.ipc here empty found, empty, found]

theorem step_recv_idle {pid : Pid} (empty : t.ipc.graph.inbox.lookup pid = none)
    (nothing : Graph.popFront pid here t.ipc.graph.edges = none) : t.step here (.recv pid) = t := by
  simp only [step, Ipc.step, Ipc.latticeRecv_none t.ipc here empty nothing, empty, nothing]

theorem consistent_recv (h : t.Consistent here) (pid : Pid) : (t.step here (.recv pid)).Consistent here := by
  cases present : t.ipc.graph.inbox.lookup pid with
  | some msg =>
    rw [step_recv_inbox present]
    exact consistent_of_inbox_recv h present rfl rfl rfl rfl
  | none =>
    cases found : Graph.popFront pid here t.ipc.graph.edges with
    | some r =>
      obtain ⟨key, msg, rest⟩ := r
      rw [step_recv_channel present found]
      exact consistent_of_channel_recv h present found rfl rfl rfl rfl
    | none =>
      rw [step_recv_idle present found]
      exact h

theorem consistent_step (h : t.Consistent here) (op : Op α) (adm : t.Admissible here op) :
    (t.step here op).Consistent here := by
  cases op with
  | connect src dst node => exact consistent_connect h src dst node
  | listen pid => exact consistent_listen h pid adm
  | send src dst msg flags netOk => exact consistent_send h src dst msg flags netOk adm
  | recv pid => exact consistent_recv h pid

theorem consistent_run (ops : List (Op α)) :
    ∀ {t : Tracked α}, t.Consistent here → t.AdmissibleRun here ops → (t.run here ops).Consistent here := by
  induction ops with
  | nil => exact fun h _ => h
  | cons op ops ih =>
    intro t h admissible
    exact ih (consistent_step h op admissible.1) admissible.2

theorem waiting_recv (pid : Pid) : (t.step here (.recv pid)).waiting here pid = t.waiting here pid - 1 := by
  cases present : t.ipc.graph.inbox.lookup pid with
  | some msg =>
    rw [step_recv_inbox present]
    simp only [waiting, AList.lookup_erase, present, Option.isSome_none, Option.isSome_some,
      Bool.false_eq_true, if_false, if_true]
    omega
  | none =>
    cases found : Graph.popFront pid here t.ipc.graph.edges with
    | some r =>
      obtain ⟨key, msg, rest⟩ := r
      rw [step_recv_channel present found]
      simp only [waiting, present, Option.isSome_none, Bool.false_eq_true, if_false,
        Graph.waiting_popFront found]
      omega
    | none =>
      rw [step_recv_idle present found]
      simp only [waiting, present, Option.isSome_none, Bool.false_eq_true, if_false,
        Graph.waiting_of_popFront_eq_none found]

theorem pendingFrom_of_waiting_eq_zero {pid : Pid} (h : t.waiting here pid = 0) (src : Pid) :
    t.pendingFrom here src pid = [] := by
  have empty : t.ipc.graph.inbox.lookup pid = none := by
    unfold waiting at h
    split_ifs at h with present
    · omega
    · exact Option.not_isSome_iff_eq_none.mp present
  have short : (Graph.queueOf t.ipc.graph.edges (src, pid, here)).length ≤ Graph.waiting pid here t.ipc.graph.edges :=
    Graph.length_queueOf_le_waiting src
  unfold waiting at h
  unfold pendingFrom
  rw [held_of_none empty, List.nil_append]
  exact List.eq_nil_of_length_eq_zero (by omega)

theorem drain_run (pid : Pid) (n : ℕ) :
    ∀ {t : Tracked α}, t.Consistent here →
      (t.run here (List.replicate n (.recv pid))).Consistent here ∧
        (t.run here (List.replicate n (.recv pid))).sent = t.sent ∧
        (t.run here (List.replicate n (.recv pid))).waiting here pid = t.waiting here pid - n := by
  induction n with
  | zero => exact fun h => ⟨h, rfl, rfl⟩
  | succ n ih =>
    intro t h
    obtain ⟨consistent, sent, waiting⟩ := ih (consistent_recv h pid)
    rw [List.replicate_succ, run, List.foldl_cons, ← run]
    refine ⟨consistent, sent, ?_⟩
    rw [waiting, waiting_recv]
    omega

theorem drained (h : t.Consistent here) (src pid : Pid) :
    between src pid (t.run here (List.replicate (t.waiting here pid) (.recv pid))).received =
      between src pid t.sent := by
  obtain ⟨consistent, sent, waiting⟩ := drain_run pid (t.waiting here pid) h
  have empty := pendingFrom_of_waiting_eq_zero (by rw [waiting, Nat.sub_self]) src
  have log := consistent.log src pid
  rw [empty, List.append_nil, sent] at log
  exact log.symm

end Tracked

/-- Along every run from the empty graph in which `lattice_listen` is called
only for a pid with nothing pending and `lattice_send` uses channels of this
node: what `src` sent to `dst` with result `OK` is what `dst` received from
`src` followed by what is still pending, in order; so `dst` received a prefix
of it, none twice; and after `dst` calls `lattice_recv` as often as messages
wait for it, it has received all of it. -/
theorem local_sends_delivered_once_in_order (here : Node) (ops : List (Op α))
    (admissible : (Tracked.init : Tracked α).AdmissibleRun here ops) (src dst : Pid) :
    between src dst ((Tracked.init : Tracked α).run here ops).received ++
        ((Tracked.init : Tracked α).run here ops).pendingFrom here src dst =
      between src dst ((Tracked.init : Tracked α).run here ops).sent ∧
    between src dst ((Tracked.init : Tracked α).run here ops).received <+:
      between src dst ((Tracked.init : Tracked α).run here ops).sent ∧
    between src dst (((Tracked.init : Tracked α).run here ops).run here
        (List.replicate (((Tracked.init : Tracked α).run here ops).waiting here dst) (.recv dst))).received =
      between src dst ((Tracked.init : Tracked α).run here ops).sent := by
  have h := Tracked.consistent_run ops Tracked.consistent_init admissible
  have log := (h.log src dst).symm
  exact ⟨log, ⟨_, log⟩, Tracked.drained h src dst⟩

/-- On node 1: a message queued for 2, a direct handoff to a listening 3, a
second message queued for 2 and one receive by 2. -/
theorem queued_and_handed_off_run :
    (Tracked.init : Tracked ℕ).AdmissibleRun 1
        [.connect 1 2 0, .send 1 2 10 .none true, .listen 3, .send 1 3 5 .none true,
          .send 1 2 11 .none true, .recv 2] ∧
      between 1 2 ((Tracked.init : Tracked ℕ).run 1
          [.connect 1 2 0, .send 1 2 10 .none true, .listen 3, .send 1 3 5 .none true,
            .send 1 2 11 .none true, .recv 2]).received <+:
        between 1 2 ((Tracked.init : Tracked ℕ).run 1
          [.connect 1 2 0, .send 1 2 10 .none true, .listen 3, .send 1 3 5 .none true,
            .send 1 2 11 .none true, .recv 2]).sent :=
  have admissible : (Tracked.init : Tracked ℕ).AdmissibleRun 1
      [.connect 1 2 0, .send 1 2 10 .none true, .listen 3, .send 1 3 5 .none true,
        .send 1 2 11 .none true, .recv 2] := by decide
  ⟨admissible, (local_sends_delivered_once_in_order 1 _ admissible 1 2).2.1⟩

/-- `lattice_listen` for a pid that has a message pending. With a message in
the inbox, the next direct handoff overwrites it: 10 is never received and
nothing more waits. With a message queued, the handoff overtakes it: 20 is
received before 10. -/
theorem listen_with_pending_loses_and_reorders :
    between 1 2 ((Tracked.init : Tracked ℕ).run 1
        [.connect 1 2 0, .listen 2, .send 1 2 10 .none true, .listen 2, .send 1 2 20 .none true,
          .recv 2, .recv 2]).sent = [10, 20] ∧
      between 1 2 ((Tracked.init : Tracked ℕ).run 1
        [.connect 1 2 0, .listen 2, .send 1 2 10 .none true, .listen 2, .send 1 2 20 .none true,
          .recv 2, .recv 2]).received = [20] ∧
      ((Tracked.init : Tracked ℕ).run 1
        [.connect 1 2 0, .listen 2, .send 1 2 10 .none true, .listen 2, .send 1 2 20 .none true,
          .recv 2, .recv 2]).waiting 1 2 = 0 ∧
      between 1 2 ((Tracked.init : Tracked ℕ).run 1
        [.connect 1 2 0, .send 1 2 10 .none true, .listen 2, .send 1 2 20 .none true,
          .recv 2, .recv 2]).received = [20, 10] := by
  decide

end Xinim.Lattice
