import Xinim.Lattice.WaitGraph

/-! `sched::Scheduler` (kernel/schedule.cpp): a FIFO run queue, the running
thread (`-1` for none), the set of blocked threads, the thread each blocked
thread waits for, and a wait-for graph that refuses cycles. `blocked_` is an
unordered set, kept here as a list that `insert` never duplicates and `erase`
empties of its key. -/

namespace Xinim.Sched
open Xinim.Lattice

structure Scheduler where
  ready : List Pid
  current : Pid
  blocked : List Pid
  waiting : AList (fun _ : Pid => Pid)
  graph : WaitForGraph

namespace Scheduler

def init : Scheduler := ⟨[], -1, [], ∅, .empty⟩

def enqueue (s : Scheduler) (pid : Pid) : Scheduler := { s with ready := s.ready ++ [pid] }

/-- The front of the queue runs next; the running thread goes to the back
first unless it is blocked. -/
def preempt (s : Scheduler) : Option Pid × Scheduler :=
  match s.ready with
  | [] => (none, { s with current := -1 })
  | front :: rest =>
    let requeued := if s.current ≠ -1 ∧ s.current ∉ s.blocked then rest ++ [s.current] else rest
    (some front, { s with current := front, ready := requeued })

def yieldTo (s : Scheduler) (target : Pid) : Scheduler :=
  if target ∉ s.ready then s
  else
    let rest := s.ready.filter (· ≠ target)
    { s with
      ready := if s.current ≠ -1 then rest ++ [s.current] else rest
      current := target }

/-- Same body as `yield_to`. -/
def directHandoff (s : Scheduler) (receiver : Pid) : Scheduler := s.yieldTo receiver

def blockOn (s : Scheduler) (src dst : Pid) : Bool × Scheduler :=
  let (cycle, graph) := s.graph.addEdge src dst
  if cycle then (false, { s with graph := graph })
  else
    let marked := { s with
      graph := graph
      waiting := s.waiting.insert src dst
      blocked := s.blocked.insert src
      ready := s.ready.filter (· ≠ src) }
    (true, if marked.current = src then marked.preempt.2 else marked)

def unblock (s : Scheduler) (pid : Pid) : Scheduler :=
  let released := match s.waiting.lookup pid with
    | some dst => { s with graph := s.graph.removeEdge pid dst, waiting := s.waiting.erase pid }
    | none => s
  if pid ∈ released.blocked then
    { released with blocked := released.blocked.filter (· ≠ pid), ready := released.ready ++ [pid] }
  else released

def isBlocked (s : Scheduler) (pid : Pid) : Bool := decide (pid ∈ s.blocked)

def pick (s : Scheduler) : Pid := s.ready.headD (-1)

def running (s : Scheduler) : List Pid := if s.current = -1 then [] else [s.current]

/-- No thread holds two places among the run queue and the CPU, and no
blocked thread holds any. -/
structure WellQueued (s : Scheduler) : Prop where
  ready_nodup : s.ready.Nodup
  current_not_ready : s.current ≠ -1 → s.current ∉ s.ready
  blocked_not_ready : ∀ p ∈ s.blocked, p ∉ s.ready
  current_not_blocked : s.current ≠ -1 → s.current ∉ s.blocked

theorem wellQueued_iff (s : Scheduler) :
    s.WellQueued ↔ (s.running ++ s.ready).Nodup ∧ ∀ p ∈ s.blocked, p ∉ s.running ++ s.ready := by
  constructor
  · rintro ⟨hn, hc, hb, hcb⟩
    refine ⟨?_, fun p hp => ?_⟩
    · by_cases h : s.current = -1
      · simpa [running, h] using hn
      · simpa [running, h, hn] using hc h
    · by_cases h : s.current = -1
      · simpa [running, h] using hb p hp
      · have : p ≠ s.current := fun e => hcb h (e ▸ hp)
        simp [running, h, this, hb p hp]
  · rintro ⟨hn, hb⟩
    refine ⟨(List.nodup_append.mp hn).2.1, fun h hr => ?_, fun p hp hr => ?_, fun h hp => ?_⟩
    · exact (List.nodup_append.mp hn).2.2 s.current (by simp [running, h]) s.current hr rfl
    · exact hb p hp (List.mem_append_right _ hr)
    · exact hb _ hp (List.mem_append_left _ (by simp [running, h]))

theorem wellQueued_init : init.WellQueued :=
  ⟨List.nodup_nil, fun _ => List.not_mem_nil, fun _ _ => List.not_mem_nil, fun _ => List.not_mem_nil⟩

theorem preempt_wellQueued {s : Scheduler} (hn : s.ready.Nodup)
    (hc : s.current ≠ -1 → s.current ∉ s.ready) (hb : ∀ p ∈ s.blocked, p ∉ s.ready) :
    s.preempt.2.WellQueued := by
  cases hready : s.ready with
  | nil =>
    simp only [preempt, hready]
    exact ⟨List.nodup_nil, fun _ => List.not_mem_nil, fun _ _ => List.not_mem_nil,
      fun h => absurd rfl h⟩
  | cons front rest =>
    simp only [preempt, hready]
    rw [hready] at hn hc hb
    obtain ⟨hfront, hrest⟩ := List.nodup_cons.mp hn
    split_ifs with hq
    · have hcr : s.current ∉ front :: rest := hc hq.1
      refine ⟨?_, fun _ => ?_, fun p hp => ?_, fun _ => ?_⟩
      · refine hrest.append (List.nodup_singleton _) fun a ha hs => hcr ?_
        rw [List.mem_singleton.mp hs] at ha
        exact List.mem_cons_of_mem _ ha
      · simp only [List.mem_append, List.mem_singleton, not_or]
        exact ⟨hfront, fun h => hcr (h ▸ List.mem_cons_self)⟩
      · simp only [List.mem_append, List.mem_singleton, not_or]
        exact ⟨fun h => hb p hp (List.mem_cons_of_mem _ h), fun h => hq.2 (h ▸ hp)⟩
      · exact fun hp => hb front hp List.mem_cons_self
    · exact ⟨hrest, fun _ => hfront, fun p hp h => hb p hp (List.mem_cons_of_mem _ h),
        fun _ hp => hb front hp List.mem_cons_self⟩

variable {s : Scheduler}

theorem yieldTo_of_not_mem {target : Pid} (ht : target ∉ s.ready) : s.yieldTo target = s := by
  simp [yieldTo, ht]

theorem yieldTo_of_mem {target : Pid} (ht : target ∈ s.ready) :
    s.yieldTo target =
      { s with ready := s.ready.filter (· ≠ target) ++ s.running, current := target } := by
  by_cases hc : s.current = -1 <;> simp [yieldTo, ht, running, hc]

theorem yieldTo_wellQueued (h : s.WellQueued) (target : Pid) : (s.yieldTo target).WellQueued := by
  by_cases ht : target ∈ s.ready
  · obtain ⟨hn, hc, hb, hcb⟩ := h
    rw [yieldTo_of_mem ht]
    have hrun : ∀ q ∈ s.running, q ∉ s.ready ∧ q ∉ s.blocked := by
      intro q hq
      by_cases hcur : s.current = -1
      · simp [running, hcur] at hq
      · simp only [running, hcur, if_false, List.mem_singleton] at hq
        exact hq ▸ ⟨hc hcur, hcb hcur⟩
    have hnr : s.running.Nodup := by
      unfold running
      split <;> simp
    refine ⟨(hn.filter _).append hnr fun a ha hs => (hrun a hs).1 (List.mem_of_mem_filter ha),
      fun _ hmem => ?_, fun p hp hmem => ?_, fun _ hp => hb target hp ht⟩
    · rcases List.mem_append.mp hmem with hmem | hmem
      · simp at hmem
      · exact (hrun target hmem).1 ht
    · rcases List.mem_append.mp hmem with hmem | hmem
      · exact hb p hp (List.mem_of_mem_filter hmem)
      · exact (hrun p hmem).2 hp
  · rwa [yieldTo_of_not_mem ht]

theorem directHandoff_wellQueued (h : s.WellQueued) (receiver : Pid) :
    (s.directHandoff receiver).WellQueued :=
  yieldTo_wellQueued h receiver

theorem blockOn_of_cycle {src dst : Pid} (h : (s.graph.addEdge src dst).1 = true) :
    s.blockOn src dst = (false, { s with graph := (s.graph.addEdge src dst).2 }) := by
  simp [blockOn, h]

theorem blockOn_of_no_cycle {src dst : Pid} (h : (s.graph.addEdge src dst).1 = false) :
    s.blockOn src dst =
      (true,
        let marked := { s with
          graph := (s.graph.addEdge src dst).2
          waiting := s.waiting.insert src dst
          blocked := s.blocked.insert src
          ready := s.ready.filter (· ≠ src) }
        if marked.current = src then marked.preempt.2 else marked) := by
  simp [blockOn, h]

theorem blockOn_wellQueued (h : s.WellQueued) (src dst : Pid) : (s.blockOn src dst).2.WellQueued := by
  cases hcycle : (s.graph.addEdge src dst).1
  · obtain ⟨hn, hc, hb, hcb⟩ := h
    rw [blockOn_of_no_cycle hcycle]
    dsimp only
    have hready : ∀ p ∈ s.blocked.insert src, p ∉ s.ready.filter (· ≠ src) := by
      intro p hp hmem
      simp only [List.mem_filter, decide_eq_true_eq] at hmem
      rcases List.mem_insert_iff.mp hp with rfl | hp
      · exact hmem.2 rfl
      · exact hb p hp hmem.1
    split_ifs with hcur
    · -- the blocked thread was running: `preempt` must not requeue it
      exact preempt_wellQueued (hn.filter _) (fun _ hmem => by simp [hcur] at hmem) hready
    · refine ⟨hn.filter _, fun hne hmem => hc hne (List.mem_of_mem_filter hmem), hready,
        fun hne hp => ?_⟩
      rcases List.mem_insert_iff.mp hp with heq | hp
      · exact hcur heq
      · exact hcb hne hp
  · rw [blockOn_of_cycle hcycle]
    exact ⟨h.1, h.2, h.3, h.4⟩

theorem unblock_wellQueued (h : s.WellQueued) (pid : Pid) : (s.unblock pid).WellQueued := by
  have released : ∀ t : Scheduler, t.ready = s.ready → t.current = s.current →
      t.blocked = s.blocked → (if pid ∈ t.blocked then
        { t with blocked := t.blocked.filter (· ≠ pid), ready := t.ready ++ [pid] } else t).WellQueued := by
    intro t hr hcur hbl
    obtain ⟨hn, hc, hb, hcb⟩ := h
    rw [← hr, ← hcur, ← hbl] at *
    split_ifs with hp
    · refine ⟨hn.append (List.nodup_singleton _) fun a ha hs => ?_, fun hne hmem => ?_,
        fun q hq hmem => ?_, fun hne hq => ?_⟩
      · rw [List.mem_singleton.mp hs] at ha
        exact hb pid hp ha
      · rcases List.mem_append.mp hmem with hmem | hmem
        · exact hc hne hmem
        · exact hcb hne (List.mem_singleton.mp hmem ▸ hp)
      · simp only [List.mem_filter, decide_eq_true_eq] at hq
        rcases List.mem_append.mp hmem with hmem | hmem
        · exact hb q hq.1 hmem
        · exact hq.2 (List.mem_singleton.mp hmem)
      · exact hcb hne (List.mem_of_mem_filter hq)
    · exact ⟨hn, hc, hb, hcb⟩
  unfold unblock
  split <;> exact released _ rfl rfl rfl

theorem enqueue_wellQueued (h : s.WellQueued) {pid : Pid} (hr : pid ∉ s.ready)
    (hb : pid ∉ s.blocked) (hc : s.current ≠ -1 → pid ≠ s.current) :
    (s.enqueue pid).WellQueued := by
  obtain ⟨hn, hcr, hbr, hcb⟩ := h
  refine ⟨hn.append (List.nodup_singleton _) fun a ha hs => ?_, fun hne hmem => ?_,
    fun q hq hmem => ?_, hcb⟩
  · rw [List.mem_singleton.mp hs] at ha
    exact hr ha
  · rcases List.mem_append.mp hmem with hmem | hmem
    · exact hcr hne hmem
    · exact hc hne (List.mem_singleton.mp hmem).symm
  · rcases List.mem_append.mp hmem with hmem | hmem
    · exact hbr q hq hmem
    · exact hb (List.mem_singleton.mp hmem ▸ hq)

def Fresh (s : Scheduler) (pid : Pid) : Prop :=
  pid ∉ s.ready ∧ pid ∉ s.blocked ∧ (s.current ≠ -1 → pid ≠ s.current)

def FreshIn (s : Scheduler) : List Pid → Prop
  | [] => True
  | pid :: rest => s.Fresh pid ∧ FreshIn (s.enqueue pid) rest

instance (s : Scheduler) (pid : Pid) : Decidable (s.Fresh pid) :=
  inferInstanceAs (Decidable (pid ∉ s.ready ∧ pid ∉ s.blocked ∧ (s.current ≠ -1 → pid ≠ s.current)))

instance decidableFreshIn : (s : Scheduler) → (l : List Pid) → Decidable (s.FreshIn l)
  | _, [] => isTrue trivial
  | s, pid :: rest =>
    haveI := decidableFreshIn (s.enqueue pid) rest
    inferInstanceAs (Decidable (s.Fresh pid ∧ (s.enqueue pid).FreshIn rest))

theorem enqueueAll_wellQueued {l : List Pid} :
    ∀ {s : Scheduler}, s.WellQueued → s.FreshIn l → (l.foldl enqueue s).WellQueued := by
  induction l with
  | nil => exact fun h _ => h
  | cons pid rest ih =>
    intro s h fresh
    obtain ⟨hr, hb, hc⟩ := fresh.1
    exact ih (enqueue_wellQueued h hr hb hc) fresh.2

theorem stop_wellQueued (h : s.WellQueued) : ({ s with current := -1 } : Scheduler).WellQueued :=
  ⟨h.ready_nodup, fun h' => absurd rfl h', h.blocked_not_ready, fun h' => absurd rfl h'⟩

end Scheduler

/-- Blocking thread 1 twice leaves two edges under one `waiting_` entry; after
`unblock(1)` the edge `1 → 2` survives, so blocking 2 on 1 is refused as a
deadlock although nothing waits any more. -/
theorem unblock_leaves_stale_edge :
    (2 ∈ ((Scheduler.init.blockOn 1 2).2.blockOn 1 3).2.graph.succ 1 ∧
      3 ∈ ((Scheduler.init.blockOn 1 2).2.blockOn 1 3).2.graph.succ 1 ∧
      ((Scheduler.init.blockOn 1 2).2.blockOn 1 3).2.waiting.lookup 1 = some 3) ∧
    (2 ∈ (((Scheduler.init.blockOn 1 2).2.blockOn 1 3).2.unblock 1).graph.succ 1 ∧
      (((Scheduler.init.blockOn 1 2).2.blockOn 1 3).2.unblock 1).waiting.lookup 1 = none ∧
      1 ∉ (((Scheduler.init.blockOn 1 2).2.blockOn 1 3).2.unblock 1).blocked) ∧
    ((((Scheduler.init.blockOn 1 2).2.blockOn 1 3).2.unblock 1).blockOn 2 1).1 = false := by
  decide

end Xinim.Sched
