import Xinim.Core
import Xinim.Data.AList
import Xinim.Graph.Acyclic
import Xinim.Graph.Search

/-! `lattice::WaitForGraph` (kernel/wait_graph.cpp). `edges_` maps a waiting
pid to the list of pids it waits for, a multiset adjacency in insertion
order; every reader treats an absent key as the empty list. `has_path` is the
shared-visited depth-first search of `Graph.search`, with fuel one above the
number of keys: each level of its recursion enters a key not yet visited. -/

namespace Xinim.Lattice
open Xinim.Graph Relation

inductive EdgeType
  | ipc
  | resource
  | lock
  deriving DecidableEq, Repr

/-- `Edge`; the fields `from` and `to` are `src` and `dst` here, `resource`
is the lock address and `timestamp` the recorded monotonic time. -/
structure Edge where
  src : Pid
  dst : Pid
  type : EdgeType
  resource : ℕ
  timestamp : ℕ
  deriving DecidableEq, Repr

structure WaitForGraph where
  edges : AList (fun _ : Pid => List Pid)
  edgeMetadata : List Edge

namespace WaitForGraph

def empty : WaitForGraph := ⟨∅, []⟩

def succ (g : WaitForGraph) (p : Pid) : List Pid := (g.edges.lookup p).getD []

def Waits (g : WaitForGraph) : Pid → Pid → Prop := Adj g.succ

def hasPath (g : WaitForGraph) (src dst : Pid) (visited : List Pid) : Bool × List Pid :=
  search g.succ dst (g.edges.keys.length + 1) src visited

def setSucc (g : WaitForGraph) (p : Pid) (l : List Pid) : WaitForGraph :=
  { g with edges := g.edges.insert p l }

def addEdge (g : WaitForGraph) (src dst : Pid) : Bool × WaitForGraph :=
  let pushed := g.setSucc src (g.succ src ++ [dst])
  if (pushed.hasPath dst src []).1 then
    -- roll back by erasing the first `dst` of the list, as `vec.erase(std::find(...))`
    (true, pushed.setSucc src ((pushed.succ src).erase dst))
  else (false, pushed)

/-- The `add_edge(const Edge &)` overload: the `edges_` update of `addEdge`
with the metadata pushed before and popped on rollback; the search never
reads `edge_metadata_`, so the two updates commute. -/
def addTypedEdge (g : WaitForGraph) (edge : Edge) : Bool × WaitForGraph :=
  let (cycle, next) := { g with edgeMetadata := g.edgeMetadata ++ [edge] }.addEdge edge.src edge.dst
  if cycle then (true, { next with edgeMetadata := next.edgeMetadata.dropLast })
  else (false, next)

def addLockEdge (g : WaitForGraph) (waiter holder : Pid) (lockAddr : ℕ) : Bool × WaitForGraph :=
  g.addTypedEdge ⟨waiter, holder, .lock, lockAddr, 0⟩

def removeEdge (g : WaitForGraph) (src dst : Pid) : WaitForGraph :=
  match g.edges.lookup src with
  | none => g
  | some vec =>
    let kept := vec.filter (· ≠ dst)
    { edges := if kept = [] then g.edges.erase src else g.edges.insert src kept
      edgeMetadata := g.edgeMetadata.filter fun e => !(e.src = src ∧ e.dst = dst) }

def removeLockEdge (g : WaitForGraph) (waiter : Pid) (lockAddr : ℕ) : WaitForGraph :=
  match g.edgeMetadata.find? fun e => e.src = waiter ∧ e.type = .lock ∧ e.resource = lockAddr with
  | none => g
  | some e => { g with edgeMetadata := g.edgeMetadata.erase e }.removeEdge waiter e.dst

def clear (g : WaitForGraph) (pid : Pid) : WaitForGraph :=
  { edges := (g.edges.erase pid).mapValues fun _ vec => vec.filter (· ≠ pid)
    edgeMetadata := g.edgeMetadata.filter fun e => !(e.src = pid ∨ e.dst = pid) }

inductive Op
  | addEdge (src dst : Pid)
  | addTypedEdge (edge : Edge)
  | addLockEdge (waiter holder : Pid) (lockAddr : ℕ)
  | removeEdge (src dst : Pid)
  | removeLockEdge (waiter : Pid) (lockAddr : ℕ)
  | clear (pid : Pid)

def step (g : WaitForGraph) : Op → WaitForGraph
  | .addEdge src dst => (g.addEdge src dst).2
  | .addTypedEdge edge => (g.addTypedEdge edge).2
  | .addLockEdge waiter holder lockAddr => (g.addLockEdge waiter holder lockAddr).2
  | .removeEdge src dst => g.removeEdge src dst
  | .removeLockEdge waiter lockAddr => g.removeLockEdge waiter lockAddr
  | .clear pid => g.clear pid

def run (g : WaitForGraph) (ops : List Op) : WaitForGraph := ops.foldl step g

variable (g : WaitForGraph)

@[simp] theorem succ_setSucc (p q : Pid) (l : List Pid) :
    (g.setSucc p l).succ q = if q = p then l else g.succ q := by
  by_cases h : q = p
  · subst h
    simp [succ, setSucc, AList.lookup_insert]
  · simp [succ, setSucc, AList.lookup_insert_ne h, h]

@[simp] theorem edgeMetadata_setSucc (p : Pid) (l : List Pid) :
    (g.setSucc p l).edgeMetadata = g.edgeMetadata := rfl

theorem mem_keys_of_succ_ne_nil {p : Pid} (h : g.succ p ≠ []) : p ∈ g.edges.keys := by
  cases hl : g.edges.lookup p with
  | none => simp [succ, hl] at h
  | some l => exact AList.mem_keys.mp (AList.lookup_isSome.mp (by simp [hl]))

theorem hasPath_eq_true_iff (src dst : Pid) :
    (g.hasPath src dst []).1 = true ↔ ReflTransGen g.Waits src dst :=
  search_eq_true_iff (fun _ h => g.mem_keys_of_succ_ne_nil h) (Nat.lt_succ_self _)

theorem waits_push (src dst : Pid) :
    (g.setSucc src (g.succ src ++ [dst])).Waits = withEdge g.Waits src dst := by
  funext x y
  by_cases hx : x = src
  · subst hx
    simp [Waits, Adj, withEdge]
  · simp [Waits, Adj, withEdge, hx]

theorem addEdge_of_path {src dst : Pid} (h : ReflTransGen g.Waits dst src) :
    g.addEdge src dst =
      (true, (g.setSucc src (g.succ src ++ [dst])).setSucc src ((g.succ src ++ [dst]).erase dst)) := by
  have found : ((g.setSucc src (g.succ src ++ [dst])).hasPath dst src []).1 = true := by
    rw [hasPath_eq_true_iff, waits_push, reflTransGen_withEdge_iff]
    exact h
  simp [addEdge, found]

theorem addEdge_of_no_path {src dst : Pid} (h : ¬ ReflTransGen g.Waits dst src) :
    g.addEdge src dst = (false, g.setSucc src (g.succ src ++ [dst])) := by
  have missed : ((g.setSucc src (g.succ src ++ [dst])).hasPath dst src []).1 = false := by
    rw [← Bool.not_eq_true, hasPath_eq_true_iff, waits_push, reflTransGen_withEdge_iff]
    exact h
  simp [addEdge, missed]

theorem addEdge_eq_true_iff (src dst : Pid) :
    (g.addEdge src dst).1 = true ↔ ReflTransGen g.Waits dst src := by
  by_cases h : ReflTransGen g.Waits dst src
  · simp [g.addEdge_of_path h, h]
  · simp [g.addEdge_of_no_path h, h]

-- test/test_wait_graph.cpp: after 1 → 2 and 2 → 3, the edge 3 → 1 closes a cycle
example : (((empty.addEdge 1 2).2.addEdge 2 3).2.addEdge 3 1).1 = true := by decide

@[simp] theorem edgeMetadata_addEdge (src dst : Pid) :
    (g.addEdge src dst).2.edgeMetadata = g.edgeMetadata := by
  by_cases h : ReflTransGen g.Waits dst src
  · simp [g.addEdge_of_path h]
  · simp [g.addEdge_of_no_path h]

theorem succ_addEdge_of_path (hg : Acyclic g.Waits) {src dst : Pid}
    (h : ReflTransGen g.Waits dst src) : (g.addEdge src dst).2.succ = g.succ := by
  have fresh : dst ∉ g.succ src := fun mem => hg src (TransGen.head' mem h)
  rw [g.addEdge_of_path h]
  funext q
  by_cases hq : q = src
  · subst hq
    simp [List.erase_append_right _ fresh]
  · simp [hq]

theorem acyclic_addEdge (hg : Acyclic g.Waits) (src dst : Pid) :
    Acyclic (g.addEdge src dst).2.Waits := by
  by_cases h : ReflTransGen g.Waits dst src
  · have same := g.succ_addEdge_of_path hg h
    simpa only [Waits, same] using hg
  · rw [g.addEdge_of_no_path h, waits_push]
    exact (acyclic_withEdge_iff hg).mpr h

theorem addEdge_setMetadata (m : List Edge) (src dst : Pid) :
    ({ g with edgeMetadata := m }).addEdge src dst =
      ((g.addEdge src dst).1, { (g.addEdge src dst).2 with edgeMetadata := m }) := by
  have hw : ({ g with edgeMetadata := m } : WaitForGraph).Waits = g.Waits := rfl
  by_cases h : ReflTransGen g.Waits dst src
  · rw [addEdge_of_path _ (hw ▸ h), g.addEdge_of_path h]
    rfl
  · rw [addEdge_of_no_path _ (hw ▸ h), g.addEdge_of_no_path h]
    rfl

theorem addTypedEdge_eq (e : Edge) :
    g.addTypedEdge e =
      ((g.addEdge e.src e.dst).1,
        { (g.addEdge e.src e.dst).2 with
          edgeMetadata := if (g.addEdge e.src e.dst).1 then g.edgeMetadata
            else g.edgeMetadata ++ [e] }) := by
  cases hc : (g.addEdge e.src e.dst).1 <;>
    simp [addTypedEdge, addEdge_setMetadata, hc]

theorem succ_removeEdge_subset (src dst q : Pid) :
    (g.removeEdge src dst).succ q ⊆ g.succ q := by
  cases hl : g.edges.lookup src with
  | none => simp [removeEdge, hl]
  | some vec =>
    simp only [removeEdge, hl]
    by_cases hq : q = src
    · subst hq
      split
      · simp [succ, AList.lookup_erase]
      · simp [succ, AList.lookup_insert, hl]
    · split <;> simp [succ, AList.lookup_erase_ne hq, AList.lookup_insert_ne hq]

theorem succ_removeLockEdge_subset (waiter : Pid) (lockAddr : ℕ) (q : Pid) :
    (g.removeLockEdge waiter lockAddr).succ q ⊆ g.succ q := by
  unfold removeLockEdge
  split
  · exact List.Subset.refl _
  · exact succ_removeEdge_subset _ _ _ q

theorem succ_clear_subset (pid q : Pid) : (g.clear pid).succ q ⊆ g.succ q := by
  by_cases hq : q = pid
  · subst hq
    simp [clear, succ, AList.lookup_erase]
  · intro x hx
    cases hl : g.edges.lookup q with
    | none => simp [clear, succ, AList.lookup_erase_ne hq, hl] at hx
    | some vec =>
      simp only [clear, succ, AList.lookup_mapValues, AList.lookup_erase_ne hq, hl,
        Option.map_some, Option.getD_some, List.mem_filter] at hx
      simpa [succ, hl] using hx.1

theorem step_cases (op : Op) :
    (∀ q, (g.step op).succ q ⊆ g.succ q) ∨
      ∃ src dst, (g.step op).succ = (g.addEdge src dst).2.succ := by
  cases op with
  | addEdge src dst => exact Or.inr ⟨src, dst, rfl⟩
  | addTypedEdge e => exact Or.inr ⟨e.src, e.dst, by rw [step, addTypedEdge_eq]; rfl⟩
  | addLockEdge waiter holder lockAddr =>
    exact Or.inr ⟨waiter, holder, by rw [step, addLockEdge, addTypedEdge_eq]; rfl⟩
  | removeEdge src dst => exact Or.inl (g.succ_removeEdge_subset src dst)
  | removeLockEdge waiter lockAddr => exact Or.inl (g.succ_removeLockEdge_subset waiter lockAddr)
  | clear pid => exact Or.inl (g.succ_clear_subset pid)

theorem acyclic_step (hg : Acyclic g.Waits) (op : Op) : Acyclic (g.step op).Waits := by
  rcases g.step_cases op with shrink | ⟨src, dst, same⟩
  · exact hg.mono fun x y h => shrink x h
  · simpa only [Waits, same] using g.acyclic_addEdge hg src dst

theorem acyclic_run (ops : List Op) (hg : Acyclic g.Waits) : Acyclic (g.run ops).Waits := by
  induction ops generalizing g with
  | nil => exact hg
  | cons op ops ih => exact ih (g.step op) (g.acyclic_step hg op)

theorem acyclic_empty : Acyclic empty.Waits := by
  intro x loop
  obtain ⟨y, first, -⟩ := TransGen.head'_iff.mp loop
  simp [Waits, Adj, empty, succ] at first

end WaitForGraph

open WaitForGraph in
/-- Every graph reached from the empty one by the public mutators is acyclic.
On it `add_edge` reports a cycle exactly when inserting its edge would close
one, and then every adjacency list and the metadata are as before the call;
the same holds of the typed overload, which `add_lock_edge` calls. -/
theorem waitForGraph_acyclic_exact_rollback (ops : List Op) :
    let g := empty.run ops
    Acyclic g.Waits ∧
      (∀ src dst, ((g.addEdge src dst).1 = true ↔ ¬ Acyclic (withEdge g.Waits src dst)) ∧
        ((g.addEdge src dst).1 = true →
          (g.addEdge src dst).2.succ = g.succ ∧
            (g.addEdge src dst).2.edgeMetadata = g.edgeMetadata)) ∧
      (∀ e : Edge, ((g.addTypedEdge e).1 = true ↔ ¬ Acyclic (withEdge g.Waits e.src e.dst)) ∧
        ((g.addTypedEdge e).1 = true →
          (g.addTypedEdge e).2.succ = g.succ ∧
            (g.addTypedEdge e).2.edgeMetadata = g.edgeMetadata)) := by
  intro g
  have hg : Acyclic g.Waits := acyclic_run _ ops acyclic_empty
  have reports (src dst : Pid) :
      (g.addEdge src dst).1 = true ↔ ¬ Acyclic (withEdge g.Waits src dst) := by
    rw [addEdge_eq_true_iff, acyclic_withEdge_iff hg, not_not]
  have restores (src dst : Pid) (h : (g.addEdge src dst).1 = true) :
      (g.addEdge src dst).2.succ = g.succ :=
    g.succ_addEdge_of_path hg ((g.addEdge_eq_true_iff src dst).mp h)
  refine ⟨hg, fun src dst => ⟨reports src dst, fun h => ⟨restores src dst h, by simp⟩⟩,
    fun e => ⟨?_, fun h => ?_⟩⟩
  · rw [addTypedEdge_eq]
    exact reports e.src e.dst
  · rw [addTypedEdge_eq] at h ⊢
    have cycle : (g.addEdge e.src e.dst).1 = true := h
    exact ⟨restores e.src e.dst cycle, by simp [cycle]⟩

def untypedBesideLock : WaitForGraph :=
  WaitForGraph.empty.run [.addEdge 1 2, .addLockEdge 1 2 0x1000, .removeLockEdge 1 0x1000]

def twoLocksOnOneHolder : WaitForGraph :=
  WaitForGraph.empty.run [.addLockEdge 1 2 0x1000, .addLockEdge 1 2 0x2000, .removeLockEdge 1 0x1000]

/-- Releasing one lock wait drops the other waits on the same holder: the
untyped edge is gone, with every path from 1 to 2, and so are the lock edge
for `0x2000` and its record. -/
theorem removeLockEdge_drops_other_waits :
    untypedBesideLock.succ 1 = [] ∧ (untypedBesideLock.hasPath 1 2 []).1 = false ∧
      untypedBesideLock.edgeMetadata = [] ∧ twoLocksOnOneHolder.succ 1 = [] ∧
      twoLocksOnOneHolder.edgeMetadata = [] := by
  decide

end Xinim.Lattice
