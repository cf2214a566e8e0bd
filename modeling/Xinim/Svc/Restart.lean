import Xinim.Svc.ServiceManager

/-! The walk of `restart_tree` (kernel/service.cpp): a depth-first walk over
the reverse of the dependency relation that enters each registered pid at most
once. Whatever order the loop over `services_` takes, the walk started by
`handle_crash` restarts and enqueues exactly the registered services that
depend on the crashed one, through registered services, each once. -/

namespace Xinim.Svc
open Xinim.Graph Relation

namespace ServiceManager

/-- `o` is registered and lists `p` among its dependencies, so that
`restart_tree(p)` recurses into `o`. -/
def Dependent (m : ServiceManager) (p o : Pid) : Prop := o ∈ m.services ∧ p ∈ m.deps o

def restartedInfo (info : ServiceInfo) : ServiceInfo :=
  { info with running := true, contract.restarts := info.contract.restarts + 1 }

def restartStep (fuel : ℕ) (pid : Pid) (acc : ServiceManager × List Pid × List Pid) (other : Pid) :
    ServiceManager × List Pid × List Pid :=
  if pid ∈ acc.1.deps other then
    let (m', visited', queued) := restartTree fuel acc.1 other acc.2.1
    (m', visited', acc.2.2 ++ queued)
  else acc

variable (m : ServiceManager)

theorem mem_setInfo {p q : Pid} {i : ServiceInfo} : p ∈ (m.setInfo q i).services ↔ p = q ∨ p ∈ m.services :=
  AList.mem_insert _

theorem restartTree_enter (fuel : ℕ) {pid : Pid} (visited : List Pid) (reg : pid ∈ m.services)
    (fresh : pid ∉ visited) :
    restartTree (fuel + 1) m pid visited =
      m.services.keys.foldl (restartStep fuel pid) (m.setInfo pid (restartedInfo (m.info pid)), pid :: visited, [pid]) := by
  rw [restartTree, if_neg (not_not.mpr reg), if_neg fresh]
  rfl

theorem restartTree_skip (fuel : ℕ) {pid : Pid} (visited : List Pid) (skip : pid ∉ m.services ∨ pid ∈ visited) :
    restartTree (fuel + 1) m pid visited = (m, visited, []) := by
  rcases skip with unregistered | seen
  · rw [restartTree, if_pos unregistered]
  · by_cases reg : pid ∈ m.services
    · rw [restartTree, if_neg (not_not.mpr reg), if_pos seen]
    · rw [restartTree, if_pos reg]

theorem restartStep_eq (fuel : ℕ) (pid : Pid) (acc : ServiceManager × List Pid × List Pid) (other : Pid) :
    restartStep fuel pid acc other =
      if pid ∈ acc.1.deps other then
        ((restartTree fuel acc.1 other acc.2.1).1, (restartTree fuel acc.1 other acc.2.1).2.1,
          acc.2.2 ++ (restartTree fuel acc.1 other acc.2.1).2.2)
      else acc := by
  unfold restartStep
  split <;> rfl

/-- What a call of `restart_tree(pid, visited)` returns, against the manager
and visited list it was given: the pids it enqueues are new and pushed onto
`visited` in order, they are exactly the entries it restarted, and neither the
registered pids nor the dependency lists change. -/
structure Walked (visited : List Pid) (r : ServiceManager × List Pid × List Pid) : Prop where
  visited_eq : r.2.1 = r.2.2.reverse ++ visited
  nodup : r.2.2.Nodup
  fresh : ∀ x ∈ r.2.2, x ∉ visited
  info_eq : ∀ p, r.1.info p = if p ∈ r.2.2 then restartedInfo (m.info p) else m.info p
  mem_iff : ∀ p, p ∈ r.1.services ↔ p ∈ m.services
  deps_eq : r.1.deps = m.deps

namespace Walked

variable {m} {visited : List Pid} {r r' : ServiceManager × List Pid × List Pid}

theorem refl (visited : List Pid) : m.Walked visited (m, visited, []) :=
  ⟨by simp, List.nodup_nil, by simp, by simp, fun _ => Iff.rfl, rfl⟩

theorem enter {pid : Pid} (reg : pid ∈ m.services) (fresh : pid ∉ visited) :
    m.Walked visited (m.setInfo pid (restartedInfo (m.info pid)), pid :: visited, [pid]) := by
  refine ⟨rfl, List.nodup_singleton pid, by simpa using fresh, fun p => ?_, fun p => ?_, ?_⟩
  · by_cases hp : p = pid <;> simp [hp]
  · rw [mem_setInfo]
    constructor
    · rintro (rfl | mem)
      · exact reg
      · exact mem
    · exact Or.inr
  · exact m.deps_setInfo_same rfl

theorem visited_subset (h : m.Walked visited r) : visited ⊆ r.2.1 := by
  rw [h.visited_eq]
  exact List.subset_append_right _ _

theorem trans (h : m.Walked visited r) (h' : r.1.Walked r.2.1 r') :
    m.Walked visited (r'.1, r'.2.1, r.2.2 ++ r'.2.2) := by
  have apart : ∀ x ∈ r'.2.2, x ∉ r.2.2 := fun x mem seen =>
    h'.fresh x mem (by rw [h.visited_eq]; simp [seen])
  refine ⟨?_, ?_, ?_, fun p => ?_, fun p => (h'.mem_iff p).trans (h.mem_iff p), h'.deps_eq.trans h.deps_eq⟩
  · simp [h'.visited_eq, h.visited_eq]
  · exact List.nodup_append.mpr ⟨h.nodup, h'.nodup, fun x hx y hy same => apart y hy (same ▸ hx)⟩
  · intro x mem
    rcases List.mem_append.mp mem with old | new
    · exact h.fresh x old
    · exact fun seen => h'.fresh x new (h.visited_subset seen)
  · rw [h'.info_eq p, h.info_eq p]
    by_cases new : p ∈ r'.2.2
    · simp [new, apart p new]
    · by_cases old : p ∈ r.2.2 <;> simp [new, old]

theorem dependent_eq (h : m.Walked visited r) : r.1.Dependent = m.Dependent := by
  funext p o
  simp only [Dependent, h.mem_iff, h.deps_eq]

end Walked

theorem walked_restartTree :
    ∀ (fuel : ℕ) (m : ServiceManager) (pid : Pid) (visited : List Pid),
      m.Walked visited (restartTree fuel m pid visited)
  | 0, m, _, visited => Walked.refl visited
  | fuel + 1, m, pid, visited => by
    by_cases skip : pid ∉ m.services ∨ pid ∈ visited
    · rw [restartTree_skip m fuel visited skip]
      exact Walked.refl visited
    obtain ⟨reg, fresh⟩ := not_or.mp skip
    rw [restartTree_enter m fuel visited (not_not.mp reg) fresh]
    apply List.foldlRecOn (motive := fun acc => m.Walked visited acc)
    · exact Walked.enter (not_not.mp reg) fresh
    · intro acc walked other _
      rw [restartStep_eq]
      split
      · exact walked.trans (walked_restartTree fuel acc.1 other acc.2.1)
      · exact walked

theorem reaches_of_mem_restartTree :
    ∀ (fuel : ℕ) (m : ServiceManager) (pid : Pid) (visited : List Pid),
      ∀ x ∈ (restartTree fuel m pid visited).2.2, ReflTransGen m.Dependent pid x
  | 0, m, _, visited => by simp [restartTree]
  | fuel + 1, m, pid, visited => by
    by_cases skip : pid ∉ m.services ∨ pid ∈ visited
    · simp [restartTree_skip m fuel visited skip]
    obtain ⟨reg, fresh⟩ := not_or.mp skip
    rw [restartTree_enter m fuel visited (not_not.mp reg) fresh]
    refine (List.foldlRecOn (motive := fun acc => m.Walked visited acc ∧ ∀ x ∈ acc.2.2, ReflTransGen m.Dependent pid x)
      m.services.keys (restartStep fuel pid) ⟨Walked.enter (not_not.mp reg) fresh, fun x mem => List.mem_singleton.mp mem ▸ ReflTransGen.refl⟩ ?_).2
    rintro acc ⟨walked, reach⟩ other registered
    rw [restartStep_eq]
    split
    · rename_i depends
      refine ⟨walked.trans (walked_restartTree fuel acc.1 other acc.2.1), fun x mem => ?_⟩
      rcases List.mem_append.mp mem with old | new
      · exact reach x old
      · have edge : m.Dependent pid other :=
          ⟨AList.mem_keys.mpr registered, walked.deps_eq ▸ depends⟩
        have below := reaches_of_mem_restartTree fuel acc.1 other acc.2.1 x new
        rw [walked.dependent_eq] at below
        exact ReflTransGen.head edge below
    · exact ⟨walked, reach⟩

theorem visited_subset_foldl_restartStep (fuel : ℕ) (pid : Pid) (ks : List Pid)
    (acc : ServiceManager × List Pid × List Pid) : acc.2.1 ⊆ (ks.foldl (restartStep fuel pid) acc).2.1 := by
  apply List.foldlRecOn (motive := fun b : ServiceManager × List Pid × List Pid => acc.2.1 ⊆ b.2.1)
  · exact List.Subset.refl _
  · intro b sub other _
    rw [restartStep_eq]
    split
    · exact List.Subset.trans sub (walked_restartTree fuel b.1 other b.2.1).visited_subset
    · exact sub

def Closes (pid : Pid) (r : ServiceManager × List Pid × List Pid) : Prop :=
  (pid ∈ m.services → pid ∈ r.2.1) ∧ ∀ x ∈ r.2.2, ∀ o, m.Dependent x o → o ∈ r.2.1

/-- The state of the loop of `restart_tree(pid, visited)`: `pid` is entered,
and every pid enqueued below it has its dependents visited. -/
structure Entered (visited : List Pid) (pid : Pid) (acc : ServiceManager × List Pid × List Pid) : Prop where
  walked : m.Walked visited acc
  marked : pid :: visited ⊆ acc.2.1
  closed : ∀ x ∈ acc.2.2, x ≠ pid → ∀ o, m.Dependent x o → o ∈ acc.2.1

section Loop

variable {m} {dom : List Pid} {fuel : ℕ} {pid : Pid} {visited : List Pid}

theorem Entered.foldl (hdom : ∀ p ∈ m.services, p ∈ dom) (hlt : unvisited dom (pid :: visited) < fuel)
    (below : ∀ (m' : ServiceManager) (o : Pid) (v : List Pid), (∀ p ∈ m'.services, p ∈ dom) →
      unvisited dom v < fuel → m'.Closes o (restartTree fuel m' o v)) :
    ∀ (ks : List Pid) (acc : ServiceManager × List Pid × List Pid), m.Entered visited pid acc →
      m.Entered visited pid (ks.foldl (restartStep fuel pid) acc) ∧
        ∀ o ∈ ks, m.Dependent pid o → o ∈ (ks.foldl (restartStep fuel pid) acc).2.1
  | [], acc, entered => ⟨entered, by simp⟩
  | o :: rest, acc, entered => by
    have step : m.Entered visited pid (restartStep fuel pid acc o) ∧
        (m.Dependent pid o → o ∈ (restartStep fuel pid acc o).2.1) := by
      rw [restartStep_eq]
      split
      · rename_i depends
        have walked := walked_restartTree fuel acc.1 o acc.2.1
        have inDom : ∀ p ∈ acc.1.services, p ∈ dom := fun p mem => hdom p ((entered.walked.mem_iff p).mp mem)
        have fuelOk : unvisited dom acc.2.1 < fuel := lt_of_le_of_lt (unvisited_anti dom entered.marked) hlt
        obtain ⟨self, closed⟩ := below acc.1 o acc.2.1 inDom fuelOk
        rw [entered.walked.dependent_eq] at closed
        refine ⟨⟨entered.walked.trans walked, List.Subset.trans entered.marked walked.visited_subset, ?_⟩,
          fun dep => self ((entered.walked.mem_iff o).mpr dep.1)⟩
        intro x mem ne o' dep
        rcases List.mem_append.mp mem with old | new
        · exact walked.visited_subset (entered.closed x old ne o' dep)
        · exact closed x new o' dep
      · rename_i independent
        exact ⟨entered, fun dep => absurd (entered.walked.deps_eq ▸ dep.2) independent⟩
    obtain ⟨entered', later⟩ := Entered.foldl hdom hlt below rest _ step.1
    refine ⟨entered', fun o' mem dep => ?_⟩
    rcases List.mem_cons.mp mem with rfl | mem
    · exact visited_subset_foldl_restartStep fuel pid rest _ (step.2 dep)
    · exact later o' mem dep

end Loop

theorem closes_restartTree (dom : List Pid) :
    ∀ (fuel : ℕ) (m : ServiceManager) (pid : Pid) (visited : List Pid),
      (∀ p ∈ m.services, p ∈ dom) → unvisited dom visited < fuel → m.Closes pid (restartTree fuel m pid visited)
  | 0, _, _, _, _, hfuel => absurd hfuel (Nat.not_lt_zero _)
  | fuel + 1, m, pid, visited, hdom, hfuel => by
    by_cases skip : pid ∉ m.services ∨ pid ∈ visited
    · rw [restartTree_skip m fuel visited skip]
      refine ⟨fun reg => skip.resolve_left (not_not.mpr reg), by simp⟩
    obtain ⟨reg, fresh⟩ := not_or.mp skip
    have reg := not_not.mp reg
    have hlt : unvisited dom (pid :: visited) < fuel :=
      lt_of_lt_of_le (unvisited_cons_lt (hdom pid reg) fresh) (Nat.lt_succ_iff.mp hfuel)
    have start : m.Entered visited pid (m.setInfo pid (restartedInfo (m.info pid)), pid :: visited, [pid]) :=
      ⟨Walked.enter reg fresh, List.Subset.refl _, by simp⟩
    obtain ⟨entered, dependents⟩ :=
      Entered.foldl hdom hlt (closes_restartTree dom fuel) m.services.keys _ start
    rw [restartTree_enter m fuel visited reg fresh]
    refine ⟨fun _ => entered.marked List.mem_cons_self, fun x mem o dep => ?_⟩
    by_cases self : x = pid
    · exact dependents o (AList.mem_keys.mp dep.1) (self ▸ dep)
    · exact entered.closed x mem self o dep

theorem restart_spec (pid : Pid) (reg : pid ∈ m.services)
    (allowed : ¬ ((m.info pid).contract.policy.limit ≠ 0 ∧
      (m.info pid).contract.restarts ≥ (m.info pid).contract.policy.limit)) :
    ∃ r, m.restart pid = some r ∧ r.2.Nodup ∧ (∀ x, x ∈ r.2 ↔ ReflTransGen m.Dependent pid x) ∧
      ∀ p, r.1.info p = if p ∈ r.2 then restartedInfo (m.info p) else m.info p := by
  set walk := restartTree (m.services.keys.length + 1) m pid []
  have walked : m.Walked [] walk := walked_restartTree _ m pid []
  obtain ⟨self, closed⟩ : m.Closes pid walk :=
    closes_restartTree m.services.keys _ m pid [] (fun p mem => AList.mem_keys.mp mem)
      (lt_of_le_of_lt (unvisited_nil_le _) (Nat.lt_succ_self _))
  have visited : ∀ x, x ∈ walk.2.1 ↔ x ∈ walk.2.2 := by simp [walked.visited_eq]
  have mem_iff : ∀ x, x ∈ walk.2.2 ↔ ReflTransGen m.Dependent pid x := by
    intro x
    refine ⟨reaches_of_mem_restartTree _ m pid [] x, fun reach => ?_⟩
    induction reach with
    | refl => exact (visited pid).mp (self reg)
    | tail _ step ih => exact (visited _).mp (closed _ ih _ step)
  refine ⟨(walk.1, walk.2.2), ?_, walked.nodup, mem_iff, walked.info_eq⟩
  simp only [restart, if_neg allowed]
  rfl

end ServiceManager

end Xinim.Svc
