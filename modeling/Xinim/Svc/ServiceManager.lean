import Xinim.Core
import Xinim.Data.AList
import Xinim.Graph.Acyclic
import Xinim.Graph.Search

/-! `svc::ServiceManager` (kernel/service.cpp): registered services, each with
the services it depends on and a liveness contract. `has_path` is the search
of `Graph.search` over the dependency lists. What a method does to the global
scheduler is the list of pids it enqueues, returned in call order; the kernel
model in `System` applies them. Persistence (`save`, `load`) is not modelled:
the manager starts empty, as `load` leaves it when no file exists. -/

namespace Xinim.Svc
open Xinim.Graph Relation

structure RestartPolicy where
  limit : UInt32 := 3
  deriving DecidableEq, Repr

structure LivenessContract where
  id : UInt64 := 0
  policy : RestartPolicy := {}
  restarts : UInt32 := 0
  deriving DecidableEq, Repr

structure ServiceInfo where
  running : Bool := false
  deps : List Pid := []
  contract : LivenessContract := {}
  deriving DecidableEq, Repr

structure ServiceManager where
  services : AList (fun _ : Pid => ServiceInfo)
  nextContractId : UInt64

namespace ServiceManager

def empty : ServiceManager := ⟨∅, 1⟩

/-- `services_[pid]`, a default entry when the pid is not registered. -/
def info (m : ServiceManager) (pid : Pid) : ServiceInfo := (m.services.lookup pid).getD {}

def setInfo (m : ServiceManager) (pid : Pid) (info : ServiceInfo) : ServiceManager :=
  { m with services := m.services.insert pid info }

def deps (m : ServiceManager) (pid : Pid) : List Pid := (m.info pid).deps

def Depends (m : ServiceManager) : Pid → Pid → Prop := Adj m.deps

def hasPath (m : ServiceManager) (start target : Pid) (visited : List Pid) : Bool × List Pid :=
  search m.deps target (m.services.keys.length + 1) start visited

/-- One pass of the loop of `register_service` and the body of `add_dependency`:
append `dep` to `pid`'s list unless `dep` already reaches `pid`. -/
def addDep (m : ServiceManager) (pid dep : Pid) : ServiceManager :=
  if (m.hasPath dep pid []).1 then m
  else m.setInfo pid { m.info pid with deps := m.deps pid ++ [dep] }

/-- The part of `register_service` before its dependency loop: `services_[pid]`
is created if missing, gets a contract id the first time, and takes `limit`. -/
def createService (m : ServiceManager) (pid : Pid) (limit : UInt32) : ServiceManager :=
  let info := m.info pid
  let fresh := info.contract.id = 0
  { services := m.services.insert pid
      { info with
        contract.id := if fresh then m.nextContractId else info.contract.id
        contract.policy.limit := limit }
    nextContractId := if fresh then m.nextContractId + 1 else m.nextContractId }

def registerService (m : ServiceManager) (pid : Pid) (deps : List Pid) (limit : UInt32) :
    ServiceManager :=
  let linked := deps.foldl (fun m dep => m.addDep pid dep) (m.createService pid limit)
  linked.setInfo pid { linked.info pid with running := true }

def addDependency (m : ServiceManager) (pid dep : Pid) : ServiceManager :=
  if pid ∈ m.services then m.addDep pid dep else m

def removeDependency (m : ServiceManager) (pid dep : Pid) : ServiceManager :=
  if pid ∈ m.services then m.setInfo pid { m.info pid with deps := (m.deps pid).filter (· ≠ dep) }
  else m

def setRestartLimit (m : ServiceManager) (pid : Pid) (limit : UInt32) : ServiceManager :=
  if pid ∈ m.services then m.setInfo pid { m.info pid with contract.policy.limit := limit } else m

def unregisterService (m : ServiceManager) (pid : Pid) : ServiceManager :=
  if pid ∈ m.services then
    { m with services := (m.services.erase pid).mapValues fun _ info =>
        { info with deps := info.deps.filter (· ≠ pid) } }
  else m

/-- `restart_tree(pid, visited)`: the manager, the visited list and the pids
enqueued, in order. Each level enters a registered pid not yet visited, so
fuel above the number of registered pids is never exhausted. -/
def restartTree : ℕ → ServiceManager → Pid → List Pid → ServiceManager × List Pid × List Pid
  | 0, m, _, visited => (m, visited, [])
  | fuel + 1, m, pid, visited =>
    if pid ∉ m.services then (m, visited, [])
    else if pid ∈ visited then (m, visited, [])
    else
      let info := m.info pid
      let restarted := m.setInfo pid
        { info with running := true, contract.restarts := info.contract.restarts + 1 }
      -- the loop walks the keys of `services_`; restarting never adds or removes one
      m.services.keys.foldl
        (fun (acc : ServiceManager × List Pid × List Pid) other =>
          if pid ∈ acc.1.deps other then
            let (m', visited', queued) := restartTree fuel acc.1 other acc.2.1
            (m', visited', acc.2.2 ++ queued)
          else acc)
        (restarted, pid :: visited, [pid])

/-- The tail of `handle_crash`, after the service is marked stopped and its
locks released: `none` when the restart limit is used up, otherwise the
restarted table and the pids `restart_tree` enqueued. -/
def restart (m : ServiceManager) (pid : Pid) : Option (ServiceManager × List Pid) :=
  let contract := (m.info pid).contract
  if contract.policy.limit ≠ 0 ∧ contract.restarts ≥ contract.policy.limit then none
  else
    let restarted := m.restartTree (m.services.keys.length + 1) pid []
    some (restarted.1, restarted.2.2)

variable (m : ServiceManager)

@[simp] theorem info_setInfo (p q : Pid) (i : ServiceInfo) :
    (m.setInfo p i).info q = if q = p then i else m.info q := by
  by_cases h : q = p
  · subst h
    simp [info, setInfo, AList.lookup_insert]
  · simp [info, setInfo, AList.lookup_insert_ne h, h]

theorem deps_setInfo (p : Pid) (i : ServiceInfo) :
    (m.setInfo p i).deps = fun q => if q = p then i.deps else m.deps q := by
  funext q
  by_cases h : q = p <;> simp [deps, h]

theorem deps_setInfo_same {p : Pid} {i : ServiceInfo} (h : i.deps = m.deps p) :
    (m.setInfo p i).deps = m.deps := by
  rw [deps_setInfo]
  funext q
  by_cases hq : q = p
  · simp [hq, h]
  · simp [hq]

@[simp] theorem deps_setInfo_running (p : Pid) (r : Bool) :
    (m.setInfo p { m.info p with running := r }).deps = m.deps :=
  m.deps_setInfo_same rfl

theorem mem_keys_of_deps_ne_nil {p : Pid} (h : m.deps p ≠ []) : p ∈ m.services.keys := by
  cases hl : m.services.lookup p with
  | none => simp [deps, info, hl] at h
  | some i => exact AList.mem_keys.mp (AList.lookup_isSome.mp (by simp [hl]))

theorem hasPath_eq_true_iff (start target : Pid) :
    (m.hasPath start target []).1 = true ↔ ReflTransGen m.Depends start target :=
  search_eq_true_iff (fun _ h => m.mem_keys_of_deps_ne_nil h) (Nat.lt_succ_self _)

theorem addDep_cases (pid dep : Pid) :
    m.addDep pid dep = m ∨
      (¬ ReflTransGen m.Depends dep pid ∧ (m.addDep pid dep).Depends = withEdge m.Depends pid dep) := by
  unfold addDep
  split
  · exact Or.inl rfl
  · rename_i hpath
    refine Or.inr ⟨fun h => hpath ((m.hasPath_eq_true_iff dep pid).mpr h), ?_⟩
    funext x y
    by_cases hx : x = pid
    · subst hx
      simp [Depends, Adj, withEdge, deps_setInfo]
    · simp [Depends, Adj, withEdge, deps_setInfo, hx]

theorem acyclic_addDep (h : Acyclic m.Depends) (pid dep : Pid) : Acyclic (m.addDep pid dep).Depends := by
  rcases m.addDep_cases pid dep with same | ⟨noPath, edge⟩
  · rwa [same]
  · rw [edge]
    exact (acyclic_withEdge_iff h).mpr noPath

theorem deps_createService (pid : Pid) (limit : UInt32) : (m.createService pid limit).deps = m.deps := by
  funext q
  by_cases hq : q = pid
  · subst hq
    simp [createService, deps, info, AList.lookup_insert]
  · simp [createService, deps, info, AList.lookup_insert_ne hq]

theorem acyclic_foldl_addDep (pid : Pid) (dl : List Pid) {m' : ServiceManager}
    (h : Acyclic m'.Depends) : Acyclic (dl.foldl (fun m dep => m.addDep pid dep) m').Depends := by
  induction dl generalizing m' with
  | nil => exact h
  | cons dep rest ih => exact ih (m'.acyclic_addDep h pid dep)

theorem acyclic_registerService (h : Acyclic m.Depends) (pid : Pid) (deps : List Pid)
    (limit : UInt32) : Acyclic (m.registerService pid deps limit).Depends := by
  have created : Acyclic (m.createService pid limit).Depends := by
    simpa only [Depends, deps_createService] using h
  have linked := acyclic_foldl_addDep pid deps created
  simpa only [registerService, Depends, deps_setInfo_running] using linked

theorem acyclic_addDependency (h : Acyclic m.Depends) (pid dep : Pid) :
    Acyclic (m.addDependency pid dep).Depends := by
  unfold addDependency
  split
  · exact m.acyclic_addDep h pid dep
  · exact h

theorem deps_removeDependency_subset (pid dep q : Pid) :
    (m.removeDependency pid dep).deps q ⊆ m.deps q := by
  unfold removeDependency
  split
  · by_cases hq : q = pid
    · simp only [deps_setInfo, hq, if_true]
      exact List.filter_subset_self _
    · simp only [deps_setInfo, hq, if_false]
      exact List.Subset.refl _
  · exact List.Subset.refl _

theorem deps_setRestartLimit (pid : Pid) (limit : UInt32) :
    (m.setRestartLimit pid limit).deps = m.deps := by
  unfold setRestartLimit
  split
  · exact m.deps_setInfo_same rfl
  · rfl

theorem deps_unregisterService_subset (pid q : Pid) :
    (m.unregisterService pid).deps q ⊆ m.deps q := by
  unfold unregisterService
  split
  · by_cases hq : q = pid
    · subst hq
      simp [deps, info, AList.lookup_erase]
    · cases hl : m.services.lookup q with
      | none => simp [deps, info, AList.lookup_erase_ne hq, hl]
      | some i =>
        simp only [deps, info, AList.lookup_mapValues, AList.lookup_erase_ne hq, hl,
          Option.map_some, Option.getD_some]
        exact List.filter_subset_self _
  · exact List.Subset.refl _

theorem deps_restartTree :
    ∀ (fuel : ℕ) (m : ServiceManager) (pid : Pid) (visited : List Pid),
      (restartTree fuel m pid visited).1.deps = m.deps
  | 0, _, _, _ => rfl
  | fuel + 1, m, pid, visited => by
    by_cases hreg : pid ∉ m.services
    · simp [restartTree, hreg]
    by_cases hvis : pid ∈ visited
    · simp [restartTree, hreg, hvis]
    simp only [restartTree, hreg, hvis, if_false]
    apply List.foldlRecOn (motive := fun acc : ServiceManager × List Pid × List Pid => acc.1.deps = m.deps)
    · exact m.deps_setInfo_same rfl
    · intro acc hacc other _
      split
      · rw [deps_restartTree fuel acc.1 other acc.2.1, hacc]
      · exact hacc

theorem deps_restart {pid : Pid} {r : ServiceManager × List Pid} (h : m.restart pid = some r) :
    r.1.deps = m.deps := by
  unfold restart at h
  dsimp only at h
  split_ifs at h
  cases h
  exact deps_restartTree _ m pid []

end ServiceManager

end Xinim.Svc
