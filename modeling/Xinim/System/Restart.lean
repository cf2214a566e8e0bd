import Xinim.Svc.Restart
import Xinim.System.RunQueue

/-! What `ServiceManager::handle_crash` does to the service table and to the
run queue (kernel/service.cpp). It restarts, and hands to `enqueue`, exactly
the registered services that depend on the crashed one, each once. The order
is the walk's pre-order over `services_`: a service comes after the one the
walk reached it from, not after every service it depends on. -/

namespace Xinim.System
open Sched Svc Relation

theorem ready_foldl_enqueue (l : List Pid) : ∀ s : Scheduler, (l.foldl Scheduler.enqueue s).ready = s.ready ++ l := by
  induction l with
  | nil => simp
  | cons pid rest ih =>
    intro s
    rw [List.foldl_cons, ih]
    simp [Scheduler.enqueue]

namespace Kernel

variable (k : Kernel)

/-- `handle_crash(pid)` for a registered pid whose restart limit is not used
up returns true, appends the walk's pids to the run queue, and restarts exactly
the registered services that depend on `pid` through registered services, each
once; every other entry is left as it was. -/
theorem serviceManagerHandleCrash_spec {pid : Pid} {info : ServiceInfo}
    (found : k.services.services.lookup pid = some info)
    (allowed : ¬ (info.contract.policy.limit ≠ 0 ∧ info.contract.restarts ≥ info.contract.policy.limit)) :
    (k.serviceManagerHandleCrash pid).1 = true ∧
      (k.serviceManagerHandleCrash pid).2.scheduler.ready =
        (k.lockManagerHandleCrash pid).2.scheduler.ready ++ k.crashQueue pid ∧
      (k.crashQueue pid).Nodup ∧ (∀ x, x ∈ k.crashQueue pid ↔ ReflTransGen k.services.Dependent pid x) ∧
      ∀ p, (k.serviceManagerHandleCrash pid).2.services.info p =
        if p ∈ k.crashQueue pid then ServiceManager.restartedInfo (k.services.info p) else k.services.info p := by
  set stopped := k.services.setInfo pid { info with running := false }
  have reg : pid ∈ k.services.services := AList.lookup_isSome.mp (by simp [found])
  have own : k.services.info pid = info := by simp [ServiceManager.info, found]
  have stoppedDeps : stopped.deps = k.services.deps :=
    ServiceManager.deps_setInfo_same k.services
      (by simp [ServiceManager.deps, own] : ({ info with running := false } : ServiceInfo).deps = k.services.deps pid)
  have stoppedMem : ∀ o, o ∈ stopped.services ↔ o ∈ k.services.services := fun o => by
    rw [ServiceManager.mem_setInfo]
    exact ⟨fun h => h.elim (· ▸ reg) id, Or.inr⟩
  have dependent : stopped.Dependent = k.services.Dependent := by
    funext p o
    simp only [ServiceManager.Dependent, stoppedMem, stoppedDeps]
  have stoppedInfo : stopped.info pid = { info with running := false } := by simp [stopped]
  obtain ⟨r, hr, nodup, mem_iff, info_eq⟩ :=
    stopped.restart_spec pid ((stoppedMem pid).mpr reg) (by rwa [stoppedInfo])
  have queue : k.crashQueue pid = r.2 := by
    simp only [crashQueue, found]
    show (Option.map Prod.snd (stopped.restart pid)).getD [] = r.2
    rw [hr]
    rfl
  have handled : k.serviceManagerHandleCrash pid = (true, { (k.lockManagerHandleCrash pid).2 with
      services := r.1
      scheduler := r.2.foldl .enqueue (k.lockManagerHandleCrash pid).2.scheduler }) := by
    unfold serviceManagerHandleCrash
    simp only [found]
    rw [lockManagerHandleCrash_setServices]
    simp only [stopped] at hr
    simp only [hr]
  rw [handled, queue]
  refine ⟨rfl, ready_foldl_enqueue _ _, nodup, fun x => dependent ▸ mem_iff x, fun p => ?_⟩
  rw [info_eq p]
  by_cases self : p = pid
  · subst self
    have restarted : p ∈ r.2 := (mem_iff p).mpr ReflTransGen.refl
    simp [stopped, restarted, own, ServiceManager.restartedInfo]
  · simp [stopped, self]

end Kernel

/-- Service 1, service 2 depending on 1, and service 3 depending on 1 and 2,
registered in that order, as in the test of `restart_tree`. -/
def diamond : Kernel :=
  Kernel.init.run [.registerService 1 [] 3, .registerService 2 [1] 3, .registerService 3 [1, 2] 3]

theorem diamond_crash_restarts_dependents :
    ∃ info, diamond.services.services.lookup 1 = some info ∧
      ¬ (info.contract.policy.limit ≠ 0 ∧ info.contract.restarts ≥ info.contract.policy.limit) ∧
      (diamond.serviceManagerHandleCrash 1).1 = true ∧
      (diamond.serviceManagerHandleCrash 1).2.scheduler.ready =
        (diamond.lockManagerHandleCrash 1).2.scheduler.ready ++ diamond.crashQueue 1 ∧
      (diamond.crashQueue 1).Nodup ∧ (∀ x, x ∈ diamond.crashQueue 1 ↔ ReflTransGen diamond.services.Dependent 1 x) ∧
      ∀ p, (diamond.serviceManagerHandleCrash 1).2.services.info p =
        if p ∈ diamond.crashQueue 1 then ServiceManager.restartedInfo (diamond.services.info p)
        else diamond.services.info p := by
  obtain ⟨info, found⟩ : ∃ info, diamond.services.services.lookup 1 = some info := ⟨_, rfl⟩
  have limits : (diamond.services.services.lookup 1).map (fun info =>
      decide (info.contract.policy.limit ≠ 0 ∧ info.contract.restarts ≥ info.contract.policy.limit)) = some false := by
    decide
  rw [found, Option.map_some, Option.some_inj, decide_eq_false_iff_not] at limits
  exact ⟨info, found, limits, diamond.serviceManagerHandleCrash_spec found limits⟩

/-- `handle_crash(1)` on the diamond returns true and enqueues 1, 3, 2: the
walk from 1 meets 3 before 2 in `services_`, so service 3 is enqueued before
service 2, which it depends on. -/
theorem diamond_restart_enqueues_dependent_first :
    (diamond.serviceManagerHandleCrash 1).1 = true ∧ diamond.crashQueue 1 = [1, 3, 2] ∧
      (diamond.serviceManagerHandleCrash 1).2.scheduler.ready = [1, 2, 3, 1, 3, 2] ∧
      (2 : Pid) ∈ diamond.services.deps 3 := by
  decide

def limitedDependent : Kernel :=
  Kernel.init.run [.registerService 1 [] 0, .registerService 2 [1] 1]

def crashedTwice : Kernel :=
  limitedDependent.run [.serviceManagerHandleCrash 1, .serviceManagerHandleCrash 1]

/-- Two crashes of service 1 restart service 2 twice, past its limit of one:
each `handle_crash(1)` checks only the limit of service 1, which is 0
(unlimited). -/
theorem dependent_restarted_past_its_limit :
    (2 : Pid) ∈ crashedTwice.services.services ∧ (crashedTwice.services.info 2).contract.policy.limit = 1 ∧
      (crashedTwice.services.info 2).contract.restarts = 2 := by
  decide

end Xinim.System
