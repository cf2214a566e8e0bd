import Xinim.System.Kernel

/-! The dependency relation of the service manager stays acyclic under every
kernel operation: `register_service`, `add_dependency` and each dependency
they add pass the reachability test of `has_path`, the other operations only
shrink the relation or leave it alone. -/

namespace Xinim.System
open Xinim.Graph Sched Svc Sync

namespace Kernel

variable (k : Kernel)

theorem deps_serviceManagerHandleCrash (pid : Pid) :
    (k.serviceManagerHandleCrash pid).2.services.deps = k.services.deps := by
  unfold serviceManagerHandleCrash
  split
  · rfl
  · rename_i info hinfo
    have stopped : (k.services.setInfo pid { info with running := false }).deps = k.services.deps := by
      apply ServiceManager.deps_setInfo_same
      simp [ServiceManager.deps, ServiceManager.info, hinfo]
    dsimp only
    split
    · simpa using stopped
    · rename_i r hr
      rw [ServiceManager.deps_restart _ hr]
      simpa using stopped

theorem deps_crash (pid : Pid) : (k.crash pid).services.deps = k.services.deps := by
  unfold crash
  dsimp only
  split <;> exact k.deps_serviceManagerHandleCrash pid

theorem acyclic_step (h : Acyclic k.services.Depends) (op : Op) :
    Acyclic (k.step op).services.Depends := by
  have keep : ∀ k' : Kernel, k'.services.deps = k.services.deps → Acyclic k'.services.Depends := by
    intro k' same
    simpa only [ServiceManager.Depends, same] using h
  cases op with
  | enqueue | preempt | yieldTo | directHandoff | blockOn | unblock => exact h
  | crash pid => exact keep _ (k.deps_crash pid)
  | registerService pid deps limit => exact k.services.acyclic_registerService h pid deps limit
  | addDependency pid dep => exact k.services.acyclic_addDependency h pid dep
  | removeDependency pid dep =>
    exact h.mono fun x y hxy => k.services.deps_removeDependency_subset pid dep x hxy
  | setRestartLimit pid limit => exact keep _ (k.services.deps_setRestartLimit pid limit)
  | unregisterService pid =>
    exact h.mono fun x y hxy => k.services.deps_unregisterService_subset pid x hxy
  | serviceManagerHandleCrash pid => exact keep _ (k.deps_serviceManagerHandleCrash pid)
  | lock id pid token now => exact keep _ (by rw [step, services_lock])
  | tryLock id pid token now => exact keep _ (by rw [step, services_tryLock])
  | unlock id pid => exact keep _ (by simp [step])
  | forceUnlock id pid => exact keep _ (by simp [step])
  | lockManagerHandleCrash pid => exact keep _ (by simp [step])

theorem acyclic_run (ops : List Op) (h : Acyclic k.services.Depends) :
    Acyclic (k.run ops).services.Depends := by
  induction ops generalizing k with
  | nil => exact h
  | cons op ops ih => exact ih (k.step op) (k.acyclic_step h op)

theorem acyclic_init : Acyclic init.services.Depends := by
  intro x loop
  obtain ⟨y, first, -⟩ := Relation.TransGen.head'_iff.mp loop
  simp [init, ServiceManager.empty, ServiceManager.Depends, Adj, ServiceManager.deps,
    ServiceManager.info] at first

end Kernel

/-- From the empty manager, whatever the interleaving of service, scheduler
and lock operations, no service depends on itself, directly or through others. -/
theorem service_dependencies_acyclic (ops : List Kernel.Op) :
    Acyclic (Kernel.init.run ops).services.Depends ∧
      ∀ p, p ∉ (Kernel.init.run ops).services.deps p := by
  have h := Kernel.init.acyclic_run ops Kernel.acyclic_init
  exact ⟨h, fun p hp => h.irrefl p hp⟩

end Xinim.System
