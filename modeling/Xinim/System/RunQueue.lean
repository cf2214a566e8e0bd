import Xinim.System.Kernel

/-! The run-queue invariant `Scheduler.WellQueued` over the kernel. The
scheduler's own operations and every lock operation keep it. `enqueue`,
`register_service` and the restart of `handle_crash` keep it exactly for pids
that hold no place yet, and nothing on those paths checks that: a crashed
service that is still running is enqueued a second time. -/

namespace Xinim.System
open Sched Svc Sync

namespace Kernel

variable (k : Kernel)

theorem wellQueued_wakeNextWaiter (h : k.scheduler.WellQueued) (id : MutexId) :
    (k.wakeNextWaiter id).scheduler.WellQueued := by
  unfold wakeNextWaiter
  split
  · exact h
  · exact Scheduler.unblock_wellQueued h _

theorem wellQueued_forceUnlock (h : k.scheduler.WellQueued) (id : MutexId) (pid : Pid) :
    (k.forceUnlock id pid).scheduler.WellQueued := by
  unfold forceUnlock
  split_ifs
  · apply wellQueued_wakeNextWaiter
    exact h
  · exact h

theorem wellQueued_unlock (h : k.scheduler.WellQueued) (id : MutexId) (pid : Pid) :
    (k.unlock id pid).scheduler.WellQueued := by
  unfold unlock
  split_ifs
  · exact h
  · apply wellQueued_wakeNextWaiter
    exact h

theorem wellQueued_lock (h : k.scheduler.WellQueued) (id : MutexId) (pid : Pid)
    (token : CapabilityToken) (now : UInt64) : (k.lock id pid token now).2.scheduler.WellQueued := by
  unfold lock waitForLock
  split_ifs
  · exact h
  · exact h
  · have blocked := Scheduler.blockOn_wellQueued h pid (k.mutexes id).owner
    dsimp only
    split <;> exact blocked

theorem wellQueued_tryLock (h : k.scheduler.WellQueued) (id : MutexId) (pid : Pid)
    (token : CapabilityToken) (now : UInt64) : (k.tryLock id pid token now).2.scheduler.WellQueued := by
  unfold tryLock
  split_ifs <;> exact h

theorem wellQueued_lockManagerHandleCrash (h : k.scheduler.WellQueued) (pid : Pid) :
    (k.lockManagerHandleCrash pid).2.scheduler.WellQueued := by
  unfold lockManagerHandleCrash
  split
  · exact h
  · apply List.foldlRecOn (motive := fun k' : Kernel => k'.scheduler.WellQueued)
    · exact h
    · intro k' hk' id _
      exact wellQueued_forceUnlock k' hk' id pid

/-- The pids that `handle_crash(pid)` hands to `enqueue`, in order. -/
def crashQueue (pid : Pid) : List Pid :=
  match k.services.services.lookup pid with
  | none => []
  | some info => (((k.services.setInfo pid { info with running := false }).restart pid).map Prod.snd).getD []

theorem wellQueued_serviceManagerHandleCrash (h : k.scheduler.WellQueued) (pid : Pid)
    (fresh : (k.lockManagerHandleCrash pid).2.scheduler.FreshIn (k.crashQueue pid)) :
    (k.serviceManagerHandleCrash pid).2.scheduler.WellQueued := by
  unfold serviceManagerHandleCrash
  split
  · exact h
  · rename_i info hinfo
    have released := wellQueued_lockManagerHandleCrash k h pid
    dsimp only
    rw [lockManagerHandleCrash_setServices]
    split
    · exact released
    · rename_i restarted hr
      have queue : k.crashQueue pid = restarted.2 := by simp [crashQueue, hinfo, hr]
      exact Scheduler.enqueueAll_wellQueued released (queue ▸ fresh)

theorem wellQueued_crash (h : k.scheduler.WellQueued) (pid : Pid)
    (fresh : (k.lockManagerHandleCrash pid).2.scheduler.FreshIn (k.crashQueue pid)) :
    (k.crash pid).scheduler.WellQueued := by
  have handled := k.wellQueued_serviceManagerHandleCrash h pid fresh
  unfold crash
  dsimp only
  split_ifs
  · exact Scheduler.stop_wellQueued handled
  · exact handled

/-- The condition under which an operation keeps the run queue exclusive: what
it enqueues is fresh when it is enqueued. -/
def Admissible : Op → Prop
  | .enqueue pid => k.scheduler.Fresh pid
  | .registerService pid _ _ => k.scheduler.Fresh pid
  | .crash pid => (k.lockManagerHandleCrash pid).2.scheduler.FreshIn (k.crashQueue pid)
  | .serviceManagerHandleCrash pid =>
    (k.lockManagerHandleCrash pid).2.scheduler.FreshIn (k.crashQueue pid)
  | _ => True

def AdmissibleRun : Kernel → List Op → Prop
  | _, [] => True
  | k, op :: ops => k.Admissible op ∧ AdmissibleRun (k.step op) ops

instance (k : Kernel) : (op : Op) → Decidable (k.Admissible op)
  | .enqueue pid | .registerService pid _ _ => inferInstanceAs (Decidable (k.scheduler.Fresh pid))
  | .crash pid | .serviceManagerHandleCrash pid =>
    inferInstanceAs (Decidable ((k.lockManagerHandleCrash pid).2.scheduler.FreshIn (k.crashQueue pid)))
  | .preempt | .yieldTo _ | .directHandoff _ | .blockOn _ _ | .unblock _ | .addDependency _ _
  | .removeDependency _ _ | .setRestartLimit _ _ | .unregisterService _ | .lock _ _ _ _
  | .tryLock _ _ _ _ | .unlock _ _ | .forceUnlock _ _ | .lockManagerHandleCrash _ => isTrue trivial

instance decidableAdmissibleRun : (k : Kernel) → (ops : List Op) → Decidable (k.AdmissibleRun ops)
  | _, [] => isTrue trivial
  | k, op :: ops =>
    haveI := decidableAdmissibleRun (k.step op) ops
    inferInstanceAs (Decidable (k.Admissible op ∧ (k.step op).AdmissibleRun ops))

theorem wellQueued_step (h : k.scheduler.WellQueued) (op : Op) (hop : k.Admissible op) :
    (k.step op).scheduler.WellQueued := by
  cases op with
  | enqueue pid => exact Scheduler.enqueue_wellQueued h hop.1 hop.2.1 hop.2.2
  | preempt => exact Scheduler.preempt_wellQueued h.ready_nodup h.current_not_ready h.blocked_not_ready
  | yieldTo target => exact Scheduler.yieldTo_wellQueued h target
  | directHandoff receiver => exact Scheduler.directHandoff_wellQueued h receiver
  | blockOn src dst => exact Scheduler.blockOn_wellQueued h src dst
  | unblock pid => exact Scheduler.unblock_wellQueued h pid
  | crash pid => exact k.wellQueued_crash h pid hop
  | registerService pid deps limit => exact Scheduler.enqueue_wellQueued h hop.1 hop.2.1 hop.2.2
  | addDependency | removeDependency | setRestartLimit | unregisterService => exact h
  | serviceManagerHandleCrash pid => exact k.wellQueued_serviceManagerHandleCrash h pid hop
  | lock id pid token now => exact k.wellQueued_lock h id pid token now
  | tryLock id pid token now => exact k.wellQueued_tryLock h id pid token now
  | unlock id pid => exact k.wellQueued_unlock h id pid
  | forceUnlock id pid => exact k.wellQueued_forceUnlock h id pid
  | lockManagerHandleCrash pid => exact k.wellQueued_lockManagerHandleCrash h pid

theorem wellQueued_run (ops : List Op) (h : k.scheduler.WellQueued) (hrun : k.AdmissibleRun ops) :
    (k.run ops).scheduler.WellQueued := by
  induction ops generalizing k with
  | nil => exact h
  | cons op ops ih => exact ih (k.step op) (k.wellQueued_step h op hrun.1) hrun.2

end Kernel

/-- From the empty kernel, every interleaving of scheduler, service and lock
operations keeps each thread in at most one place among the CPU and the run
queue, and every blocked thread out of both, as long as whatever `enqueue`,
`register_service` and the restart of `handle_crash` enqueue is neither running,
queued nor blocked at that moment. -/
theorem fresh_enqueues_keep_run_queue_exclusive (ops : List Kernel.Op)
    (fresh : Kernel.init.AdmissibleRun ops) :
    ((Kernel.init.run ops).scheduler.running ++ (Kernel.init.run ops).scheduler.ready).Nodup ∧
      ∀ p ∈ (Kernel.init.run ops).scheduler.blocked,
        p ∉ (Kernel.init.run ops).scheduler.running ++ (Kernel.init.run ops).scheduler.ready := by
  have h := Kernel.init.wellQueued_run ops Scheduler.wellQueued_init fresh
  exact (Scheduler.wellQueued_iff _).mp h

/-- A service that ran off the queue and was then dropped by an empty
`preempt` is restarted into a free place. -/
theorem dropped_service_restarts_into_free_place :
    Kernel.init.AdmissibleRun [.registerService 1 [] 3, .preempt, .preempt, .crash 1] ∧
      ((Kernel.init.run [.registerService 1 [] 3, .preempt, .preempt, .crash 1]).scheduler.running ++
          (Kernel.init.run [.registerService 1 [] 3, .preempt, .preempt, .crash 1]).scheduler.ready).Nodup ∧
        ∀ p ∈ (Kernel.init.run [.registerService 1 [] 3, .preempt, .preempt, .crash 1]).scheduler.blocked,
          p ∉ (Kernel.init.run [.registerService 1 [] 3, .preempt, .preempt, .crash 1]).scheduler.running ++
            (Kernel.init.run [.registerService 1 [] 3, .preempt, .preempt, .crash 1]).scheduler.ready :=
  ⟨by decide, fresh_enqueues_keep_run_queue_exclusive _ (by decide)⟩

/-- The service manager restarts a crashed service that is still on the CPU:
`crash(1)` of the running service puts `1` on the run queue while `current_`
stays `1`. -/
theorem crash_of_running_service_queues_it_twice :
    (Kernel.init.run [.registerService 1 [] 3, .preempt, .crash 1]).scheduler.current = 1 ∧
      (Kernel.init.run [.registerService 1 [] 3, .preempt, .crash 1]).scheduler.ready = [1] := by
  decide

end Xinim.System
