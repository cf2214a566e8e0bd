import Xinim.Sched.Scheduler
import Xinim.Svc.ServiceManager
import Xinim.Sync.LockManager

/-! The kernel objects that reach each other through globals: `sched::scheduler`,
`svc::service_manager`, `sync::lock_manager` and the capability mutexes
(kernel/schedule.cpp, kernel/service.cpp, kernel/capability_mutex.hpp,
kernel/lock_manager.hpp). The lock release of `ServiceManager::handle_crash`
is a call of `sync::lock_manager.handle_crash`.

`CapabilityMutex::lock` recurses through `wait_for_lock` after `block_on`
succeeds; in this cooperative scheduler nothing suspends the caller there, so
one call of `lock` models one level of that recursion and the level below is
the same thread's next `lock` step. -/

namespace Xinim.System
open Sched Svc Sync

structure Kernel where
  scheduler : Scheduler
  services : ServiceManager
  lockManager : LockManager
  mutexes : MutexId → CapabilityMutex

namespace Kernel

def init : Kernel := ⟨.init, .empty, .empty, fun _ => {}⟩

def setMutex (k : Kernel) (id : MutexId) (m : CapabilityMutex) : Kernel :=
  { k with mutexes := Function.update k.mutexes id m }

def wakeNextWaiter (k : Kernel) (id : MutexId) : Kernel :=
  match (k.mutexes id).waitQueue with
  | [] => k
  | (nextPid, _) :: rest =>
    { k.setMutex id { k.mutexes id with waitQueue := rest } with
      scheduler := k.scheduler.unblock nextPid }

/-- The fast path shared by `lock` and `try_lock` once the compare-exchange
from `0` has succeeded. -/
def acquire (k : Kernel) (id : MutexId) (pid : Pid) (token : CapabilityToken) : Kernel :=
  let k := k.setMutex id { k.mutexes id with owner := pid, ownerToken := token.tokenId, tainted := false }
  { k with lockManager := k.lockManager.registerLock pid id }

/-- `wait_for_lock` up to its recursive `lock`: `none` when `block_on` let
the caller wait, so that the call goes on with that `lock`. -/
def waitForLock (k : Kernel) (id : MutexId) (pid : Pid) (token : CapabilityToken)
    (ownerPid : Pid) : Option Bool × Kernel :=
  let queued := k.setMutex id
    { k.mutexes id with waitQueue := (k.mutexes id).waitQueue ++ [(pid, token.tokenId)] }
  let result := queued.scheduler.blockOn pid ownerPid
  let blocked := { queued with scheduler := result.2 }
  if result.1 then (none, blocked)
  else (some false, blocked.setMutex id ((blocked.mutexes id).removeFromWaitQueue pid))

def lock (k : Kernel) (id : MutexId) (pid : Pid) (token : CapabilityToken) (now : UInt64) :
    Option Bool × Kernel :=
  if !CapabilityMutex.verifyCapability pid token now then (some false, k)
  else if (k.mutexes id).owner = 0 then (some true, k.acquire id pid token)
  else k.waitForLock id pid token (k.mutexes id).owner

/-- `lock(pid, token)` followed down its recursion through `wait_for_lock` for
at most `depth` levels: `none` when it has not returned by then. -/
def lockCall : ℕ → Kernel → MutexId → Pid → CapabilityToken → UInt64 → Option Bool × Kernel
  | 0, k, _, _, _, _ => (none, k)
  | depth + 1, k, id, pid, token, now =>
    match k.lock id pid token now with
    | (some result, k') => (some result, k')
    | (none, k') => lockCall depth k' id pid token now

def tryLock (k : Kernel) (id : MutexId) (pid : Pid) (token : CapabilityToken) (now : UInt64) :
    Bool × Kernel :=
  if !CapabilityMutex.verifyCapability pid token now then (false, k)
  else if (k.mutexes id).owner = 0 then (true, k.acquire id pid token)
  else (false, k)

def unlock (k : Kernel) (id : MutexId) (pid : Pid) : Kernel :=
  if (k.mutexes id).owner ≠ pid then k
  else
    let k := k.setMutex id { k.mutexes id with owner := 0, ownerToken := 0 }
    { k with lockManager := k.lockManager.unregisterLock pid id }.wakeNextWaiter id

def forceUnlock (k : Kernel) (id : MutexId) (crashedPid : Pid) : Kernel :=
  if (k.mutexes id).owner = crashedPid then
    (k.setMutex id { k.mutexes id with owner := 0, tainted := true }).wakeNextWaiter id
  else k

/-- `LockManager::handle_crash`: force-unlock every registered mutex of the
pid, drop its entry, and return how many there were. -/
def lockManagerHandleCrash (k : Kernel) (crashedPid : Pid) : ℕ × Kernel :=
  match k.lockManager.heldLocks.lookup crashedPid with
  | none => (0, k)
  | some locks =>
    let released := locks.foldl (fun k id => k.forceUnlock id crashedPid) k
    (locks.length,
      { released with
        lockManager :=
          { released.lockManager with
            heldLocks := released.lockManager.heldLocks.erase crashedPid
            totalCrashesHandled := released.lockManager.totalCrashesHandled + 1
            totalLocksForceReleased :=
              released.lockManager.totalLocksForceReleased + locks.length.toUInt64 } })

def registerService (k : Kernel) (pid : Pid) (deps : List Pid) (limit : UInt32) : Kernel :=
  { k with
    services := k.services.registerService pid deps limit
    scheduler := k.scheduler.enqueue pid }

def serviceManagerHandleCrash (k : Kernel) (pid : Pid) : Bool × Kernel :=
  match k.services.services.lookup pid with
  | none => (false, k)
  | some info =>
    let stopped := { k with services := k.services.setInfo pid { info with running := false } }
    let released := (stopped.lockManagerHandleCrash pid).2
    match released.services.restart pid with
    | none => (false, released)
    | some restarted =>
      (true, { released with
        services := restarted.1
        scheduler := restarted.2.foldl .enqueue released.scheduler })

def crash (k : Kernel) (pid : Pid) : Kernel :=
  let result := k.serviceManagerHandleCrash pid
  if !result.1 && result.2.scheduler.current == pid then { result.2 with scheduler.current := -1 }
  else result.2

section Frame

variable (k : Kernel)

@[simp] theorem scheduler_setMutex (id : MutexId) (m : CapabilityMutex) :
    (k.setMutex id m).scheduler = k.scheduler := rfl

@[simp] theorem services_setMutex (id : MutexId) (m : CapabilityMutex) :
    (k.setMutex id m).services = k.services := rfl

@[simp] theorem services_wakeNextWaiter (id : MutexId) : (k.wakeNextWaiter id).services = k.services := by
  unfold wakeNextWaiter
  split <;> rfl

@[simp] theorem services_forceUnlock (id : MutexId) (pid : Pid) :
    (k.forceUnlock id pid).services = k.services := by
  unfold forceUnlock
  split <;> simp

@[simp] theorem services_unlock (id : MutexId) (pid : Pid) : (k.unlock id pid).services = k.services := by
  unfold unlock
  split <;> simp

theorem services_waitForLock (id : MutexId) (pid : Pid) (token : CapabilityToken) (owner : Pid) :
    (k.waitForLock id pid token owner).2.services = k.services := by
  unfold waitForLock
  dsimp only
  split <;> rfl

theorem services_lock (id : MutexId) (pid : Pid) (token : CapabilityToken) (now : UInt64) :
    (k.lock id pid token now).2.services = k.services := by
  unfold lock
  split_ifs
  · rfl
  · rfl
  · exact k.services_waitForLock id pid token _

theorem services_tryLock (id : MutexId) (pid : Pid) (token : CapabilityToken) (now : UInt64) :
    (k.tryLock id pid token now).2.services = k.services := by
  unfold tryLock
  split_ifs <;> rfl

@[simp] theorem services_lockManagerHandleCrash (pid : Pid) :
    (k.lockManagerHandleCrash pid).2.services = k.services := by
  unfold lockManagerHandleCrash
  split
  · rfl
  · apply List.foldlRecOn (motive := fun k' : Kernel => k'.services = k.services)
    · rfl
    · intro k' hk' id _
      rw [services_forceUnlock, hk']

@[simp] theorem lockManager_setMutex (id : MutexId) (m : CapabilityMutex) :
    (k.setMutex id m).lockManager = k.lockManager := rfl

theorem mutexes_setMutex (id : MutexId) (m : CapabilityMutex) :
    (k.setMutex id m).mutexes = Function.update k.mutexes id m := rfl

@[simp] theorem owner_setMutex (id m : MutexId) (c : CapabilityMutex) :
    ((k.setMutex id c).mutexes m).owner = if m = id then c.owner else (k.mutexes m).owner := by
  rw [mutexes_setMutex, Function.update_apply]
  split_ifs <;> rfl

@[simp] theorem lockManager_wakeNextWaiter (id : MutexId) :
    (k.wakeNextWaiter id).lockManager = k.lockManager := by
  unfold wakeNextWaiter
  split <;> rfl

/-- Waking a waiter pops the wait queue and touches no other field of a mutex. -/
@[simp] theorem owner_wakeNextWaiter (id m : MutexId) :
    ((k.wakeNextWaiter id).mutexes m).owner = (k.mutexes m).owner := by
  unfold wakeNextWaiter
  split
  · rfl
  · show (Function.update k.mutexes id _ m).owner = _
    rw [Function.update_apply]
    split_ifs with same
    · rw [same]
    · rfl

@[simp] theorem tainted_wakeNextWaiter (id m : MutexId) :
    ((k.wakeNextWaiter id).mutexes m).tainted = (k.mutexes m).tainted := by
  unfold wakeNextWaiter
  split
  · rfl
  · show (Function.update k.mutexes id _ m).tainted = _
    rw [Function.update_apply]
    split_ifs with same
    · rw [same]
    · rfl

@[simp] theorem lockManager_forceUnlock (id : MutexId) (pid : Pid) :
    (k.forceUnlock id pid).lockManager = k.lockManager := by
  unfold forceUnlock
  split <;> simp

theorem owner_forceUnlock (id : MutexId) (pid : Pid) (m : MutexId) :
    ((k.forceUnlock id pid).mutexes m).owner =
      if m = id ∧ (k.mutexes m).owner = pid then 0 else (k.mutexes m).owner := by
  unfold forceUnlock
  by_cases same : m = id
  · subst same
    simp only [true_and]
    split_ifs with owned
    · simp [mutexes_setMutex]
    · rfl
  · simp only [same, false_and, if_false]
    split_ifs
    · simp [mutexes_setMutex, Function.update_of_ne same]
    · rfl

theorem tainted_forceUnlock (id : MutexId) (pid : Pid) (m : MutexId) :
    ((k.forceUnlock id pid).mutexes m).tainted =
      if m = id ∧ (k.mutexes m).owner = pid then true else (k.mutexes m).tainted := by
  unfold forceUnlock
  by_cases same : m = id
  · subst same
    simp only [true_and]
    split_ifs with owned
    · simp [mutexes_setMutex]
    · rfl
  · simp only [same, false_and, if_false]
    split_ifs
    · simp [mutexes_setMutex, Function.update_of_ne same]
    · rfl

theorem wakeNextWaiter_setServices (services : ServiceManager) (id : MutexId) :
    { k with services := services }.wakeNextWaiter id = { k.wakeNextWaiter id with services := services } := by
  unfold wakeNextWaiter
  dsimp only
  cases (k.mutexes id).waitQueue <;> rfl

theorem forceUnlock_setServices (services : ServiceManager) (id : MutexId) (pid : Pid) :
    { k with services := services }.forceUnlock id pid = { k.forceUnlock id pid with services := services } := by
  unfold forceUnlock
  split_ifs
  · exact wakeNextWaiter_setServices (k.setMutex id _) services id
  · rfl

theorem lockManagerHandleCrash_setServices (services : ServiceManager) (pid : Pid) :
    ({ k with services := services }.lockManagerHandleCrash pid) =
      ((k.lockManagerHandleCrash pid).1, { (k.lockManagerHandleCrash pid).2 with services := services }) := by
  have released : ∀ (locks : List MutexId) (k' : Kernel),
      locks.foldl (fun k id => k.forceUnlock id pid) { k' with services := services } =
        { locks.foldl (fun k id => k.forceUnlock id pid) k' with services := services } := by
    intro locks
    induction locks with
    | nil => exact fun _ => rfl
    | cons id rest ih =>
      intro k'
      simp only [List.foldl_cons, forceUnlock_setServices, ih]
  unfold lockManagerHandleCrash
  dsimp only
  cases k.lockManager.heldLocks.lookup pid with
  | none => rfl
  | some locks => simp only [released]

end Frame

inductive Op
  | enqueue (pid : Pid)
  | preempt
  | yieldTo (target : Pid)
  | directHandoff (receiver : Pid)
  | blockOn (src dst : Pid)
  | unblock (pid : Pid)
  | crash (pid : Pid)
  | registerService (pid : Pid) (deps : List Pid) (limit : UInt32)
  | addDependency (pid dep : Pid)
  | removeDependency (pid dep : Pid)
  | setRestartLimit (pid : Pid) (limit : UInt32)
  | unregisterService (pid : Pid)
  | serviceManagerHandleCrash (pid : Pid)
  | lock (id : MutexId) (pid : Pid) (token : CapabilityToken) (now : UInt64)
  | tryLock (id : MutexId) (pid : Pid) (token : CapabilityToken) (now : UInt64)
  | unlock (id : MutexId) (pid : Pid)
  | forceUnlock (id : MutexId) (pid : Pid)
  | lockManagerHandleCrash (pid : Pid)

def step (k : Kernel) : Op → Kernel
  | .enqueue pid => { k with scheduler := k.scheduler.enqueue pid }
  | .preempt => { k with scheduler := k.scheduler.preempt.2 }
  | .yieldTo target => { k with scheduler := k.scheduler.yieldTo target }
  | .directHandoff receiver => { k with scheduler := k.scheduler.directHandoff receiver }
  | .blockOn src dst => { k with scheduler := (k.scheduler.blockOn src dst).2 }
  | .unblock pid => { k with scheduler := k.scheduler.unblock pid }
  | .crash pid => k.crash pid
  | .registerService pid deps limit => k.registerService pid deps limit
  | .addDependency pid dep => { k with services := k.services.addDependency pid dep }
  | .removeDependency pid dep => { k with services := k.services.removeDependency pid dep }
  | .setRestartLimit pid limit => { k with services := k.services.setRestartLimit pid limit }
  | .unregisterService pid => { k with services := k.services.unregisterService pid }
  | .serviceManagerHandleCrash pid => (k.serviceManagerHandleCrash pid).2
  | .lock id pid token now => (k.lock id pid token now).2
  | .tryLock id pid token now => (k.tryLock id pid token now).2
  | .unlock id pid => k.unlock id pid
  | .forceUnlock id pid => k.forceUnlock id pid
  | .lockManagerHandleCrash pid => (k.lockManagerHandleCrash pid).2

def run (k : Kernel) (ops : List Op) : Kernel := ops.foldl step k

section Recursion

open Relation Xinim.Graph

variable {k : Kernel} {id : MutexId} {pid : Pid} {token : CapabilityToken} {now : UInt64}

theorem graph_preempt (s : Scheduler) : s.preempt.2.graph = s.graph := by
  unfold Scheduler.preempt
  split <;> rfl

theorem blockOn_of_acyclic_edge {s : Scheduler} {src dst : Pid} (h : (s.graph.addEdge src dst).1 = false) :
    (s.blockOn src dst).1 = true ∧ (s.blockOn src dst).2.graph = (s.graph.addEdge src dst).2 := by
  rw [Scheduler.blockOn_of_no_cycle h]
  refine ⟨rfl, ?_⟩
  dsimp only
  split_ifs
  · exact graph_preempt _
  · rfl

theorem waitForLock_of_acyclic_edge {ownerPid : Pid} (h : (k.scheduler.graph.addEdge pid ownerPid).1 = false) :
    k.waitForLock id pid token ownerPid =
      (none, { k.setMutex id { k.mutexes id with waitQueue := (k.mutexes id).waitQueue ++ [(pid, token.tokenId)] } with
        scheduler := (k.scheduler.blockOn pid ownerPid).2 }) := by
  simp only [waitForLock, scheduler_setMutex, (blockOn_of_acyclic_edge h).1, if_true]

theorem lock_of_held (valid : CapabilityMutex.verifyCapability pid token now = true)
    (held : (k.mutexes id).owner ≠ 0)
    (noCycle : ¬ ReflTransGen k.scheduler.graph.Waits (k.mutexes id).owner pid) :
    (k.lock id pid token now).1 = none ∧
      ((k.lock id pid token now).2.mutexes id).owner = (k.mutexes id).owner ∧
      ((k.lock id pid token now).2.mutexes id).waitQueue = (k.mutexes id).waitQueue ++ [(pid, token.tokenId)] ∧
      (k.lock id pid token now).2.scheduler.graph.Waits = withEdge k.scheduler.graph.Waits pid (k.mutexes id).owner := by
  have added := k.scheduler.graph.addEdge_of_no_path noCycle
  have acyclicEdge : (k.scheduler.graph.addEdge pid (k.mutexes id).owner).1 = false := by rw [added]
  have waits : k.lock id pid token now = k.waitForLock id pid token (k.mutexes id).owner := by
    simp only [lock, valid, held, Bool.not_true, Bool.false_eq_true, if_false]
  rw [waits, waitForLock_of_acyclic_edge acyclicEdge]
  refine ⟨rfl, by simp [setMutex], by simp [setMutex], ?_⟩
  rw [(blockOn_of_acyclic_edge acyclicEdge).2, added, Lattice.WaitForGraph.waits_push]

theorem lockCall_of_none {depth : ℕ} (pending : (k.lock id pid token now).1 = none) :
    k.lockCall (depth + 1) id pid token now = (k.lock id pid token now).2.lockCall depth id pid token now := by
  rcases called : k.lock id pid token now with ⟨_ | _, k'⟩
  · simp only [lockCall, called]
  · rw [called] at pending
    cases pending

theorem lockCall_never_returns (valid : CapabilityMutex.verifyCapability pid token now = true)
    (held : (k.mutexes id).owner ≠ 0)
    (noCycle : ¬ ReflTransGen k.scheduler.graph.Waits (k.mutexes id).owner pid) (depth : ℕ) :
    (k.lockCall depth id pid token now).1 = none ∧
      ((k.lockCall depth id pid token now).2.mutexes id).waitQueue =
        (k.mutexes id).waitQueue ++ List.replicate depth (pid, token.tokenId) := by
  induction depth generalizing k with
  | zero => simp [lockCall]
  | succ depth ih =>
    obtain ⟨pending, owner, queue, graph⟩ := lock_of_held valid held noCycle
    have held' : ((k.lock id pid token now).2.mutexes id).owner ≠ 0 := by rw [owner]; exact held
    have noCycle' : ¬ ReflTransGen (k.lock id pid token now).2.scheduler.graph.Waits
        ((k.lock id pid token now).2.mutexes id).owner pid := by
      rw [owner, graph, reflTransGen_withEdge_iff]
      exact noCycle
    obtain ⟨none', queue'⟩ := ih held' noCycle'
    rw [lockCall_of_none pending]
    refine ⟨none', ?_⟩
    rw [queue', queue, List.append_assoc, List.singleton_append, List.replicate_succ]

end Recursion

end Kernel

def heldByOne : Kernel := (Kernel.init.lock 0 1 ⟨1, 1, 0, CapabilityToken.capLock⟩ 0).2

/-- Pid 2 locks the mutex that pid 1 holds and never releases: at every depth
the recursion of `lock` has not returned, and the wait queue holds one entry
of pid 2 per level, two of them from the second level on. -/
theorem lock_recursion_unbounded_while_held (depth : ℕ) :
    (heldByOne.lockCall depth 0 2 ⟨2, 2, 0, CapabilityToken.capLock⟩ 0).1 = none ∧
      ((heldByOne.lockCall depth 0 2 ⟨2, 2, 0, CapabilityToken.capLock⟩ 0).2.mutexes 0).waitQueue =
        List.replicate depth (2, 2) := by
  have noPath : ¬ Relation.ReflTransGen heldByOne.scheduler.graph.Waits (heldByOne.mutexes 0).owner 2 :=
    fun path => absurd ((Lattice.WaitForGraph.hasPath_eq_true_iff _ _ _).mpr path) (by decide)
  have valid : Sync.CapabilityMutex.verifyCapability 2 ⟨2, 2, 0, CapabilityToken.capLock⟩ 0 = true := by decide
  have recursion := Kernel.lockCall_never_returns valid (by decide) noPath depth
  have empty : (heldByOne.mutexes 0).waitQueue = [] := by decide
  rw [empty, List.nil_append] at recursion
  exact recursion

end Xinim.System
