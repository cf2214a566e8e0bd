import Xinim.System.Kernel

/-! The registry of `sync::lock_manager` against the owners of the mutexes
(kernel/lock_manager.hpp, kernel/capability_mutex.hpp). `lock`, `try_lock`,
`unlock`, both `handle_crash` and every scheduler and service operation keep
`m ∈ get_locks(p)` exactly when `p` owns `m`. A direct `force_unlock` clears the
owner and leaves the entry, and a `lock` by pid `0` registers a mutex that
stays unlocked. -/

namespace Xinim.System
open Sched Svc Sync

namespace Kernel

/-- Every pid other than `0` is registered for exactly the mutexes it owns,
pid `0` for none, and no mutex twice. -/
structure RegistryExact (k : Kernel) : Prop where
  exact : ∀ p, p ≠ 0 → ∀ m, m ∈ k.lockManager.getLocks p ↔ (k.mutexes m).owner = p
  zero_empty : k.lockManager.getLocks 0 = []
  nodup : ∀ p, (k.lockManager.getLocks p).Nodup

variable {k : Kernel}

theorem RegistryExact.congr {k' : Kernel} (h : k.RegistryExact)
    (locks : ∀ p, k'.lockManager.getLocks p = k.lockManager.getLocks p)
    (owners : ∀ m, (k'.mutexes m).owner = (k.mutexes m).owner) : k'.RegistryExact where
  exact p hp m := by
    rw [locks, owners]
    exact h.exact p hp m
  zero_empty := by
    rw [locks]
    exact h.zero_empty
  nodup p := by
    rw [locks]
    exact h.nodup p

theorem RegistryExact.of_eq {k' : Kernel} (h : k.RegistryExact) (locks : k'.lockManager = k.lockManager)
    (mutexes : k'.mutexes = k.mutexes) : k'.RegistryExact :=
  h.congr (fun p => by rw [locks]) (fun m => by rw [mutexes])

theorem registryExact_init : init.RegistryExact where
  exact p hp m := by
    have unowned : (init.mutexes m).owner = 0 := rfl
    rw [unowned]
    exact ⟨fun mem => by simp [init, LockManager.empty, LockManager.getLocks] at mem, fun zero => absurd zero.symm hp⟩
  zero_empty := rfl
  nodup p := by simp [init, LockManager.empty, LockManager.getLocks]

theorem registryExact_wakeNextWaiter (h : k.RegistryExact) (id : MutexId) :
    (k.wakeNextWaiter id).RegistryExact :=
  h.congr (fun p => by rw [lockManager_wakeNextWaiter]) (owner_wakeNextWaiter k id)

theorem registryExact_waitForLock (h : k.RegistryExact) (id : MutexId) (pid : Pid)
    (token : CapabilityToken) (ownerPid : Pid) : (k.waitForLock id pid token ownerPid).2.RegistryExact := by
  have queued : ∀ c : CapabilityMutex, c.owner = (k.mutexes id).owner →
      ∀ m, ((k.setMutex id c).mutexes m).owner = (k.mutexes m).owner := by
    intro c same m
    rw [owner_setMutex]
    split_ifs with hm
    · rw [hm, same]
    · rfl
  have same := queued { k.mutexes id with waitQueue := (k.mutexes id).waitQueue ++ [(pid, token.tokenId)] } rfl
  unfold waitForLock
  dsimp only
  split
  · exact h.congr (fun _ => rfl) same
  · refine h.congr (fun _ => rfl) fun m => ?_
    rw [owner_setMutex]
    split_ifs with hm
    · rw [hm]
      exact same id
    · exact same m

theorem registryExact_acquire (h : k.RegistryExact) (id : MutexId) {pid : Pid} (token : CapabilityToken)
    (hpid : pid ≠ 0) (free : (k.mutexes id).owner = 0) : (k.acquire id pid token).RegistryExact := by
  have unowned : ∀ q, q ≠ 0 → id ∉ k.lockManager.getLocks q := by
    intro q hq mem
    exact hq (((h.exact q hq id).mp mem).symm.trans free)
  have locks : ∀ q, (k.acquire id pid token).lockManager.getLocks q =
      if q = pid then k.lockManager.getLocks pid ++ [id] else k.lockManager.getLocks q := by
    intro q
    simp only [acquire, lockManager_setMutex, LockManager.getLocks_registerLock, unowned pid hpid, if_false]
  have owners : ∀ m, ((k.acquire id pid token).mutexes m).owner =
      if m = id then pid else (k.mutexes m).owner := by
    intro m
    simp only [acquire, owner_setMutex]
  refine ⟨fun q hq m => ?_, ?_, fun q => ?_⟩
  · rw [locks, owners]
    by_cases hm : m = id
    · subst hm
      by_cases hqp : q = pid
      · simp [hqp]
      · simp only [hqp, if_false, if_true, unowned q hq, false_iff]
        exact Ne.symm hqp
    · simp only [hm, if_false]
      split_ifs with hqp
      · subst hqp
        simp [hm, h.exact q hq m]
      · exact h.exact q hq m
  · rw [locks, if_neg (Ne.symm hpid)]
    exact h.zero_empty
  · rw [locks]
    split_ifs with hqp
    · subst hqp
      refine List.nodup_append.mpr ⟨h.nodup q, List.nodup_singleton id, ?_⟩
      intro a mem b single same
      rw [List.mem_singleton.mp single] at same
      exact unowned q hpid (same ▸ mem)
    · exact h.nodup q

theorem registryExact_lock (h : k.RegistryExact) (id : MutexId) {pid : Pid} (token : CapabilityToken)
    (now : UInt64) (hpid : pid ≠ 0) : (k.lock id pid token now).2.RegistryExact := by
  unfold lock
  split_ifs with invalid free
  · exact h
  · exact registryExact_acquire h id token hpid free
  · exact registryExact_waitForLock h id pid token _

theorem registryExact_tryLock (h : k.RegistryExact) (id : MutexId) {pid : Pid} (token : CapabilityToken)
    (now : UInt64) (hpid : pid ≠ 0) : (k.tryLock id pid token now).2.RegistryExact := by
  unfold tryLock
  split_ifs with invalid free
  · exact h
  · exact registryExact_acquire h id token hpid free
  · exact h

theorem registryExact_unlock (h : k.RegistryExact) (id : MutexId) (pid : Pid) :
    (k.unlock id pid).RegistryExact := by
  unfold unlock
  split_ifs with owned
  · exact h
  · apply registryExact_wakeNextWaiter
    have owned : (k.mutexes id).owner = pid := not_not.mp owned
    refine ⟨fun q hq m => ?_, ?_, fun q => ?_⟩
    · simp only [lockManager_setMutex, LockManager.getLocks_unregisterLock, owner_setMutex]
      by_cases hm : m = id
      · rw [if_pos hm]
        subst hm
        by_cases hqp : q = pid
        · rw [if_pos hqp]
          simp [Ne.symm hq]
        · rw [if_neg hqp, h.exact q hq m, owned]
          exact ⟨fun same => absurd same.symm hqp, fun zero => absurd zero.symm hq⟩
      · rw [if_neg hm]
        by_cases hqp : q = pid
        · rw [if_pos hqp]
          subst hqp
          simp [hm, h.exact q hq m]
        · rw [if_neg hqp]
          exact h.exact q hq m
    · simp only [lockManager_setMutex, LockManager.getLocks_unregisterLock]
      split_ifs with zero
      · rw [← zero, h.zero_empty, List.filter_nil]
      · exact h.zero_empty
    · simp only [lockManager_setMutex, LockManager.getLocks_unregisterLock]
      split_ifs
      · exact (h.nodup pid).filter _
      · exact h.nodup q

section Release

variable (pid : Pid)

theorem owner_releaseAll (locks : List MutexId) :
    ∀ (k : Kernel) (m : MutexId),
      ((locks.foldl (fun k id => k.forceUnlock id pid) k).mutexes m).owner =
        if m ∈ locks ∧ (k.mutexes m).owner = pid then 0 else (k.mutexes m).owner := by
  induction locks with
  | nil => simp
  | cons id rest ih =>
    intro k m
    rw [List.foldl_cons, ih, owner_forceUnlock]
    by_cases hm : m = id
    · subst hm
      by_cases owned : (k.mutexes m).owner = pid <;> simp [owned]
    · simp [hm]

theorem tainted_releaseAll (locks : List MutexId) :
    ∀ (k : Kernel) (m : MutexId),
      ((locks.foldl (fun k id => k.forceUnlock id pid) k).mutexes m).tainted =
        if m ∈ locks ∧ (k.mutexes m).owner = pid then true else (k.mutexes m).tainted := by
  induction locks with
  | nil => simp
  | cons id rest ih =>
    intro k m
    rw [List.foldl_cons, ih, owner_forceUnlock, tainted_forceUnlock]
    by_cases hm : m = id
    · subst hm
      by_cases owned : (k.mutexes m).owner = pid <;> simp [owned]
    · simp [hm]

theorem lockManager_releaseAll (locks : List MutexId) (k : Kernel) :
    (locks.foldl (fun k id => k.forceUnlock id pid) k).lockManager = k.lockManager := by
  apply List.foldlRecOn (motive := fun k' : Kernel => k'.lockManager = k.lockManager)
  · rfl
  · intro k' same id _
    rw [lockManager_forceUnlock, same]

variable (k)

theorem count_lockManagerHandleCrash :
    (k.lockManagerHandleCrash pid).1 = (k.lockManager.getLocks pid).length := by
  unfold lockManagerHandleCrash LockManager.getLocks
  cases k.lockManager.heldLocks.lookup pid <;> rfl

theorem getLocks_lockManagerHandleCrash (q : Pid) :
    (k.lockManagerHandleCrash pid).2.lockManager.getLocks q =
      if q = pid then [] else k.lockManager.getLocks q := by
  unfold lockManagerHandleCrash LockManager.getLocks
  cases held : k.lockManager.heldLocks.lookup pid with
  | none =>
    split_ifs with same
    · rw [same, held]
      rfl
    · rfl
  | some locks =>
    dsimp only
    rw [lockManager_releaseAll]
    split_ifs with same
    · rw [same, AList.lookup_erase]
      rfl
    · rw [AList.lookup_erase_ne same]

theorem lookup_lockManagerHandleCrash :
    (k.lockManagerHandleCrash pid).2.lockManager.heldLocks.lookup pid = none := by
  unfold lockManagerHandleCrash
  cases held : k.lockManager.heldLocks.lookup pid with
  | none => exact held
  | some locks => exact AList.lookup_erase pid _

theorem owner_lockManagerHandleCrash (m : MutexId) :
    ((k.lockManagerHandleCrash pid).2.mutexes m).owner =
      if m ∈ k.lockManager.getLocks pid ∧ (k.mutexes m).owner = pid then 0 else (k.mutexes m).owner := by
  unfold lockManagerHandleCrash LockManager.getLocks
  cases k.lockManager.heldLocks.lookup pid with
  | none => simp
  | some locks => exact owner_releaseAll pid locks k m

theorem tainted_lockManagerHandleCrash (m : MutexId) :
    ((k.lockManagerHandleCrash pid).2.mutexes m).tainted =
      if m ∈ k.lockManager.getLocks pid ∧ (k.mutexes m).owner = pid then true
      else (k.mutexes m).tainted := by
  unfold lockManagerHandleCrash LockManager.getLocks
  cases k.lockManager.heldLocks.lookup pid with
  | none => simp
  | some locks => exact tainted_releaseAll pid locks k m

end Release

theorem registryExact_lockManagerHandleCrash (h : k.RegistryExact) (pid : Pid) :
    (k.lockManagerHandleCrash pid).2.RegistryExact := by
  refine ⟨fun q hq m => ?_, ?_, fun q => ?_⟩
  · rw [getLocks_lockManagerHandleCrash, owner_lockManagerHandleCrash]
    by_cases hqp : q = pid
    · subst hqp
      rw [if_pos rfl]
      refine ⟨fun mem => absurd mem List.not_mem_nil, fun owned => ?_⟩
      split_ifs at owned with released
      · exact absurd owned.symm hq
      · exact absurd ⟨(h.exact q hq m).mpr owned, owned⟩ released
    · rw [if_neg hqp, h.exact q hq m]
      split_ifs with released
      · exact ⟨fun owned => absurd (owned.symm.trans released.2) hqp, fun zero => absurd zero.symm hq⟩
      · rfl
  · rw [getLocks_lockManagerHandleCrash]
    split_ifs
    · rfl
    · exact h.zero_empty
  · rw [getLocks_lockManagerHandleCrash]
    split_ifs
    · exact List.nodup_nil
    · exact h.nodup q

theorem registryExact_serviceManagerHandleCrash (h : k.RegistryExact) (pid : Pid) :
    (k.serviceManagerHandleCrash pid).2.RegistryExact := by
  have released := registryExact_lockManagerHandleCrash h pid
  unfold serviceManagerHandleCrash
  split
  · exact h
  · dsimp only
    rw [lockManagerHandleCrash_setServices]
    split
    · exact released.of_eq rfl rfl
    · exact released.of_eq rfl rfl

theorem registryExact_crash (h : k.RegistryExact) (pid : Pid) : (k.crash pid).RegistryExact := by
  have handled := registryExact_serviceManagerHandleCrash h pid
  unfold crash
  dsimp only
  split_ifs
  · exact handled.of_eq rfl rfl
  · exact handled

/-- The operations whose bookkeeping keeps the registry exact: all but a
direct `force_unlock` and a `lock` or `try_lock` by pid `0`. -/
def Op.KeepsRegistry : Op → Prop
  | .lock _ pid _ _ | .tryLock _ pid _ _ => pid ≠ 0
  | .forceUnlock _ _ => False
  | _ => True

instance : (op : Op) → Decidable op.KeepsRegistry
  | .lock _ pid _ _ | .tryLock _ pid _ _ => inferInstanceAs (Decidable (pid ≠ 0))
  | .forceUnlock _ _ => isFalse id
  | .enqueue _ | .preempt | .yieldTo _ | .directHandoff _ | .blockOn _ _ | .unblock _ | .crash _
  | .registerService _ _ _ | .addDependency _ _ | .removeDependency _ _ | .setRestartLimit _ _
  | .unregisterService _ | .serviceManagerHandleCrash _ | .unlock _ _ | .lockManagerHandleCrash _ =>
    isTrue trivial

theorem registryExact_step (h : k.RegistryExact) (op : Op) (hop : op.KeepsRegistry) :
    (k.step op).RegistryExact := by
  cases op with
  | enqueue | preempt | yieldTo | directHandoff | blockOn | unblock | registerService
  | addDependency | removeDependency | setRestartLimit | unregisterService => exact h.of_eq rfl rfl
  | crash pid => exact registryExact_crash h pid
  | serviceManagerHandleCrash pid => exact registryExact_serviceManagerHandleCrash h pid
  | lock id pid token now => exact registryExact_lock h id token now hop
  | tryLock id pid token now => exact registryExact_tryLock h id token now hop
  | unlock id pid => exact registryExact_unlock h id pid
  | forceUnlock => exact hop.elim
  | lockManagerHandleCrash pid => exact registryExact_lockManagerHandleCrash h pid

theorem registryExact_run (ops : List Op) (hops : ∀ op ∈ ops, op.KeepsRegistry) (h : k.RegistryExact) :
    (k.run ops).RegistryExact := by
  induction ops generalizing k with
  | nil => exact h
  | cons op ops ih =>
    have first := registryExact_step h op (hops op List.mem_cons_self)
    exact ih (fun op' mem => hops op' (List.mem_cons_of_mem op mem)) first

/-! The counts of the lock manager, read off an exact registry. -/

theorem RegistryExact.lockCount_eq (h : k.RegistryExact) {p : Pid} (hp : p ≠ 0) :
    k.lockManager.lockCount p = {m | (k.mutexes m).owner = p}.ncard := by
  have owned : {m | (k.mutexes m).owner = p} = {m | m ∈ k.lockManager.getLocks p} := by
    ext m
    exact (h.exact p hp m).symm
  rw [owned, List.ncard_setOf_mem (h.nodup p)]
  rfl

theorem RegistryExact.totalActiveLocks_eq (h : k.RegistryExact) :
    k.lockManager.totalActiveLocks = {m | (k.mutexes m).owner ≠ 0}.ncard := by
  have registered : ∀ p m, m ∈ k.lockManager.getLocks p → p ≠ 0 ∧ (k.mutexes m).owner = p := by
    intro p m mem
    have hp : p ≠ 0 := by
      rintro rfl
      rw [h.zero_empty] at mem
      exact List.not_mem_nil mem
    exact ⟨hp, (h.exact p hp m).mp mem⟩
  have locked : {m | (k.mutexes m).owner ≠ 0} =
      {m | m ∈ k.lockManager.heldLocks.entries.flatMap Sigma.snd} := by
    ext m
    simp only [Set.mem_ofPred_eq, AList.mem_flatMap_entries]
    constructor
    · intro hm
      exact ⟨_, (h.exact _ hm m).mpr rfl⟩
    · rintro ⟨p, mem⟩
      obtain ⟨hp, owned⟩ := registered p m mem
      rw [owned]
      exact hp
  have nodup : (k.lockManager.heldLocks.entries.flatMap Sigma.snd).Nodup := by
    apply AList.nodup_flatMap_entries h.nodup
    intro a b hab m mem mem'
    exact hab ((registered a m mem).2.symm.trans (registered b m mem').2)
  rw [locked, List.ncard_setOf_mem nodup]
  unfold LockManager.totalActiveLocks
  rw [AList.foldl_length_entries, zero_add]

/-- What `LockManager::handle_crash(p)` is for: afterwards `p` owns
no mutex and has no entry, each mutex it owned is unlocked and tainted, and
the count returned is how many it owned. -/
def ReleasesOnCrash (k : Kernel) (p : Pid) : Prop :=
  (∀ m, ((k.lockManagerHandleCrash p).2.mutexes m).owner ≠ p) ∧
    (k.lockManagerHandleCrash p).2.lockManager.heldLocks.lookup p = none ∧
    (∀ m, (k.mutexes m).owner = p →
      ((k.lockManagerHandleCrash p).2.mutexes m).owner = 0 ∧
        ((k.lockManagerHandleCrash p).2.mutexes m).tainted = true) ∧
    (k.lockManagerHandleCrash p).1 = {m | (k.mutexes m).owner = p}.ncard

theorem RegistryExact.releasesOnCrash (h : k.RegistryExact) {p : Pid} (hp : p ≠ 0) : k.ReleasesOnCrash p := by
  -- on an exact registry the loop's test `m ∈ get_locks(p) ∧ owner = p` is `owner = p`
  have test : ∀ m, (m ∈ k.lockManager.getLocks p ∧ (k.mutexes m).owner = p) ↔ (k.mutexes m).owner = p :=
    fun m => ⟨And.right, fun owned => ⟨(h.exact p hp m).mpr owned, owned⟩⟩
  refine ⟨fun m => ?_, lookup_lockManagerHandleCrash k p, fun m owned => ?_, ?_⟩
  · rw [owner_lockManagerHandleCrash]
    split_ifs with released
    · exact Ne.symm hp
    · exact fun owned => released ((test m).mpr owned)
  · rw [owner_lockManagerHandleCrash, tainted_lockManagerHandleCrash, if_pos ((test m).mpr owned),
      if_pos ((test m).mpr owned)]
    exact ⟨rfl, rfl⟩
  · rw [count_lockManagerHandleCrash]
    exact h.lockCount_eq hp

end Kernel

/-- From the empty kernel, along every run without a direct `force_unlock` and
without a `lock` or `try_lock` by pid `0`, the registry is exact: `get_locks(p)`
lists the mutexes `p` owns, `lock_count` and `total_active_locks` count owned
and locked mutexes, and `LockManager::handle_crash(p)` releases all of them. -/
theorem lock_registry_matches_ownership (ops : List Kernel.Op) (hops : ∀ op ∈ ops, op.KeepsRegistry) :
    (∀ p, p ≠ 0 → ∀ m, m ∈ (Kernel.init.run ops).lockManager.getLocks p ↔
        ((Kernel.init.run ops).mutexes m).owner = p) ∧
      (∀ p, p ≠ 0 → (Kernel.init.run ops).lockManager.lockCount p =
        {m | ((Kernel.init.run ops).mutexes m).owner = p}.ncard) ∧
      (Kernel.init.run ops).lockManager.totalActiveLocks =
        {m | ((Kernel.init.run ops).mutexes m).owner ≠ 0}.ncard ∧
      ∀ p, p ≠ 0 → (Kernel.init.run ops).ReleasesOnCrash p := by
  have h := Kernel.registryExact_run ops hops Kernel.registryExact_init
  exact ⟨h.exact, fun p hp => h.lockCount_eq hp, h.totalActiveLocks_eq, fun p hp => h.releasesOnCrash hp⟩

/-- Pid 1 holds mutex 7, pid 2 queues for it, then pid 1 crashes. -/
theorem contended_crash_keeps_registry :
    (∀ op ∈ [Kernel.Op.lock 7 1 ⟨1, 1, 0, 1⟩ 0, .lock 7 2 ⟨2, 2, 0, 1⟩ 0, .lockManagerHandleCrash 1],
        op.KeepsRegistry) ∧
      ∀ p, p ≠ 0 → ∀ m,
        m ∈ (Kernel.init.run [.lock 7 1 ⟨1, 1, 0, 1⟩ 0, .lock 7 2 ⟨2, 2, 0, 1⟩ 0,
          .lockManagerHandleCrash 1]).lockManager.getLocks p ↔
        ((Kernel.init.run [.lock 7 1 ⟨1, 1, 0, 1⟩ 0, .lock 7 2 ⟨2, 2, 0, 1⟩ 0,
          .lockManagerHandleCrash 1]).mutexes m).owner = p :=
  ⟨by decide, (lock_registry_matches_ownership _ (by decide)).1⟩

/-- A direct `force_unlock(1)` frees mutex 7 and leaves it in `get_locks(1)`;
a `lock` by pid `0` registers mutex 7 under `0` while its owner stays `0`. -/
theorem force_unlock_leaves_stale_registration :
    ((Kernel.init.run [.lock 7 1 ⟨1, 1, 0, 1⟩ 0, .forceUnlock 7 1]).lockManager.getLocks 1 = [7] ∧
      ((Kernel.init.run [.lock 7 1 ⟨1, 1, 0, 1⟩ 0, .forceUnlock 7 1]).mutexes 7).owner = 0) ∧
    ((Kernel.init.run [.lock 7 0 ⟨1, 0, 0, 1⟩ 0]).lockManager.getLocks 0 = [7] ∧
      (Kernel.init.run [.lock 7 0 ⟨1, 0, 0, 1⟩ 0]).lockManager.totalActiveLocks = 1 ∧
      ((Kernel.init.run [.lock 7 0 ⟨1, 0, 0, 1⟩ 0]).mutexes 7).owner = 0) := by
  decide

end Xinim.System
