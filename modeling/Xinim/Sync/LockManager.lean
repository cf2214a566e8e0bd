import Xinim.Core
import Xinim.Data.AList

/-! The data of `xinim::sync` (kernel/capability_mutex.hpp, kernel/lock_manager.hpp):
capability tokens, the fields of a `CapabilityMutex`, and the `LockManager`
registry from a pid to the mutexes it holds. A mutex is named by its address.
The methods that touch a mutex together with the global lock manager and the
global scheduler live in `System.Kernel`. `rdtsc()` is hardware, so the
expiry check takes the time stamp as an argument. -/

namespace Xinim.Sync

abbrev MutexId := ℕ

structure CapabilityToken where
  tokenId : UInt64
  issuerPid : Pid
  expiryTime : UInt64
  rights : UInt32
  deriving DecidableEq, Repr

namespace CapabilityToken

def capLock : UInt32 := 0x01
def capUnlock : UInt32 := 0x02
def capForce : UInt32 := 0x04

def hasRight (token : CapabilityToken) (right : UInt32) : Bool := (token.rights &&& right) != 0

def isExpired (token : CapabilityToken) (now : UInt64) : Bool :=
  token.expiryTime != 0 && now > token.expiryTime

end CapabilityToken

structure CapabilityMutex where
  owner : Pid := 0
  ownerToken : UInt64 := 0
  tainted : Bool := false
  waitQueue : List (Pid × UInt64) := []
  deriving DecidableEq, Repr

namespace CapabilityMutex

def verifyCapability (pid : Pid) (token : CapabilityToken) (now : UInt64) : Bool :=
  token.issuerPid == pid && token.hasRight CapabilityToken.capLock && !token.isExpired now

def isLocked (m : CapabilityMutex) : Bool := m.owner != 0

def ownerOf (m : CapabilityMutex) : Option Pid := if m.owner ≠ 0 then some m.owner else none

def removeFromWaitQueue (m : CapabilityMutex) (pid : Pid) : CapabilityMutex :=
  { m with waitQueue := m.waitQueue.filter fun entry => entry.1 ≠ pid }

end CapabilityMutex

structure LockManager where
  heldLocks : AList (fun _ : Pid => List MutexId)
  totalLocksAcquired : UInt64
  totalLocksReleased : UInt64
  totalLocksForceReleased : UInt64
  totalCrashesHandled : UInt64

namespace LockManager

def empty : LockManager := ⟨∅, 0, 0, 0, 0⟩

def getLocks (lm : LockManager) (pid : Pid) : List MutexId := (lm.heldLocks.lookup pid).getD []

def lockCount (lm : LockManager) (pid : Pid) : ℕ := (lm.getLocks pid).length

def totalActiveLocks (lm : LockManager) : ℕ :=
  lm.heldLocks.entries.foldl (fun total entry => total + entry.2.length) 0

def processCount (lm : LockManager) : ℕ := lm.heldLocks.keys.length

def registerLock (lm : LockManager) (pid : Pid) (lock : MutexId) : LockManager :=
  let locks := lm.getLocks pid
  { lm with
    heldLocks := lm.heldLocks.insert pid (if lock ∈ locks then locks else locks ++ [lock])
    totalLocksAcquired := lm.totalLocksAcquired + 1 }

def unregisterLock (lm : LockManager) (pid : Pid) (lock : MutexId) : LockManager :=
  let heldLocks := match lm.heldLocks.lookup pid with
    | none => lm.heldLocks
    | some locks =>
      let kept := locks.filter (· ≠ lock)
      if kept = [] then lm.heldLocks.erase pid else lm.heldLocks.insert pid kept
  { lm with heldLocks := heldLocks, totalLocksReleased := lm.totalLocksReleased + 1 }

theorem getLocks_registerLock (lm : LockManager) (pid q : Pid) (lock : MutexId) :
    (lm.registerLock pid lock).getLocks q =
      if q = pid then (if lock ∈ lm.getLocks pid then lm.getLocks pid else lm.getLocks pid ++ [lock])
      else lm.getLocks q := by
  unfold registerLock getLocks
  dsimp only
  by_cases same : q = pid
  · subst same
    simp only [if_true, AList.lookup_insert, Option.getD_some]
  · simp only [same, if_false, AList.lookup_insert_ne same]

theorem getLocks_unregisterLock (lm : LockManager) (pid q : Pid) (lock : MutexId) :
    (lm.unregisterLock pid lock).getLocks q =
      if q = pid then (lm.getLocks pid).filter (· ≠ lock) else lm.getLocks q := by
  unfold unregisterLock getLocks
  dsimp only
  by_cases same : q = pid
  · subst same
    rw [if_pos rfl]
    cases held : lm.heldLocks.lookup q with
    | none => simp [held]
    | some locks =>
      dsimp only
      split_ifs with emptied
      · simp only [AList.lookup_erase, Option.getD_none, Option.getD_some]
        exact emptied.symm
      · simp only [AList.lookup_insert, Option.getD_some]
  · simp only [same, if_false]
    cases lm.heldLocks.lookup pid with
    | none => rfl
    | some locks =>
      dsimp only
      split_ifs
      · rw [AList.lookup_erase_ne same]
      · rw [AList.lookup_insert_ne same]

end LockManager

end Xinim.Sync
