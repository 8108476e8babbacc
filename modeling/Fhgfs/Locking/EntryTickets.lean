import Fhgfs.Locking.EntryLocks
import Fhgfs.Locking.RangeTickets

/-!
# Bookkeeping of entry lock waiters

The set `waitersLockIDs` holds exactly the `lockAckID`s of the queued requests, and no
`lockAckID` is queued twice. Over a run every request that entered the queues is accounted for
once: it is still queued, or a cancel of its handle withdrew it, or it was put on the notify
list. Both follow from `entryAccount`, which says how the functions of the entry lock manager
touch the queues. Nothing is assumed of the requests.
-/

namespace Fhgfs.Locking

open EntryLockQueuesContainer EntryLockDetails List Run

def EntryLockQueuesContainer.queued (lockQs : EntryLockQueuesContainer) : List EntryLockDetails :=
  lockQs.waitersExclLock ++ lockQs.waitersSharedLock

section Steps

variable (r : EntryLockDetails) (lockQs : EntryLockQueuesContainer)

theorem unlock_waiters :
    (flockEntryUnlock r lockQs).1.queued = lockQs.queued ∧
    (flockEntryUnlock r lockQs).1.waitersLockIDs = lockQs.waitersLockIDs := by
  rcases flockEntryUnlock_cases r lockQs with
    ⟨-, heq⟩ | ⟨-, -, heq⟩ | ⟨-, -, heq⟩ <;> rw [heq] <;> exact ⟨rfl, rfl⟩

theorem grant_waiters :
    (flockEntryGrant r lockQs).queued = lockQs.queued ∧
    (flockEntryGrant r lockQs).waitersLockIDs = lockQs.waitersLockIDs := by
  unfold flockEntryGrant
  split <;> exact ⟨rfl, rfl⟩

theorem enqueue_waiters :
    (flockEntryEnqueue r lockQs).queued.Perm (lockQs.queued ++ [r]) ∧
    (flockEntryEnqueue r lockQs).waitersLockIDs = lockQs.waitersLockIDs.insert r.lockAckID := by
  unfold flockEntryEnqueue queued
  split
  · exact ⟨by simp, rfl⟩
  · refine ⟨?_, rfl⟩
    simp only [append_assoc]
    exact perm_append_comm.append_left _

theorem cancel_waiters :
    (flockEntryCancelByHandle r lockQs).1.queued =
      lockQs.queued.filter (fun w => !r.equalsHandle w) ∧
    (flockEntryCancelByHandle r lockQs).1.waitersLockIDs =
      eraseTickets lockAckID (lockQs.queued.filter r.equalsHandle) lockQs.waitersLockIDs := by
  unfold queued eraseTickets
  rw [filter_append, filter_append, foldl_append]
  exact ⟨rfl, rfl⟩

theorem tryNextWaiters_waiters :
    lockQs.queued.Perm ((flockEntryTryNextWaiters lockQs).1.queued ++
      (flockEntryTryNextWaiters lockQs).2) := by
  unfold queued
  rcases flockEntryTryNextWaiters_cases lockQs with
    ⟨-, heq⟩ | ⟨-, hNone, heq⟩ | ⟨-, w, ws, hSome, heq⟩ <;> rw [heq]
  · simp
  · simp [hNone]
  · rw [hSome]
    exact (perm_append_singleton w (ws ++ lockQs.waitersSharedLock)).symm

theorem tryNextWaiters_registered (h : Registered lockAckID lockQs.waitersLockIDs lockQs.queued) :
    Registered lockAckID (flockEntryTryNextWaiters lockQs).1.waitersLockIDs
      (flockEntryTryNextWaiters lockQs).1.queued := by
  unfold queued at h ⊢
  rcases flockEntryTryNextWaiters_cases lockQs with
    ⟨-, heq⟩ | ⟨-, hNone, heq⟩ | ⟨-, w, ws, hSome, heq⟩ <;> rw [heq]
  · exact h
  · rw [hNone, nil_append] at h
    have hAll := h.withdraw (fun _ => true)
    simpa [hNone] using hAll
  · rw [hSome] at h
    exact h.remove []

end Steps

theorem entryAccount :
    WaiterAccount entryLockManager queued waitersLockIDs lockAckID equalsHandle id where
  isWaiting_iff r lockQs := by simp [entryLockManager]
  unlock_queued r lockQs := (unlock_waiters r lockQs).1
  unlock_ids r lockQs := (unlock_waiters r lockQs).2
  grant_queued r lockQs := (grant_waiters r lockQs).1
  grant_ids r lockQs := (grant_waiters r lockQs).2
  enqueue_queued r lockQs := (enqueue_waiters r lockQs).1
  enqueue_ids r lockQs := (enqueue_waiters r lockQs).2
  cancel_queued r lockQs := (cancel_waiters r lockQs).1
  cancel_ids r lockQs := (cancel_waiters r lockQs).2
  retry_queued lockQs := by
    simp only [map_id]
    exact tryNextWaiters_waiters lockQs
  retry_registered lockQs h := tryNextWaiters_registered lockQs h

end Fhgfs.Locking

/-!
## Exactly-once notification of waiters

The ledgers of the two lock managers of a file inode: in every state of a run the registers
agree with the queues, and the requests that entered the queues are, each once, the ones that
are still queued, the ones that a cancel of their handle withdrew, and the ones that were put on
the notify list. For entry locks the whole request is followed, for range locks its handle and
its `lockAckID`, since a grant merges the range of the waiter.
-/

namespace Fhgfs.Locking

/-- What a request adds to the entry lock queues. -/
def entryEntered : EntryLockQueuesContainer → EntryLockDetails → List EntryLockDetails :=
  WaiterAccount.entered entryLockManager EntryLockQueuesContainer.waitersLockIDs
    EntryLockDetails.lockAckID id

/-- The entry lock waiters that a cancel withdraws. -/
def entryCancelled : EntryLockQueuesContainer → EntryLockDetails → List EntryLockDetails :=
  WaiterAccount.cancelled entryLockManager EntryLockQueuesContainer.queued
    EntryLockDetails.equalsHandle id

/-- The entry lock waiters that a request puts on the notify list. -/
def entryNotified : EntryLockQueuesContainer → EntryLockDetails → List EntryLockDetails :=
  WaiterAccount.notified entryLockManager id

/-- What a request adds to the range lock queues. -/
def rangeEntered : RangeLockQueues → RangeLockDetails → List ((Int ×ₗ String) × String) :=
  WaiterAccount.entered rangeLockManager RangeLockQueues.waitersLockIDsRangeFLock
    RangeLockDetails.lockAckID RangeLockDetails.label

/-- The range lock waiters that a cancel withdraws. -/
def rangeCancelled : RangeLockQueues → RangeLockDetails → List ((Int ×ₗ String) × String) :=
  WaiterAccount.cancelled rangeLockManager RangeLockQueues.queued
    RangeLockDetails.equalsHandle RangeLockDetails.label

/-- The range lock waiters that a request puts on the notify list. -/
def rangeNotified : RangeLockQueues → RangeLockDetails → List ((Int ×ₗ String) × String) :=
  WaiterAccount.notified rangeLockManager RangeLockDetails.label

/-- The ledgers of both lock managers, over all runs from empty queues. -/
theorem waiters_ledger :
    (∀ (junk : EntryLockDetails) (requests : List EntryLockDetails),
      let start := EntryLockQueuesContainer.init junk
      let last := Run.after flockEntryStep start requests
      Registered EntryLockDetails.lockAckID last.waitersLockIDs last.queued ∧
      (Run.collect flockEntryStep entryEntered start requests).Perm
        (last.queued ++ (Run.collect flockEntryStep entryCancelled start requests ++
          Run.collect flockEntryStep entryNotified start requests))) ∧
    (∀ requests : List RangeLockDetails,
      let start := RangeLockQueues.empty
      let last := Run.after flockRangeStep start requests
      Registered RangeLockDetails.lockAckID last.waitersLockIDsRangeFLock last.queued ∧
      (Run.collect flockRangeStep rangeEntered start requests).Perm
        (last.queued.map RangeLockDetails.label ++
          (Run.collect flockRangeStep rangeCancelled start requests ++
            Run.collect flockRangeStep rangeNotified start requests))) := by
  constructor
  · intro junk requests
    have hLedger := entryAccount.ledger (s := EntryLockQueuesContainer.init junk) rfl rfl
      requests
    simp only [List.map_id] at hLedger
    exact hLedger
  · intro requests
    exact rangeAccount.ledger (s := RangeLockQueues.empty) rfl rfl requests

end Fhgfs.Locking
