import Fhgfs.Locking.RangeRetry

/-!
# Bookkeeping of range lock waiters

The set `waitersLockIDsRangeFLock` holds exactly the `lockAckID`s of the queued requests, and
no `lockAckID` is queued twice. Over a run every request that entered the queues is still
queued, was withdrawn by a cancel of its handle, or was notified, each once. A grant merges the
waiter in place before it is put on the notify list, so an entry is followed by its handle and
its `lockAckID`, `RangeLockDetails.label`. Nothing is assumed of the requests.
-/

namespace Fhgfs.Locking

open RangeLockDetails RangeLockDetails RangeLockQueues List

def RangeLockQueues.queued (q : RangeLockQueues) : List RangeLockDetails :=
  q.waitersExclRangeFLock ++ q.waitersSharedRangeFLock

/-- What stays fixed of a waiter until it is notified. -/
def RangeLockDetails.label (l : RangeLockDetails) : (Int ×ₗ String) × String :=
  (l.handle, l.lockAckID)

section Steps

variable (r : RangeLockDetails) (q : RangeLockQueues)

theorem range_unlock_waiters :
    (flockRangeUnlock r q).1.queued = q.queued ∧
    (flockRangeUnlock r q).1.waitersLockIDsRangeFLock = q.waitersLockIDsRangeFLock := by
  obtain ⟨hWE, hWS, hIDs⟩ := flockRangeUnlock_waiters (d := r) (q := q)
  unfold queued
  rw [hWE, hWS]
  exact ⟨rfl, hIDs⟩

theorem range_grant_waiters :
    (flockRangeGrant r q).queued = q.queued ∧
    (flockRangeGrant r q).waitersLockIDsRangeFLock = q.waitersLockIDsRangeFLock := by
  unfold flockRangeGrant
  split <;> exact ⟨rfl, rfl⟩

theorem range_enqueue_waiters :
    (flockRangeEnqueue r q).queued.Perm (q.queued ++ [r]) ∧
    (flockRangeEnqueue r q).waitersLockIDsRangeFLock =
      q.waitersLockIDsRangeFLock.insert r.lockAckID := by
  unfold flockRangeEnqueue queued
  split
  · exact ⟨by simp, rfl⟩
  · refine ⟨?_, rfl⟩
    simp only [append_assoc]
    exact perm_append_comm.append_left _

theorem range_cancel_waiters :
    (flockRangeCancelByHandle r q).1.queued = q.queued.filter (fun w => !r.equalsHandle w) ∧
    (flockRangeCancelByHandle r q).1.waitersLockIDsRangeFLock =
      eraseTickets lockAckID (q.queued.filter r.equalsHandle) q.waitersLockIDsRangeFLock := by
  unfold queued eraseTickets
  rw [filter_append, filter_append, foldl_append]
  exact ⟨rfl, rfl⟩

section

variable {kept rest : List RangeLockDetails} {iter : RangeLockDetails} {q : RangeLockQueues}

theorem queued_afterExclGrant (hWaiters : q.waitersExclRangeFLock = kept ++ iter :: rest) :
    q.queued.Perm (iter :: (afterExclGrant kept rest iter q).queued) := by
  unfold queued
  rw [hWaiters, afterExclGrant_waitersExcl, afterExclGrant_waitersShared]
  exact perm_middle.append_right _

theorem queued_afterSharedGrant (hWaiters : q.waitersSharedRangeFLock = kept ++ iter :: rest) :
    q.queued.Perm (iter :: (afterSharedGrant kept rest iter q).queued) := by
  unfold queued
  rw [hWaiters, afterSharedGrant_waitersExcl, afterSharedGrant_waitersShared, ← append_assoc]
  refine perm_middle.trans ?_
  rw [append_assoc]

end

section

variable {τ : Type} {f : RangeLockDetails → τ}

theorem balance_of_grant
    {queued queued' start n : List RangeLockDetails} {iter granted : RangeLockDetails}
    (hQueued : queued.Perm (iter :: queued')) (hLabel : f granted = f iter)
    (h : (start.map f).Perm (queued.map f ++ n.map f)) :
    (start.map f).Perm (queued'.map f ++ (n ++ [granted]).map f) := by
  have hMoved : (queued.map f ++ n.map f).Perm (queued'.map f ++ (n ++ [granted]).map f) := by
    refine ((hQueued.map f).append_right _).trans ?_
    rw [map_append, map_cons, map_cons, map_nil, hLabel, cons_append, ← append_assoc]
    exact (perm_append_singleton _ _).symm
  exact h.trans hMoved

theorem range_tryNextWaiters_balance (hExcl : ∀ iter q, f (flockRangeExclusive iter q).1 = f iter)
    (hShared : ∀ iter q, f (flockRangeShared iter q).1 = f iter) :
    (q.queued.map f).Perm ((flockRangeTryNextWaiters q).1.queued.map f ++
      (flockRangeTryNextWaiters q).2.map f) := by
  refine flockRangeTryNextWaiters_rule
    (I := fun q' n => (q.queued.map f).Perm (q'.queued.map f ++ n.map f)) ?_ ?_ (by simp)
  · intro kept iter rest q' n hWaiters h _
    exact balance_of_grant (queued_afterExclGrant hWaiters) (hExcl iter q') h
  · intro kept iter rest q' n hWaiters h _
    exact balance_of_grant (queued_afterSharedGrant hWaiters) (hShared iter q') h

end

theorem range_tryNextWaiters_registered
    (h : Registered lockAckID q.waitersLockIDsRangeFLock q.queued) :
    Registered lockAckID (flockRangeTryNextWaiters q).1.waitersLockIDsRangeFLock
      (flockRangeTryNextWaiters q).1.queued := by
  refine flockRangeTryNextWaiters_rule (I := fun q' _ =>
    Registered lockAckID q'.waitersLockIDsRangeFLock q'.queued) ?_ ?_ h
  · intro kept iter rest q' n hWaiters h _
    exact (h.perm (queued_afterExclGrant hWaiters)).remove []
  · intro kept iter rest q' n hWaiters h _
    exact (h.perm (queued_afterSharedGrant hWaiters)).remove []

end Steps

theorem rangeAccount :
    WaiterAccount rangeLockManager queued waitersLockIDsRangeFLock lockAckID
      equalsHandle label where
  isWaiting_iff r q := by simp [rangeLockManager]
  unlock_queued r q := (range_unlock_waiters r q).1
  unlock_ids r q := (range_unlock_waiters r q).2
  grant_queued r q := (range_grant_waiters r q).1
  grant_ids r q := (range_grant_waiters r q).2
  enqueue_queued r q := (range_enqueue_waiters r q).1
  enqueue_ids r q := (range_enqueue_waiters r q).2
  cancel_queued r q := (range_cancel_waiters r q).1
  cancel_ids r q := (range_cancel_waiters r q).2
  retry_queued q := by
    refine range_tryNextWaiters_balance q ?_ ?_
    · intro iter q'
      obtain ⟨hHandle, hID⟩ := flockRangeExclusive_same iter q'
      exact Prod.ext hHandle hID
    · intro iter q'
      obtain ⟨hHandle, hID⟩ := flockRangeShared_same iter q'
      exact Prod.ext hHandle hID
  retry_registered q h := range_tryNextWaiters_registered q h

end Fhgfs.Locking
