import Fhgfs.Locking.RangeInv
import Fhgfs.Locking.RangeTickets

/-!
# Granted range locks are held

A lock request that is reported granted, at once or on the notify list, should hold all bytes
of its range afterwards. A grant inserts the lock into a set that is ordered by range start,
and the insertion is dropped when a lock of the same handle starts there. The merge loop
removes such a lock, except at the top of the offsets, where `end + 1` wraps around and nothing
is mergeable any more.

* `grant_held`: a grant that is not `RefusedAtTop` holds the lock; `grant_held_iff` has the
  converse.
* `reported_granted_held`: in every run whose grants all fit, every request that is reported
  granted holds its range right after the step.
-/

namespace Fhgfs.Locking

open RangeLockDetails RangeLockDetails List RangeInv RangeLockQueues

/-- The range of the request is held in the mode that it asks for. Without a mode bit a
request is treated as an exclusive one. -/
def HeldInMode (q : RangeLockQueues) (w : RangeLockDetails) : Prop :=
  (w.isShared = true ∧ ∀ b, w.covers b → Holds q.sharedRangeFLocks w.handle b) ∨
  ((w.isExclusive = true ∨ w.isShared = false) ∧
    ∀ b, w.covers b → Holds q.exclRangeFLocks w.handle b)

/-- The request `r` in the state `q` reports the lock request `w` granted: `w` is `r` itself
and was granted immediately, or `w` is queued, before or by the request, and its `lockAckID`
is on the notify list. -/
def ReportedGranted (q : RangeLockQueues) (r w : RangeLockDetails) : Prop :=
  (r.lockTypeFlags.kind = .lock ∧ w = r ∧ (flockRangeUnlocked r q).immediatelyGranted = true) ∨
  ((w ∈ q.queued ∨ (r.lockTypeFlags.kind = .lock ∧ w = r)) ∧
    w.lockAckID ∈ (flockRangeUnlocked r q).notifyList.map RangeLockDetails.lockAckID)

/-- The grant of `w` in the state `q` is not refused at the top of the offsets. -/
def GrantFits (q : RangeLockQueues) (w : RangeLockDetails) : Prop :=
  if w.isShared then ¬ RefusedAtTop q.sharedRangeFLocks w
  else ¬ RefusedAtTop q.exclRangeFLocks w

/-! ## The grants of a request -/

/-- The grants of the retry at the end of a request. -/
def finishGrants (tryNextWaiters : Bool) (q : RangeLockQueues) :
    List (RangeLockQueues × RangeLockDetails) :=
  if tryNextWaiters then retryGrants q else []

/-- The grants of a request, each with the state before it: of the request itself and of the
waiters that are retried. -/
def requestGrants (r : RangeLockDetails) (q : RangeLockQueues) :
    List (RangeLockQueues × RangeLockDetails) :=
  match r.lockTypeFlags.kind with
  | .cancel => finishGrants (flockRangeCancelByHandle r q).2 (flockRangeCancelByHandle r q).1
  | .unlock => finishGrants (flockRangeUnlock r q).2 (flockRangeUnlock r q).1
  | .lock =>
    if q.waitersLockIDsRangeFLock.contains r.lockAckID || flockRangeIsGranted r q then []
    else
      let unlocked := flockRangeUnlock r q
      if !(flockRangeCheckConflicts r q).isSome then
        (unlocked.1, r) :: finishGrants unlocked.2 (flockRangeGrant r unlocked.1)
      else if r.allowsWaiting then finishGrants unlocked.2 (flockRangeEnqueue r unlocked.1)
      else []

def GrantsFit (q : RangeLockQueues) (r : RangeLockDetails) : Prop :=
  ∀ g ∈ requestGrants r q, GrantFits g.1 g.2

/-! ## Single grants -/

section Grants

variable {q q' : RangeLockQueues} {d : RangeLockDetails}

theorem HeldInMode.mono (hGrown : Grown q q') (h : HeldInMode q d) : HeldInMode q' d := by
  rcases h with ⟨hShared, hBytes⟩ | ⟨hMode, hBytes⟩
  · exact Or.inl ⟨hShared, fun b hb => hGrown.shared _ b (hBytes b hb)⟩
  · exact Or.inr ⟨hMode, fun b hb => hGrown.excl _ b (hBytes b hb)⟩

section

variable (h : RangeInv q) (hd : d.Valid)
include h hd

theorem exclusive_held_iff (hFree : ¬ GrantedConflict d q) :
    (∀ b, d.covers b → Holds (flockRangeExclusive d q).2.exclRangeFLocks d.handle b) ↔
      ¬ RefusedAtTop q.exclRangeFLocks d :=
  flockRangeExclusive_granted.held_iff lockKey_excl hd h.exclValid (h.laneFree_excl hd hFree)

theorem shared_held_iff :
    (∀ b, d.covers b → Holds (flockRangeShared d q).2.sharedRangeFLocks d.handle b) ↔
      ¬ RefusedAtTop q.sharedRangeFLocks d :=
  flockRangeShared_granted.held_iff lockKey_shared hd h.sharedValid
    (laneFree_shared _)

theorem grant_held_iff (hFree : ¬ GrantedConflict d q) : (∀ b, d.covers b →
      if d.isShared then Holds (flockRangeGrant d q).sharedRangeFLocks d.handle b
      else Holds (flockRangeGrant d q).exclRangeFLocks d.handle b) ↔ GrantFits q d := by
  unfold GrantFits flockRangeGrant
  split
  · exact shared_held_iff h hd
  · exact exclusive_held_iff h hd hFree

theorem grant_held (hFree : ¬ GrantedConflict d q)
    (hFits : GrantFits q d) : HeldInMode (flockRangeGrant d q) d := by
  have hBytes := (grant_held_iff h hd hFree).mpr hFits
  by_cases hShared : d.isShared = true
  · simp only [hShared, if_true] at hBytes
    exact Or.inl ⟨hShared, hBytes⟩
  · have hShared := eq_false_of_ne_true hShared
    simp only [hShared, Bool.false_eq_true, if_false] at hBytes
    exact Or.inr ⟨Or.inr hShared, hBytes⟩

end

/-- The loops of `flockRangeIsGranted` answer yes only for an own lock around the request. -/
theorem rangeGrantedLoop_covers {xs : List RangeLockDetails} (h : rangeGrantedLoop d xs = true) :
    ∃ x ∈ xs, x.handle = d.handle ∧ ∀ b, d.covers b → x.covers b := by
  induction xs with
  | nil => cases h
  | cons x xs ih =>
    unfold rangeGrantedLoop at h
    have hRest : rangeGrantedLoop d xs = true →
        ∃ y ∈ x :: xs, y.handle = d.handle ∧ ∀ b, d.covers b → y.covers b := by
      intro h
      obtain ⟨y, hy, hCovers⟩ := ih h
      exact ⟨y, mem_cons_of_mem x hy, hCovers⟩
    by_cases hOwn : d.equalsHandle x = true
    · simp only [hOwn, Bool.not_true, Bool.false_eq_true, if_false] at h
      have hHere : (∀ b, d.covers b → x.covers b) →
          ∃ y ∈ x :: xs, y.handle = d.handle ∧ ∀ b, d.covers b → y.covers b :=
        fun hCovers => ⟨x, mem_cons_self, (equalsHandle_iff.mp hOwn).symm, hCovers⟩
      rcases overlapsEx_cases d x with
        ⟨hLie, -⟩ | ⟨hLie, hEnds⟩ | ⟨hLie, -⟩ | ⟨hLie, hEnds⟩ | ⟨hLie, -⟩ | ⟨hLie, -⟩ <;>
        rw [hLie] at h
      · exact hRest h
      · refine hHere fun b hb => ?_
        unfold covers at hb ⊢
        omega
      · cases h
      · refine hHere fun b hb => ?_
        unfold covers at hb ⊢
        omega
      · cases h
      · cases h
    · simp only [hOwn, Bool.not_false, if_true] at h
      exact hRest h

theorem held_of_isGranted (h : flockRangeIsGranted d q = true) : HeldInMode q d := by
  unfold flockRangeIsGranted at h
  split at h
  · rename_i hExclusive
    obtain ⟨x, hx, hOwn, hCovers⟩ := rangeGrantedLoop_covers h
    exact Or.inr ⟨Or.inl hExclusive, fun b hb => ⟨x, exclUpTo_mem x hx, hOwn, hCovers b hb⟩⟩
  · split at h
    · rename_i hShared
      obtain ⟨x, hx, hOwn, hCovers⟩ := rangeGrantedLoop_covers h
      exact Or.inl ⟨hShared, fun b hb => ⟨x, hx, hOwn, hCovers b hb⟩⟩
    · cases h

end Grants

/-! ## The invariant -/

/-- The basic invariant, with the waiters in the queue of their mode. -/
structure RangeModesInv (q : RangeLockQueues) : Prop extends RangeInv q where
  writersMode : ∀ w ∈ q.waitersExclRangeFLock, w.isShared = false
  readersMode : ∀ w ∈ q.waitersSharedRangeFLock, w.isShared = true

namespace RangeModesInv

variable {q : RangeLockQueues} {d : RangeLockDetails}

theorem empty : RangeModesInv RangeLockQueues.empty where
  toRangeInv := RangeInv.empty
  writersMode := by simp [RangeLockQueues.empty]
  readersMode := by simp [RangeLockQueues.empty]

variable (h : RangeModesInv q)
include h

theorem unlock (hd : d.Valid) : RangeModesInv (flockRangeUnlock d q).1 := by
  obtain ⟨hWE, hWS, -⟩ := flockRangeUnlock_waiters (d := d) (q := q)
  refine ⟨h.toRangeInv.unlock hd, ?_, ?_⟩
  · rw [hWE]
    exact h.writersMode
  · rw [hWS]
    exact h.readersMode

theorem cancelWhere (hit : RangeLockDetails → Bool) :
    RangeModesInv (flockRangeCancelWhere hit q).1 where
  toRangeInv := h.toRangeInv.cancelWhere hit
  writersMode w hw := h.writersMode w (mem_filter.mp hw).1
  readersMode w hw := h.readersMode w (mem_filter.mp hw).1

theorem grant (hd : d.Valid) (hFree : ¬ GrantedConflict d q) :
    RangeModesInv (flockRangeGrant d q) := by
  refine ⟨h.toRangeInv.grant hd hFree, ?_, ?_⟩
  · unfold flockRangeGrant
    split <;> exact h.writersMode
  · unfold flockRangeGrant
    split <;> exact h.readersMode

theorem enqueue (hd : d.Valid) : RangeModesInv (flockRangeEnqueue d q) := by
  have hInv := h.toRangeInv.enqueue hd
  unfold flockRangeEnqueue at hInv ⊢
  split at hInv
  · rename_i hShared
    rw [if_pos hShared]
    refine ⟨hInv, h.writersMode, fun w hw => ?_⟩
    rcases mem_append.mp hw with hw | hw
    · exact h.readersMode w hw
    · rwa [mem_singleton.mp hw]
  · rename_i hShared
    rw [if_neg hShared]
    refine ⟨hInv, fun w hw => ?_, h.readersMode⟩
    rcases mem_append.mp hw with hw | hw
    · exact h.writersMode w hw
    · rw [mem_singleton.mp hw]
      exact eq_false_of_ne_true hShared

section

variable {kept rest : List RangeLockDetails} {iter : RangeLockDetails}

theorem afterExclGrant (hWaiters : q.waitersExclRangeFLock = kept ++ iter :: rest)
    (hFree : ¬ GrantedConflict iter q) : RangeModesInv (afterExclGrant kept rest iter q) where
  toRangeInv := h.toRangeInv.afterExclGrant hWaiters hFree
  writersMode w hw := h.writersMode w (mem_of_kept hWaiters hw)
  readersMode := h.readersMode

theorem afterSharedGrant (hWaiters : q.waitersSharedRangeFLock = kept ++ iter :: rest) :
    RangeModesInv (afterSharedGrant kept rest iter q) where
  toRangeInv := h.toRangeInv.afterSharedGrant hWaiters
  writersMode := h.writersMode
  readersMode w hw := h.readersMode w (mem_of_kept hWaiters hw)

end

theorem tryNextWaiters : RangeModesInv (flockRangeTryNextWaiters q).1 :=
  flockRangeTryNextWaiters_rule (I := fun q _ => RangeModesInv q)
    (fun _ _ _ _ _ hWaiters hq hFree =>
      hq.afterExclGrant hWaiters (not_grantedConflict_of_freeEx hFree))
    (fun _ _ _ _ _ hWaiters hq _ => hq.afterSharedGrant hWaiters) h

theorem step (hd : d.Valid) : RangeModesInv (flockRangeStep q d) := by
  refine LockManager.step_invariant h (fun _ ht => ht.tryNextWaiters) (h.cancelWhere _)
    (h.unlock hd) ?_ (fun _ => (h.unlock hd).enqueue hd)
  intro _ hFree
  exact (h.unlock hd).grant hd
    (h.grantedConflict_unlock hd (not_grantedConflict_of_free hFree))

end RangeModesInv

/-! ## Retries -/

/-- `q` is reached from `t` by grants of waiters: what was held is still held, and a waiter
that left the queues is held. -/
structure Retried (t q : RangeLockQueues) : Prop extends RangeModesInv q where
  grown : Grown t q
  queued : ∀ w ∈ t.queued, w ∈ q.queued ∨ HeldInMode q w

theorem Retried.next {t q q' : RangeLockQueues} {iter : RangeLockDetails} (h : Retried t q)
    (hInv : RangeModesInv q') (hGrown : Grown q q')
    (hQueued : q.queued.Perm (iter :: q'.queued)) (hHeld : HeldInMode q' iter) :
    Retried t q' := by
  refine ⟨hInv, h.grown.trans hGrown, fun w hw => ?_⟩
  rcases h.queued w hw with hw | hw
  · rcases mem_cons.mp (hQueued.mem_iff.mp hw) with rfl | hw
    · exact Or.inr hHeld
    · exact Or.inl hw
  · exact Or.inr (hw.mono hGrown)

variable {t : RangeLockQueues}

theorem retried (h : RangeModesInv t) (hFits : ∀ g ∈ retryGrants t, GrantFits g.1 g.2) :
    Retried t (flockRangeTryNextWaiters t).1 := by
  refine flockRangeTryNextWaiters_rule_of_grants (I := fun q _ => Retried t q) ?_ ?_ hFits
    ⟨h, Grown.refl t, fun _ hw => Or.inl hw⟩
  · intro kept iter rest q n hWaiters hq hFit hFree
    have hFree := not_grantedConflict_of_freeEx hFree
    have hIn : iter ∈ q.waitersExclRangeFLock := by simp [hWaiters]
    have hMode := hq.writersMode iter hIn
    simp only [GrantFits, hMode, Bool.false_eq_true, if_false] at hFit
    have hBytes := (exclusive_held_iff hq.toRangeInv (hq.waitersExclValid iter hIn) hFree).mpr
      hFit
    exact hq.next (hq.toRangeModesInv.afterExclGrant hWaiters hFree)
      (hq.grown_afterExclGrant hWaiters hFree) (queued_afterExclGrant hWaiters)
      (Or.inr ⟨Or.inr hMode, hBytes⟩)
  · intro kept iter rest q n hWaiters hq hFit hFree
    have hIn : iter ∈ q.waitersSharedRangeFLock := by simp [hWaiters]
    have hMode := hq.readersMode iter hIn
    simp only [GrantFits, hMode, if_true] at hFit
    have hBytes := (shared_held_iff hq.toRangeInv (hq.waitersSharedValid iter hIn)).mpr hFit
    exact hq.next (hq.toRangeModesInv.afterSharedGrant hWaiters)
      (hq.grown_afterSharedGrant hWaiters) (queued_afterSharedGrant hWaiters)
      (Or.inl ⟨hMode, hBytes⟩)

/-- A `lockAckID` on the notify list of a retry is the one of a waiter that is held now: the
waiter has left the queues, since no `lockAckID` is queued twice. -/
theorem notified_held {tryNext granted : Bool} (h : RangeModesInv t)
    (hIDs : Registered lockAckID t.waitersLockIDsRangeFLock t.queued)
    (hFits : ∀ g ∈ finishGrants tryNext t, GrantFits g.1 g.2) {k : String}
    (hNotified : k ∈ (rangeLockManager.finish tryNext granted t).notifyList.map lockAckID) :
    ∃ v ∈ t.queued, v.lockAckID = k ∧
      HeldInMode (rangeLockManager.finish tryNext granted t).state v := by
  cases tryNext with
  | false => cases hNotified
  | true =>
    have hNotified : k ∈ (flockRangeTryNextWaiters t).2.map lockAckID := hNotified
    have hBalance := range_tryNextWaiters_balance t (f := lockAckID)
      (fun iter q => (flockRangeExclusive_same iter q).2)
      (fun iter q => (flockRangeShared_same iter q).2)
    have hNodup := hBalance.nodup_iff.mp hIDs.nodup
    obtain ⟨v, hv, rfl⟩ := mem_map.mp
      (hBalance.mem_iff.mpr (mem_append_right _ hNotified))
    refine ⟨v, hv, rfl, ?_⟩
    rcases (retried h hFits).queued v hv with hStill | hHeld
    · exact absurd hNotified
        (disjoint_of_nodup_append hNodup (mem_map_of_mem hStill))
    · exact hHeld

theorem held_finish {tryNext granted : Bool} (h : RangeModesInv t)
    (hFits : ∀ g ∈ finishGrants tryNext t, GrantFits g.1 g.2) {w : RangeLockDetails}
    (hw : HeldInMode t w) : HeldInMode (rangeLockManager.finish tryNext granted t).state w := by
  cases tryNext with
  | false => exact hw
  | true => exact hw.mono (retried h hFits).grown

/-! ## Requests and runs -/

structure RangeGrantsInv (q : RangeLockQueues) : Prop extends RangeModesInv q where
  registered : Registered RangeLockDetails.lockAckID q.waitersLockIDsRangeFLock q.queued

theorem RangeGrantsInv.empty : RangeGrantsInv empty := ⟨RangeModesInv.empty, Registered.nil⟩

section

variable {q : RangeLockQueues}

theorem RangeGrantsInv.step {r : RangeLockDetails}
    (h : RangeGrantsInv q) (hr : r.Valid) : RangeGrantsInv (flockRangeStep q r) :=
  ⟨h.toRangeModesInv.step hr, rangeAccount.step_registered h.registered r⟩

theorem registered_unlock (r : RangeLockDetails)
    (h : Registered lockAckID q.waitersLockIDsRangeFLock q.queued) :
    Registered lockAckID
      (flockRangeUnlock r q).1.waitersLockIDsRangeFLock (flockRangeUnlock r q).1.queued := by
  obtain ⟨hQueued, hIDs⟩ := range_unlock_waiters r q
  rwa [hQueued, hIDs]

theorem RangeGrantsInv.reported_held {r : RangeLockDetails}
    (h : RangeGrantsInv q) (hr : r.Valid) (hFits : GrantsFit q r) {w : RangeLockDetails}
    (hw : ReportedGranted q r w) : HeldInMode (flockRangeStep q r) w := by
  have hUnlocked := h.toRangeModesInv.unlock hr
  have hUnlockedIDs := registered_unlock r h.registered
  have hQueued := (range_unlock_waiters r q).1
  unfold ReportedGranted at hw
  unfold GrantsFit requestGrants at hFits
  unfold flockRangeStep
  unfold flockRangeUnlocked at hw ⊢
  have hAnswer := rangeLockManager.answer r q
  generalize rangeLockManager.request r q = reply at hAnswer hw ⊢
  cases hAnswer with
  | cancelled hKind =>
    have hKind : r.lockTypeFlags.kind = .cancel := hKind
    simp only [hKind, reduceCtorEq, false_and, or_false, false_or] at hw hFits
    obtain ⟨hWaiting, hNotified⟩ := hw
    obtain ⟨hKept, hIDs⟩ := range_cancel_waiters r q
    have hInv : RangeModesInv (flockRangeCancelByHandle r q).1 := h.toRangeModesInv.cancelWhere _
    have hRegistered : Registered lockAckID
        (flockRangeCancelByHandle r q).1.waitersLockIDsRangeFLock
        (flockRangeCancelByHandle r q).1.queued := by
      rw [hKept, hIDs]
      exact h.registered.withdraw _
    obtain ⟨v, hv, hID, hHeld⟩ := notified_held hInv hRegistered hFits hNotified
    rw [hKept] at hv
    rwa [← h.registered.eq_of_ticket_eq (mem_filter.mp hv).1 hWaiting hID]
  | unlocked hKind =>
    have hKind : r.lockTypeFlags.kind = .unlock := hKind
    simp only [hKind, reduceCtorEq, false_and, or_false, false_or] at hw hFits
    obtain ⟨hWaiting, hNotified⟩ := hw
    obtain ⟨v, hv, hID, hHeld⟩ := notified_held hUnlocked hUnlockedIDs hFits hNotified
    rw [hQueued] at hv
    rwa [← h.registered.eq_of_ticket_eq hv hWaiting hID]
  | stillWaiting _ _ => simp at hw
  | alreadyGranted _ _ hGranted =>
    simp only [map_nil, not_mem_nil, and_false, or_false, and_true] at hw
    rw [hw.2]
    exact held_of_isGranted hGranted
  | refused _ _ _ => simp at hw
  | granted hKind hWaiting hNot hFree =>
    have hKind : r.lockTypeFlags.kind = .lock := hKind
    have hWaiting : q.waitersLockIDsRangeFLock.contains r.lockAckID = false := hWaiting
    have hNot : flockRangeIsGranted r q = false := hNot
    have hFree : (flockRangeCheckConflicts r q).isSome = false := hFree
    simp only [hKind, hWaiting, hNot, hFree, Bool.or_self, Bool.false_eq_true, if_false,
      Bool.not_false, if_true, forall_mem_cons] at hFits
    obtain ⟨hFit, hLater⟩ := hFits
    have hNoConflict := h.grantedConflict_unlock hr (not_grantedConflict_of_free hFree)
    have hGranted := hUnlocked.grant hr hNoConflict
    have hHere := grant_held hUnlocked.toRangeInv hr hNoConflict hFit
    obtain ⟨hSame, hSameIDs⟩ := range_grant_waiters r (flockRangeUnlock r q).1
    rcases hw with ⟨-, rfl, -⟩ | ⟨hWaits | ⟨-, rfl⟩, hNotified⟩
    · exact held_finish hGranted hLater hHere
    · obtain ⟨v, hv, hID, hHeld⟩ := notified_held hGranted
        (by rw [hSame, hSameIDs]; exact hUnlockedIDs) hLater hNotified
      rw [hSame, hQueued] at hv
      rwa [← h.registered.eq_of_ticket_eq hv hWaits hID]
    · exact held_finish hGranted hLater hHere
  | queued hKind hWaiting' hNot hConflict hWait =>
    have hKind : r.lockTypeFlags.kind = .lock := hKind
    have hWaiting : q.waitersLockIDsRangeFLock.contains r.lockAckID = false := hWaiting'
    have hNot : flockRangeIsGranted r q = false := hNot
    have hConflict : (flockRangeCheckConflicts r q).isSome = true := hConflict
    have hWait : r.allowsWaiting = true := hWait
    simp only [hKind, hWaiting, hNot, hConflict, hWait, Bool.or_self, Bool.false_eq_true,
      if_false, Bool.not_true, if_true] at hFits
    simp only [LockManager.finish_immediatelyGranted, Bool.false_eq_true, and_false, false_or] at hw
    obtain ⟨hWaits, hNotified⟩ := hw
    obtain ⟨hPerm, hIDs⟩ := range_enqueue_waiters r (flockRangeUnlock r q).1
    have hFresh : r.lockAckID ∉ (flockRangeUnlock r q).1.waitersLockIDsRangeFLock := by
      rw [(range_unlock_waiters r q).2, ← rangeAccount.isWaiting_iff, hWaiting']
      exact Bool.false_ne_true
    have hRegistered : Registered lockAckID
        (flockRangeEnqueue r (flockRangeUnlock r q).1).waitersLockIDsRangeFLock
        (flockRangeEnqueue r (flockRangeUnlock r q).1).queued := by
      rw [hIDs]
      exact (hUnlockedIDs.enqueue hFresh).perm hPerm.symm
    have hIn : w ∈ (flockRangeEnqueue r (flockRangeUnlock r q).1).queued := by
      rw [hPerm.mem_iff, hQueued, mem_append, mem_singleton]
      exact hWaits.imp id And.right
    obtain ⟨v, hv, hID, hHeld⟩ := notified_held (hUnlocked.enqueue hr) hRegistered hFits hNotified
    rwa [← hRegistered.eq_of_ticket_eq hv hIn hID]

end

/-- In a run whose grants all fit, every request that is reported granted holds its range right
after the step. -/
theorem reported_granted_held (requests : List RangeLockDetails)
    (hRequests : ∀ r ∈ requests, r.Valid)
    (hFits : Run.EveryStep flockRangeStep GrantsFit RangeLockQueues.empty requests) :
    Run.EveryStep flockRangeStep
      (fun q r => ∀ w, ReportedGranted q r w → HeldInMode (flockRangeStep q r) w)
      RangeLockQueues.empty requests := by
  refine Run.everyStep_imp flockRangeStep (I := RangeGrantsInv)
    (A := fun q r => r.Valid ∧ GrantsFit q r) (fun _ _ h hr => h.step hr.1)
    (fun _ _ h hr _ hw => h.reported_held hr.1 hr.2 hw) RangeGrantsInv.empty ?_
  exact Run.everyStep_and flockRangeStep
    (Run.everyStep_of_forall flockRangeStep fun _ => hRequests) hFits

open LockTypeFlags in
/-- A reader and a writer of the same bytes: the writer waits and is notified by the unlock. -/
theorem reported_granted_held_writerWaits :
    Run.EveryStep flockRangeStep
      (fun q r => ∀ w, ReportedGranted q r w → HeldInMode (flockRangeStep q r) w)
      RangeLockQueues.empty
      [⟨"client1", 11, "ack1", ENTRYLOCKTYPE_SHARED, 0, 9⟩,
       ⟨"client2", 12, "ack2", ENTRYLOCKTYPE_EXCLUSIVE, 5, 14⟩,
       ⟨"client1", 11, "ack3", ENTRYLOCKTYPE_UNLOCK, 0, 9⟩] := by
  have hBelowTop : ∀ q r, (∀ g ∈ requestGrants r q, g.2.stop.toNat ≠ topByte) → GrantsFit q r := by
    intro q r h g hg
    unfold GrantFits
    split <;> exact fun hRefused => h g hg hRefused.1
  refine reported_granted_held _ (by decide) ⟨?_, ?_, ?_, trivial⟩
  · exact hBelowTop _ _ (by decide)
  · exact hBelowTop _ _ (by decide)
  · exact hBelowTop _ _ (by decide)

open LockTypeFlags in
/-- Two queued requests of one handle with the same start, the second one up to the top. -/
def sameStartAtTop : List RangeLockDetails :=
  [⟨"client2", 12, "ack1", ENTRYLOCKTYPE_EXCLUSIVE, 5, 10⟩,
   ⟨"client1", 11, "ack2", ENTRYLOCKTYPE_EXCLUSIVE, 5, 10⟩,
   ⟨"client1", 11, "ack3", ENTRYLOCKTYPE_EXCLUSIVE, 5, 0xFFFFFFFFFFFFFFFF⟩,
   ⟨"client2", 12, "ack4", ENTRYLOCKTYPE_UNLOCK, 5, 10⟩]

/-- The unlock puts both requests on the notify list, but byte 11 is not held. -/
theorem not_reported_granted_held :
    ¬ ∀ requests : List RangeLockDetails, (∀ r ∈ requests, r.Valid) →
      Run.EveryStep flockRangeStep
        (fun q r => ∀ w, ReportedGranted q r w → HeldInMode (flockRangeStep q r) w)
        RangeLockQueues.empty requests := by
  intro h
  obtain ⟨-, -, -, hUnlock, -⟩ := h sameStartAtTop (by decide)
  have hHeld := hUnlock ⟨"client1", 11, "ack3", LockTypeFlags.ENTRYLOCKTYPE_EXCLUSIVE, 5,
    0xFFFFFFFFFFFFFFFF⟩ (Or.inr ⟨Or.inl (by decide), by decide⟩)
  rcases hHeld with ⟨hShared, -⟩ | ⟨-, hBytes⟩
  · revert hShared
    decide
  · obtain ⟨x, hx, -, hb⟩ := hBytes 11 (by decide)
    revert x
    decide

end Fhgfs.Locking
