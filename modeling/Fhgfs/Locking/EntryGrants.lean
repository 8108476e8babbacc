import Fhgfs.Locking.ClientCancel
import Fhgfs.Locking.EntryExclusion

/-!
# What a request grants

A granted entry lock was granted before, or to the request itself, or it is on the notify list.
For this the queues have to be sane: `OwnLocks`, which a request of any client keeps.

* `request_reply`: where a granted lock comes from, that what is answered as granted, or notified,
  is granted, and that after an unlock its handle has only locks that are on the notify list.
* `granted_retry`, `isGranted_retry`: what the retry of the waiters grants.
-/

namespace Fhgfs.Locking

open EntryLockQueuesContainer EntryLockDetails OrderedSet List Bool

/-- No handle has a lock of both modes, nor a shared lock while it waits for an exclusive one, and
every waiter is in the queue of its mode. All of them have a client. -/
structure OwnLocks (lockQs : EntryLockQueuesContainer) : Prop where
  exclAlone : lockQs.exclLock.isSet = true →
    ∀ l ∈ lockQs.sharedLocks, l.handle ≠ lockQs.exclLock.handle
  sharedSet : ∀ l ∈ lockQs.sharedLocks, l.isSet = true
  writersUnlocked : ∀ w ∈ lockQs.waitersExclLock, ∀ l ∈ lockQs.sharedLocks, l.handle ≠ w.handle
  writers : ∀ w ∈ lockQs.waitersExclLock, w.isSet = true ∧ w.isExclusive = true
  readers : ∀ w ∈ lockQs.waitersSharedLock,
    w.isSet = true ∧ w.isExclusive = false ∧ w.isShared = true

theorem OwnLocks.init (junk : EntryLockDetails) : OwnLocks (.init junk) :=
  ⟨fun _ _ h => absurd h (not_mem_empty _),
    fun _ h => absurd h (not_mem_empty _), nofun, nofun, nofun⟩

section

variable {lockQs : EntryLockQueuesContainer}

theorem OwnLocks.isSet_of_granted {l : EntryLockDetails}
    (h : OwnLocks lockQs) (hl : lockQs.Granted l) : l.isSet = true := by
  rcases hl with ⟨hSet, rfl⟩ | hl
  · exact hSet
  · exact h.sharedSet l hl

theorem OwnLocks.isSet_of_waiting {w : EntryLockDetails}
    (h : OwnLocks lockQs) (hw : lockQs.Waiting w) : w.isSet = true := by
  rcases hw with hw | hw
  · exact (h.writers w hw).1
  · exact (h.readers w hw).1

end

/-! ## One retry -/

section Retry

variable {lockQs : EntryLockQueuesContainer} {l w : EntryLockDetails}

theorem OwnLocks.retry (h : OwnLocks lockQs) : OwnLocks (flockEntryTryNextWaiters lockQs).1 := by
  rcases flockEntryTryNextWaiters_cases lockQs with
    ⟨-, hEq⟩ | ⟨hUnset, hNone, hEq⟩ | ⟨-, w, ws, hSome, hEq⟩ <;> rw [hEq]
  · exact h
  · refine ⟨fun hSet => ?_, fun l hl => ?_, ?_, h.writers, nofun⟩
    · rw [hUnset] at hSet
      exact nomatch hSet
    · rcases mem_foldl_insert hl with hl | hl
      · exact h.sharedSet l hl
      · exact (h.readers l hl).1
    · rw [hNone]
      exact nofun
  · have hIn : ∀ v, v ∈ ws → v ∈ lockQs.waitersExclLock := by
      intro v hv
      rw [hSome]
      exact mem_cons_of_mem _ hv
    refine ⟨fun _ => h.writersUnlocked w ?_, h.sharedSet,
      fun v hv => h.writersUnlocked v (hIn v hv), fun v hv => h.writers v (hIn v hv), h.readers⟩
    rw [hSome]
    exact mem_cons_self

theorem granted_retry (h : (flockEntryTryNextWaiters lockQs).1.Granted l) :
    lockQs.Granted l ∨ l ∈ (flockEntryTryNextWaiters lockQs).2 := by
  rcases flockEntryTryNextWaiters_cases lockQs with
    ⟨-, hEq⟩ | ⟨-, -, hEq⟩ | ⟨-, w, ws, -, hEq⟩ <;> rw [hEq] at h ⊢
  · exact Or.inl h
  · rcases h with h | h
    · exact Or.inl (Or.inl h)
    · rcases mem_foldl_insert h with h | h
      · exact Or.inl (Or.inr h)
      · exact Or.inr h
  · rcases h with ⟨-, rfl⟩ | h
    · exact Or.inr (mem_singleton_self _)
    · exact Or.inl (Or.inr h)

theorem waiting_of_notified (h : w ∈ (flockEntryTryNextWaiters lockQs).2) : lockQs.Waiting w := by
  rcases flockEntryTryNextWaiters_cases lockQs with
    ⟨-, hEq⟩ | ⟨-, -, hEq⟩ | ⟨-, v, vs, hSome, hEq⟩ <;> rw [hEq] at h
  · exact absurd h not_mem_nil
  · exact Or.inr h
  · rw [mem_singleton.mp h]
    exact Or.inl (hSome ▸ mem_cons_self)

theorem OwnLocks.isGranted_notified (h : OwnLocks lockQs)
    (hw : w ∈ (flockEntryTryNextWaiters lockQs).2) :
    flockEntryIsGranted w (flockEntryTryNextWaiters lockQs).1 = true := by
  unfold flockEntryIsGranted
  rcases flockEntryTryNextWaiters_cases lockQs with
    ⟨-, hEq⟩ | ⟨-, -, hEq⟩ | ⟨-, v, vs, hSome, hEq⟩ <;> rw [hEq] at hw ⊢
  · exact absurd hw not_mem_nil
  · obtain ⟨-, hExcl, hShared⟩ := h.readers w hw
    rw [hExcl, hShared, if_neg Bool.false_ne_true, if_pos rfl]
    exact contains_sharedLocks.mpr (exists_key_foldl_insert hw)
  · have hv : v ∈ lockQs.waitersExclLock := hSome ▸ mem_cons_self
    rw [mem_singleton.mp hw, (h.writers v hv).2, if_pos rfl]
    exact equalsHandle_iff.mpr rfl

theorem isGranted_retry (h : flockEntryIsGranted l lockQs = true) (hSet : l.isSet = true) :
    flockEntryIsGranted l (flockEntryTryNextWaiters lockQs).1 = true := by
  unfold flockEntryIsGranted at h ⊢
  rcases flockEntryTryNextWaiters_cases lockQs with
    ⟨-, hEq⟩ | ⟨-, -, hEq⟩ | ⟨hUnset, v, vs, -, hEq⟩ <;> rw [hEq]
  · exact h
  · split
    · rwa [if_pos ‹_›] at h
    · rw [if_neg ‹_›] at h
      split
      · rw [if_pos ‹_›] at h
        obtain ⟨x, hx, hHandle⟩ := contains_sharedLocks.mp h
        exact contains_sharedLocks.mpr ⟨x, mem_foldl_insert_of_mem hx, hHandle⟩
      · rwa [if_neg ‹_›] at h
  · split
    · rw [if_pos ‹_›] at h
      have hHandle := equalsHandle_iff.mp h
      rw [isSet_of_handle_eq hHandle hSet] at hUnset
      cases hUnset
    · rwa [if_neg ‹_›] at h

end Retry

/-! ## The steps before the retry -/

section Steps

variable {lockQs : EntryLockQueuesContainer} {r l : EntryLockDetails}

theorem granted_cancel (h : (flockEntryCancelByHandle r lockQs).1.Granted l) :
    lockQs.Granted l := by
  rcases h with ⟨hSet, hEq⟩ | h
  · obtain ⟨hBefore, hOther⟩ := cancel_isSet.mp hSet
    refine Or.inl ⟨hBefore, hEq.trans ?_⟩
    simp only [flockEntryCancelByHandle, flockEntryCancelWhere, and_eq_true]
    refine if_neg fun hHit => hOther ?_
    exact (equalsHandle_iff.mp hHit.2).symm
  · exact Or.inr (mem_cancel_sharedLocks.mp h).1

theorem OwnLocks.cancel (h : OwnLocks lockQs) : OwnLocks (flockEntryCancelByHandle r lockQs).1 := by
  refine ⟨fun hSet x hx => ?_, fun x hx => h.sharedSet x (mem_cancel_sharedLocks.mp hx).1,
    fun w hw x hx => ?_, fun w hw => ?_, fun w hw => ?_⟩
  · have hKept : (flockEntryCancelByHandle r lockQs).1.exclLock = lockQs.exclLock := by
      obtain ⟨hBefore, hOther⟩ := cancel_isSet.mp hSet
      simp only [flockEntryCancelByHandle, flockEntryCancelWhere, and_eq_true]
      exact if_neg fun hHit => hOther (equalsHandle_iff.mp hHit.2).symm
    rw [hKept]
    exact h.exclAlone (cancel_isSet.mp hSet).1 x (mem_cancel_sharedLocks.mp hx).1
  · exact h.writersUnlocked w (mem_cancel_waitersExclLock.mp hw).1 x
      (mem_cancel_sharedLocks.mp hx).1
  · exact h.writers w (mem_cancel_waitersExclLock.mp hw).1
  · exact h.readers w (mem_filter.mp hw).1

theorem granted_flockEntryUnlock (h : (flockEntryUnlock r lockQs).1.Granted l) :
    lockQs.Granted l := by
  rcases flockEntryUnlock_cases r lockQs with
    ⟨-, hEq⟩ | ⟨-, -, hEq⟩ | ⟨-, -, hEq⟩ <;> rw [hEq] at h
  · rcases h with ⟨hSet, -⟩ | h
    · rw [isSet_unset] at hSet
      exact nomatch hSet
    · exact Or.inr h
  · rcases h with h | h
    · exact Or.inl h
    · exact Or.inr (mem_erase.mp h).1
  · exact h

theorem OwnLocks.not_granted_unlock (h : OwnLocks lockQs) (hSet : r.isSet = true)
    (hl : (flockEntryUnlock r lockQs).1.Granted l) : l.handle ≠ r.handle := by
  rcases flockEntryUnlock_cases r lockQs with
    ⟨hExcl, hEq⟩ | ⟨hExcl, -, hEq⟩ | ⟨hExcl, hNone, hEq⟩ <;> rw [hEq] at hl
  · rcases hl with ⟨hUnset, -⟩ | hl
    · rw [isSet_unset] at hUnset
      exact nomatch hUnset
    · rw [← hExcl]
      exact h.exclAlone (isSet_of_handle_eq hExcl hSet) l hl
  · rcases hl with ⟨-, rfl⟩ | hl
    · exact hExcl
    · exact (mem_erase.mp hl).2
  · rcases hl with ⟨-, rfl⟩ | hl
    · exact hExcl
    · exact hNone l hl

theorem OwnLocks.unlock (h : OwnLocks lockQs) : OwnLocks (flockEntryUnlock r lockQs).1 := by
  rcases flockEntryUnlock_cases r lockQs with
    ⟨-, hEq⟩ | ⟨-, -, hEq⟩ | ⟨-, -, hEq⟩ <;> rw [hEq]
  · refine ⟨fun hSet => ?_, h.sharedSet, h.writersUnlocked, h.writers, h.readers⟩
    rw [isSet_unset] at hSet
    exact nomatch hSet
  · exact ⟨fun hSet x hx => h.exclAlone hSet x (mem_erase.mp hx).1,
      fun x hx => h.sharedSet x (mem_erase.mp hx).1,
      fun w hw x hx => h.writersUnlocked w hw x (mem_erase.mp hx).1, h.writers,
      h.readers⟩
  · exact h

variable (hNone : ∀ l, lockQs.Granted l → l.handle ≠ r.handle)

include hNone

section

variable (h : OwnLocks lockQs) (hSet : r.isSet = true) (hReq : r.isShared = !r.isExclusive)
include h hSet hReq

theorem OwnLocks.grant (hFree : r.isExclusive = false → lockQs.waitersExclLock = []) :
    OwnLocks (flockEntryGrant r lockQs) := by
  unfold flockEntryGrant
  split
  · rename_i hShared
    have hMode : r.isExclusive = false := by
      rw [hShared] at hReq
      simpa using hReq
    refine ⟨fun hSet x hx => ?_, fun x hx => ?_, ?_, h.writers, h.readers⟩
    · rcases mem_insert.mp hx with hx | ⟨rfl, -⟩
      · exact h.exclAlone hSet x hx
      · exact (hNone _ (Or.inl ⟨hSet, rfl⟩)).symm
    · rcases mem_insert.mp hx with hx | ⟨rfl, -⟩
      · exact h.sharedSet x hx
      · exact hSet
    · show ∀ w ∈ lockQs.waitersExclLock, _
      rw [hFree hMode]
      exact nofun
  · exact ⟨fun _ x hx => hNone x (Or.inr hx), h.sharedSet, h.writersUnlocked, h.writers,
      h.readers⟩

theorem OwnLocks.enqueue : OwnLocks (flockEntryEnqueue r lockQs) := by
  unfold flockEntryEnqueue
  split
  · rename_i hShared
    refine ⟨h.exclAlone, h.sharedSet, h.writersUnlocked, h.writers, fun w hw => ?_⟩
    rcases mem_append.mp hw with hw | hw
    · exact h.readers w hw
    · rw [mem_singleton.mp hw]
      rw [hShared] at hReq
      exact ⟨hSet, by simpa using hReq, hShared⟩
  · rename_i hShared
    refine ⟨h.exclAlone, h.sharedSet, fun w hw x hx => ?_, fun w hw => ?_, h.readers⟩
    · rcases mem_append.mp hw with hw | hw
      · exact h.writersUnlocked w hw x hx
      · rw [mem_singleton.mp hw]
        exact hNone x (Or.inr hx)
    · rcases mem_append.mp hw with hw | hw
      · exact h.writers w hw
      · rw [mem_singleton.mp hw]
        rw [eq_false_of_ne_true hShared] at hReq
        exact ⟨hSet, by simpa using hReq⟩

end

end Steps

/-! ## Requests -/

section Requests

variable {lockQs : EntryLockQueuesContainer} {r l w : EntryLockDetails}

/-- A step on sane queues, and then a retry or none. -/
structure Finished (t : EntryLockQueuesContainer)
    (reply : LockManager.Reply EntryLockDetails EntryLockQueuesContainer) : Prop where
  own : OwnLocks reply.state
  granted : ∀ l, reply.state.Granted l → t.Granted l ∨ l ∈ reply.notifyList
  waiting : ∀ w ∈ reply.notifyList, t.Waiting w
  notified : ∀ w ∈ reply.notifyList, flockEntryIsGranted w reply.state = true
  kept : ∀ l, l.isSet = true → flockEntryIsGranted l t = true →
    flockEntryIsGranted l reply.state = true

theorem OwnLocks.finish (h : OwnLocks lockQs) (tryNextWaiters immediatelyGranted : Bool) :
    Finished lockQs (entryLockManager.finish tryNextWaiters immediatelyGranted lockQs) := by
  cases tryNextWaiters with
  | false => exact ⟨h, fun _ hl => Or.inl hl, nofun, nofun, fun _ _ hl => hl⟩
  | true =>
    exact ⟨h.retry, fun _ hl => granted_retry hl, fun _ hw => waiting_of_notified hw,
      fun _ hw => h.isGranted_notified hw, fun _ hSet hl => isGranted_retry hl hSet⟩

theorem isGranted_grant (hReq : r.isShared = !r.isExclusive) :
    flockEntryIsGranted r (flockEntryGrant r lockQs) = true := by
  unfold flockEntryIsGranted flockEntryGrant
  cases hShared : r.isShared with
  | false =>
    rw [hShared] at hReq
    rw [if_neg Bool.false_ne_true, show r.isExclusive = true by simpa using hReq, if_pos rfl]
    exact equalsHandle_iff.mpr rfl
  | true =>
    rw [hShared] at hReq
    rw [if_pos rfl, show r.isExclusive = false by simpa using hReq, if_neg Bool.false_ne_true,
      if_pos rfl]
    exact contains_sharedLocks.mpr
      (exists_key_foldl_insert (mem_singleton_self r))

theorem granted_grant (h : (flockEntryGrant r lockQs).Granted l) : lockQs.Granted l ∨ l = r := by
  unfold flockEntryGrant at h
  split at h
  · rcases h with h | h
    · exact Or.inl (Or.inl h)
    · rcases mem_insert.mp h with h | ⟨h, -⟩
      · exact Or.inl (Or.inr h)
      · exact Or.inr h
  · rcases h with ⟨-, h⟩ | h
    · exact Or.inr h
    · exact Or.inl (Or.inr h)

theorem waiting_enqueue (h : (flockEntryEnqueue r lockQs).Waiting w) :
    lockQs.Waiting w ∨ w = r := by
  unfold flockEntryEnqueue at h
  split at h
  · rcases h with h | h
    · exact Or.inl (Or.inl h)
    · rcases mem_append.mp h with h | h
      · exact Or.inl (Or.inr h)
      · exact Or.inr (mem_singleton.mp h)
  · rcases h with h | h
    · rcases mem_append.mp h with h | h
      · exact Or.inl (Or.inl h)
      · exact Or.inr (mem_singleton.mp h)
    · exact Or.inl (Or.inr h)

theorem granted_enqueue (h : (flockEntryEnqueue r lockQs).Granted l) : lockQs.Granted l := by
  unfold flockEntryEnqueue at h
  split at h <;> exact h

theorem waiting_cancel (h : (flockEntryCancelByHandle r lockQs).1.Waiting w) :
    lockQs.Waiting w := by
  rcases h with h | h
  · exact Or.inl (mem_filter.mp h).1
  · exact Or.inr (mem_filter.mp h).1

theorem waiting_flockEntryUnlock (h : (flockEntryUnlock r lockQs).1.Waiting w) :
    lockQs.Waiting w := by
  rcases flockEntryUnlock_cases r lockQs with
    ⟨-, hEq⟩ | ⟨-, -, hEq⟩ | ⟨-, -, hEq⟩ <;> rw [hEq] at h <;> exact h

theorem waiting_grant (h : (flockEntryGrant r lockQs).Waiting w) : lockQs.Waiting w := by
  unfold flockEntryGrant at h
  split at h <;> exact h

/-- What the reply to a request says about locks and waiters. -/
structure RequestReply (r : EntryLockDetails) (lockQs : EntryLockQueuesContainer)
    (reply : LockManager.Reply EntryLockDetails EntryLockQueuesContainer) : Prop where
  own : OwnLocks reply.state
  granted : ∀ l, reply.state.Granted l → lockQs.Granted l ∨ l ∈ reply.notifyList ∨
    l = r ∧ r.lockTypeFlags.kind = .lock ∧ reply.immediatelyGranted = true
  waiting : ∀ w ∈ reply.notifyList, lockQs.Waiting w ∨ w = r ∧ r.lockTypeFlags.kind = .lock
  notified : ∀ w ∈ reply.notifyList, flockEntryIsGranted w reply.state = true
  immediately : r.lockTypeFlags.kind = .lock → reply.immediatelyGranted = true →
    flockEntryIsGranted r reply.state = true
  unlocked : r.lockTypeFlags.kind = .unlock → ∀ l, reply.state.Granted l →
    l.handle = r.handle → l ∈ reply.notifyList

theorem request_reply (h : OwnLocks lockQs) (hReq : EntryRequest r) :
    RequestReply r lockQs (flockEntryUnlocked r lockQs) := by
  obtain ⟨hSet, hModes⟩ := hReq
  have hAnswer := entryLockManager.answer r lockQs
  unfold flockEntryUnlocked
  generalize entryLockManager.request r lockQs = reply at hAnswer ⊢
  cases hAnswer with
  | cancelled hKind =>
    have hNot : r.lockTypeFlags.kind ≠ .lock := fun hLock => nomatch hKind.symm.trans hLock
    have hCancelled : OwnLocks (flockEntryCancelByHandle r lockQs).1 := h.cancel
    obtain ⟨hOwn, hGranted, hWaiting, hNotified, -⟩ :=
      hCancelled.finish (flockEntryCancelByHandle r lockQs).2 true
    refine ⟨hOwn, fun l hl => ?_, fun w hw => Or.inl (waiting_cancel (hWaiting w hw)), hNotified,
      fun hLock => absurd hLock hNot, fun hUnlock => nomatch hKind.symm.trans hUnlock⟩
    exact (hGranted l hl).imp granted_cancel Or.inl
  | unlocked hKind =>
    have hNot : r.lockTypeFlags.kind ≠ .lock := fun hLock => nomatch hKind.symm.trans hLock
    have hUnlocked : OwnLocks (flockEntryUnlock r lockQs).1 := h.unlock
    obtain ⟨hOwn, hGranted, hWaiting, hNotified, -⟩ :=
      hUnlocked.finish (flockEntryUnlock r lockQs).2 true
    refine ⟨hOwn, fun l hl => (hGranted l hl).imp granted_flockEntryUnlock Or.inl,
      fun w hw => Or.inl (waiting_flockEntryUnlock (hWaiting w hw)), hNotified,
      fun hLock => absurd hLock hNot, fun _ l hl hHandle => ?_⟩
    exact (hGranted l hl).resolve_left fun hl => h.not_granted_unlock hSet hl hHandle
  | stillWaiting hKind _ | refused hKind _ _ =>
    have hNot : r.lockTypeFlags.kind ≠ .unlock := fun hUnlock => nomatch hKind.symm.trans hUnlock
    exact ⟨h, fun _ hl => Or.inl hl, nofun, nofun, nofun, fun hUnlock => absurd hUnlock hNot⟩
  | alreadyGranted hKind _ hIs =>
    have hNot : r.lockTypeFlags.kind ≠ .unlock := fun hUnlock => nomatch hKind.symm.trans hUnlock
    exact ⟨h, fun _ hl => Or.inl hl, nofun, nofun, fun _ _ => hIs,
      fun hUnlock => absurd hUnlock hNot⟩
  | granted hKind _ _ hFree =>
    have hNot : r.lockTypeFlags.kind ≠ .unlock := fun hUnlock => nomatch hKind.symm.trans hUnlock
    have hNone := fun l hl => h.not_granted_unlock (l := l) hSet hl
    have hNoWriter : r.isExclusive = false →
        (flockEntryUnlock r lockQs).1.waitersExclLock = [] := by
      intro hMode
      have hSame : (flockEntryUnlock r lockQs).1.waitersExclLock = lockQs.waitersExclLock := by
        rcases flockEntryUnlock_cases r lockQs with
          ⟨-, hEq⟩ | ⟨-, -, hEq⟩ | ⟨-, -, hEq⟩ <;> rw [hEq]
      rw [hSame]
      by_contra hSome
      have hConflict := flockEntryCheckConflicts_isSome.mpr (Or.inr (Or.inr ⟨hMode, hSome⟩))
      exact nomatch hFree.symm.trans hConflict
    obtain ⟨hOwn, hGranted, hWaiting, hNotified, hKept⟩ := (h.unlock.grant hNone hSet
      (hModes hKind) hNoWriter).finish (flockEntryUnlock r lockQs).2 true
    refine ⟨hOwn, fun l hl => ?_, fun w hw => ?_, hNotified,
      fun _ _ => hKept r hSet (isGranted_grant (hModes hKind)), fun hUnlock => absurd hUnlock hNot⟩
    · rcases hGranted l hl with hl | hl
      · rcases granted_grant hl with hl | rfl
        · exact Or.inl (granted_flockEntryUnlock hl)
        · exact Or.inr (Or.inr ⟨rfl, hKind, entryLockManager.finish_immediatelyGranted _ _ _⟩)
      · exact Or.inr (Or.inl hl)
    · exact Or.inl (waiting_flockEntryUnlock (waiting_grant (hWaiting w hw)))
  | queued hKind _ _ hConflict _ =>
    have hNot : r.lockTypeFlags.kind ≠ .unlock := fun hUnlock => nomatch hKind.symm.trans hUnlock
    have hNone := fun l hl => h.not_granted_unlock (l := l) hSet hl
    obtain ⟨hOwn, hGranted, hWaiting, hNotified, -⟩ := (h.unlock.enqueue hNone hSet
      (hModes hKind)).finish (flockEntryUnlock r lockQs).2 false
    refine ⟨hOwn, fun l hl => ?_, fun w hw => ?_, hNotified, fun _ hImmediately => ?_,
      fun hUnlock => absurd hUnlock hNot⟩
    · exact (hGranted l hl).imp (fun hl => granted_flockEntryUnlock (granted_enqueue hl)) Or.inl
    · exact (waiting_enqueue (hWaiting w hw)).imp waiting_flockEntryUnlock fun hEq => ⟨hEq, hKind⟩
    · rw [LockManager.finish_immediatelyGranted] at hImmediately
      exact nomatch hImmediately

end Requests

end Fhgfs.Locking
