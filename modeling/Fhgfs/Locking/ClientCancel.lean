import Fhgfs.Locking.FileInodeLocks

/-!
# The locks of a dead client

When a client is gone, its flock and append locks are cancelled by its ID. Both functions call
`flockEntryGenericCancelAllWaiters`, which looks at no client: it drops the waiters of everybody
and keeps the granted locks of everybody. `flockEntryGenericCancelByClientID`, which selects by
the client, is not called.

* `clientGone_cancelAllWaiters_iff`: what is left is right exactly if the client holds no lock
  and nobody else waits.
* `clientGone_cancelByClientID`: the function that is not called is right in every state.
-/

namespace Fhgfs.Locking

open List EntryLockQueuesContainer OrderedSet Bool

/-! ## The functions -/

def flockEntryGenericCancelAllWaiters (lockQs : EntryLockQueuesContainer) :
    EntryLockQueuesContainer :=
  { lockQs with
    waitersLockIDs := OrderedSet.empty
    waitersExclLock := []
    waitersSharedLock := [] }

def flockEntryGenericCancelByClientID (clientID : String) (lockQs : EntryLockQueuesContainer) :
    EntryLockQueuesContainer × List EntryLockDetails :=
  let (lockQs, tryNextWaiters) := flockEntryCancelWhere (fun l => l.clientID == clientID) lockQs
  if tryNextWaiters then flockEntryTryNextWaiters lockQs else (lockQs, [])

namespace FileInodeLocks

def flockEntryCancelByClientID (_clientID : String) (locks : FileInodeLocks) : FileInodeLocks :=
  { locks with flock := flockEntryGenericCancelAllWaiters locks.flock }

def flockAppendCancelByClientID (_clientID : String) (locks : FileInodeLocks) : FileInodeLocks :=
  let lockQs := flockEntryGenericCancelAllWaiters locks.appendQueues
  { locks with
    exclAppendLock := lockQs.exclLock
    waitersExclAppendLock := lockQs.waitersExclLock
    waitersLockIDsAppendLock := lockQs.waitersLockIDs }

end FileInodeLocks

/-! ## What is left of a client -/

namespace EntryLockQueuesContainer

/-- The exclusive lock while it is set, and the shared locks. -/
def Granted (lockQs : EntryLockQueuesContainer) (l : EntryLockDetails) : Prop :=
  lockQs.exclLock.isSet = true ∧ l = lockQs.exclLock ∨ l ∈ lockQs.sharedLocks

def Waiting (lockQs : EntryLockQueuesContainer) (w : EntryLockDetails) : Prop :=
  w ∈ lockQs.waitersExclLock ∨ w ∈ lockQs.waitersSharedLock

end EntryLockQueuesContainer

/-- Nothing of the client remains, and nobody else lost anything: a waiter of another client
still waits, or its handle has the lock and it is notified. -/
structure ClientGone (clientID : String) (before after : EntryLockQueuesContainer)
    (notifyList : List EntryLockDetails) : Prop where
  notGranted : ∀ l, after.Granted l → l.clientID ≠ clientID
  notWaiting : ∀ w, after.Waiting w → w.clientID ≠ clientID
  kept : ∀ l, before.Granted l → l.clientID ≠ clientID → after.Granted l
  served : ∀ w, before.Waiting w → w.clientID ≠ clientID →
    after.Waiting w ∨ (∃ l, after.Granted l ∧ l.handle = w.handle) ∧ w ∈ notifyList

/-- The client holds no lock, and nobody else waits for one. -/
structure OnlyWaits (clientID : String) (lockQs : EntryLockQueuesContainer) : Prop where
  granted : ∀ l, lockQs.Granted l → l.clientID ≠ clientID
  waiting : ∀ w, lockQs.Waiting w → w.clientID = clientID

section Cancel

variable {clientID : String} {lockQs : EntryLockQueuesContainer}

theorem not_waiting_cancelAllWaiters (w : EntryLockDetails) :
    ¬ (flockEntryGenericCancelAllWaiters lockQs).Waiting w := by
  rintro (h | h) <;> exact absurd h not_mem_nil

variable {l : EntryLockDetails}

theorem granted_cancelAllWaiters :
    (flockEntryGenericCancelAllWaiters lockQs).Granted l ↔ lockQs.Granted l := Iff.rfl

theorem clientGone_cancelAllWaiters_iff :
    ClientGone clientID lockQs (flockEntryGenericCancelAllWaiters lockQs) [] ↔
      OnlyWaits clientID lockQs := by
  constructor
  · intro h
    refine ⟨fun l hl => h.notGranted l (granted_cancelAllWaiters.mpr hl), ?_⟩
    intro w hw
    by_contra hOther
    rcases h.served w hw hOther with hWaits | ⟨-, hNotified⟩
    · exact not_waiting_cancelAllWaiters w hWaits
    · exact absurd hNotified not_mem_nil
  · intro h
    refine ⟨?_, ?_, ?_, ?_⟩
    · intro l hl
      exact h.granted l (granted_cancelAllWaiters.mp hl)
    · intro w hw
      exact absurd hw (not_waiting_cancelAllWaiters w)
    · intro l hl _
      exact granted_cancelAllWaiters.mpr hl
    · intro w hw hOther
      exact absurd (h.waiting w hw) hOther

/-! ## The function that is not called -/

def withoutClient (clientID : String) (lockQs : EntryLockQueuesContainer) :
    EntryLockQueuesContainer :=
  (flockEntryCancelWhere (fun l => l.clientID == clientID) lockQs).1

theorem granted_withoutClient :
    (withoutClient clientID lockQs).Granted l ↔ lockQs.Granted l ∧ l.clientID ≠ clientID := by
  have hExcl : (withoutClient clientID lockQs).exclLock =
      if lockQs.exclLock.isSet = true ∧ lockQs.exclLock.clientID = clientID then
        lockQs.exclLock.unset
      else lockQs.exclLock := by
    simp only [withoutClient, flockEntryCancelWhere, and_eq_true, beq_iff_eq]
  have hShared : l ∈ (withoutClient clientID lockQs).sharedLocks ↔
      l ∈ lockQs.sharedLocks ∧ l.clientID ≠ clientID := by
    simp only [withoutClient, flockEntryCancelWhere, OrderedSet.mem_filter, not_eq_true',
      beq_eq_false_iff_ne]
  unfold EntryLockQueuesContainer.Granted
  rw [hExcl, hShared]
  by_cases hHit : lockQs.exclLock.isSet = true ∧ lockQs.exclLock.clientID = clientID
  · rw [if_pos hHit, EntryLockDetails.isSet_unset]
    constructor
    · rintro (⟨hSet, -⟩ | h)
      · exact nomatch hSet
      · exact ⟨Or.inr h.1, h.2⟩
    · rintro ⟨⟨-, rfl⟩ | h, hOther⟩
      · exact absurd hHit.2 hOther
      · exact Or.inr ⟨h, hOther⟩
  · rw [if_neg hHit]
    constructor
    · rintro (⟨hSet, rfl⟩ | h)
      · exact ⟨Or.inl ⟨hSet, rfl⟩, fun hID => hHit ⟨hSet, hID⟩⟩
      · exact ⟨Or.inr h.1, h.2⟩
    · rintro ⟨h | h, hOther⟩
      · exact Or.inl h
      · exact Or.inr ⟨h, hOther⟩

variable {w : EntryLockDetails}

theorem waiting_withoutClient :
    (withoutClient clientID lockQs).Waiting w ↔ lockQs.Waiting w ∧ w.clientID ≠ clientID := by
  simp only [Waiting, withoutClient, flockEntryCancelWhere,
    mem_filter, not_eq_true', beq_eq_false_iff_ne, or_and_right]

theorem granted_tryNextWaiters (h : (flockEntryTryNextWaiters lockQs).1.Granted l) :
    lockQs.Granted l ∨ lockQs.Waiting l := by
  rcases flockEntryTryNextWaiters_cases lockQs with ⟨-, hEq⟩ | ⟨-, -, hEq⟩ | ⟨-, w, ws, hWs, hEq⟩
  · rw [hEq] at h
    exact Or.inl h
  · rw [hEq] at h
    rcases h with h | h
    · exact Or.inl (Or.inl h)
    · rcases mem_foldl_insert h with h | h
      · exact Or.inl (Or.inr h)
      · exact Or.inr (Or.inr h)
  · rw [hEq] at h
    rcases h with ⟨-, rfl⟩ | h
    · exact Or.inr (Or.inl (hWs ▸ mem_cons_self))
    · exact Or.inl (Or.inr h)

theorem kept_tryNextWaiters (h : lockQs.Granted l) :
    (flockEntryTryNextWaiters lockQs).1.Granted l := by
  rcases flockEntryTryNextWaiters_cases lockQs with ⟨-, hEq⟩ | ⟨-, -, hEq⟩ |
    ⟨hUnset, w, ws, -, hEq⟩
  · rwa [hEq]
  · rw [hEq]
    rcases h with h | h
    · exact Or.inl h
    · exact Or.inr (mem_foldl_insert_of_mem h)
  · rw [hEq]
    rcases h with ⟨hSet, -⟩ | h
    · rw [hUnset] at hSet
      exact nomatch hSet
    · exact Or.inr h

theorem waiting_tryNextWaiters
    (h : (flockEntryTryNextWaiters lockQs).1.Waiting w) : lockQs.Waiting w := by
  rcases flockEntryTryNextWaiters_cases lockQs with ⟨-, hEq⟩ | ⟨-, -, hEq⟩ | ⟨-, v, ws, hWs, hEq⟩
  · rwa [hEq] at h
  · rw [hEq] at h
    rcases h with h | h
    · exact Or.inl h
    · exact absurd h not_mem_nil
  · rw [hEq] at h
    rcases h with h | h
    · exact Or.inl (hWs ▸ mem_cons_of_mem _ h)
    · exact Or.inr h

theorem served_tryNextWaiters (hSet : ∀ w, lockQs.Waiting w → w.isSet = true)
    (h : lockQs.Waiting w) :
    (flockEntryTryNextWaiters lockQs).1.Waiting w ∨
      (∃ l, (flockEntryTryNextWaiters lockQs).1.Granted l ∧ l.handle = w.handle) ∧
        w ∈ (flockEntryTryNextWaiters lockQs).2 := by
  rcases flockEntryTryNextWaiters_cases lockQs with ⟨-, hEq⟩ | ⟨-, hNone, hEq⟩ |
    ⟨-, v, ws, hWs, hEq⟩
  · rw [hEq]
    exact Or.inl h
  · rw [hEq]
    rcases h with h | h
    · rw [hNone] at h
      exact absurd h not_mem_nil
    · obtain ⟨l, hl, hKey⟩ := exists_key_foldl_insert (s := lockQs.sharedLocks) h
      exact Or.inr ⟨⟨l, Or.inr hl, hKey⟩, h⟩
  · rw [hEq]
    rcases h with h | h
    · rw [hWs] at h
      rcases mem_cons.mp h with rfl | h
      · have hSetW := hSet w (Or.inl (hWs ▸ mem_cons_self))
        exact Or.inr ⟨⟨w, Or.inl ⟨hSetW, rfl⟩, rfl⟩, mem_singleton_self w⟩
      · exact Or.inl (Or.inl h)
    · exact Or.inl (Or.inr h)

/-- A cancel takes the locks and waiters of the client and nobody else's. -/
theorem clientGone_cancelByClientID (hSet : ∀ w, lockQs.Waiting w → w.isSet = true) :
    ClientGone clientID lockQs (flockEntryGenericCancelByClientID clientID lockQs).1
      (flockEntryGenericCancelByClientID clientID lockQs).2 := by
  have hWithout : ClientGone clientID lockQs (withoutClient clientID lockQs) [] := by
    refine ⟨?_, ?_, ?_, ?_⟩
    · exact fun l hl => (granted_withoutClient.mp hl).2
    · exact fun w hw => (waiting_withoutClient.mp hw).2
    · exact fun l hl hOther => granted_withoutClient.mpr ⟨hl, hOther⟩
    · exact fun w hw hOther => Or.inl (waiting_withoutClient.mpr ⟨hw, hOther⟩)
  show ClientGone clientID lockQs
    (if _ then flockEntryTryNextWaiters (withoutClient clientID lockQs)
      else (withoutClient clientID lockQs, [])).1
    (if _ then flockEntryTryNextWaiters (withoutClient clientID lockQs)
      else (withoutClient clientID lockQs, [])).2
  split
  · have hSetWithout : ∀ w, (withoutClient clientID lockQs).Waiting w → w.isSet = true :=
      fun w hw => hSet w (waiting_withoutClient.mp hw).1
    refine ⟨?_, ?_, ?_, ?_⟩
    · intro l hl
      rcases granted_tryNextWaiters hl with hl | hl
      · exact hWithout.notGranted l hl
      · exact hWithout.notWaiting l hl
    · exact fun w hw => hWithout.notWaiting w (waiting_tryNextWaiters hw)
    · exact fun l hl hOther => kept_tryNextWaiters (hWithout.kept l hl hOther)
    · exact fun w hw hOther =>
        served_tryNextWaiters hSetWithout (waiting_withoutClient.mpr ⟨hw, hOther⟩)
  · exact hWithout

end Cancel

/-! ## The flock and append locks of an inode -/

namespace FileInodeLocks

/-- In every state of the locks, reachable or not. Nobody is notified. -/
theorem locks_clientGone_iff (locks : FileInodeLocks) (clientID : String) :
    (ClientGone clientID locks.flock (locks.flockEntryCancelByClientID clientID).flock [] ↔
      OnlyWaits clientID locks.flock) ∧
    (ClientGone clientID locks.appendQueues
        (locks.flockAppendCancelByClientID clientID).appendQueues [] ↔
      OnlyWaits clientID locks.appendQueues) := by
  exact ⟨clientGone_cancelAllWaiters_iff, clientGone_cancelAllWaiters_iff⟩

/-- A lock of the first client, for which the second one waits. -/
def waiterBehindDead : List LockOp :=
  [.entry ⟨"client1", 1, 11, "ack1", LockTypeFlags.ENTRYLOCKTYPE_EXCLUSIVE⟩,
   .entry ⟨"client2", 2, 12, "ack2", LockTypeFlags.ENTRYLOCKTYPE_EXCLUSIVE⟩]

/-- The second client gets the lock of the first one. -/
theorem clientGone_cancelByClientID_waiter :
    let lockQs := (Run.after step (init ⟨"", 0, 0, "", 0⟩ ⟨"", 0, 0, "", 0⟩) waiterBehindDead).flock
    ClientGone "client1" lockQs (flockEntryGenericCancelByClientID "client1" lockQs).1
      (flockEntryGenericCancelByClientID "client1" lockQs).2 := by
  refine clientGone_cancelByClientID fun w hWaits => ?_
  rcases hWaits with h | h
  · rw [mem_singleton.mp h]
    rfl
  · cases h

/-- The lock of the dead client stays, and the waiter behind it is forgotten. -/
theorem not_locks_clientGone :
    ¬ ∀ (junkAppend junkFLock : EntryLockDetails) (ops : List LockOp) (clientID : String),
      ∃ notifyList,
        ClientGone clientID (Run.after step (init junkAppend junkFLock) ops).flock
          ((Run.after step (init junkAppend junkFLock) ops).flockEntryCancelByClientID
            clientID).flock notifyList := by
  intro h
  obtain ⟨_, hGone⟩ := h ⟨"", 0, 0, "", 0⟩ ⟨"", 0, 0, "", 0⟩ waiterBehindDead "client1"
  apply hGone.notGranted ⟨"client1", 1, 11, "ack1", LockTypeFlags.ENTRYLOCKTYPE_EXCLUSIVE⟩
  · exact Or.inl (by decide)
  · rfl

end FileInodeLocks

end Fhgfs.Locking
