import Fhgfs.Locking.EntryLocks

/-!
# Mutual exclusion of entry locks

An exclusive entry lock should exclude the shared locks of all other handles. The retry of the
waiters does not look at the shared locks: when the exclusive lock is unset and an exclusive
waiter is first, it is granted next to whatever shared locks are left. `RetriesPastReaders`
is the exact condition on a request and the queues before it under which this happens.

* `flockEntry_exclusion_iff`: in a run from empty queues the property holds in all states if
  and only if no request of the run retries past readers.
* `not_flockExclusion`: two readers and a waiting writer are enough to break it.

The proof keeps the stronger invariant `FlockInv`: an exclusive lock is alone, and a handle
that waits for an exclusive lock has no shared lock.
-/

namespace Fhgfs.Locking

open EntryLockDetails EntryLockQueuesContainer OrderedSet List

/-- An exclusive lock excludes the shared locks of other handles. -/
def MutualExclusion (lockQs : EntryLockQueuesContainer) : Prop :=
  lockQs.exclLock.isSet = true → ∀ l ∈ lockQs.sharedLocks, l.handle = lockQs.exclLock.handle

instance (lockQs : EntryLockQueuesContainer) : Decidable (MutualExclusion lockQs) :=
  inferInstanceAs (Decidable (_ → ∀ l ∈ lockQs.sharedLocks.elems, _))

/-- A request of one of the four kinds, from a handle with a client. -/
def EntryRequest (r : EntryLockDetails) : Prop :=
  r.isSet = true ∧ r.lockTypeFlags.OneKind

instance (r : EntryLockDetails) : Decidable (EntryRequest r) :=
  inferInstanceAs (Decidable (_ ∧ _))

structure FlockInv (lockQs : EntryLockQueuesContainer) : Prop where
  exclAlone : lockQs.exclLock.isSet = true → ∀ l, l ∉ lockQs.sharedLocks
  writersUnlocked : ∀ w ∈ lockQs.waitersExclLock, ∀ l ∈ lockQs.sharedLocks,
    l.handle ≠ w.handle
  writersSet : ∀ w ∈ lockQs.waitersExclLock, w.isSet = true

theorem FlockInv.init (junk : EntryLockDetails) :
    FlockInv (EntryLockQueuesContainer.init junk) where
  exclAlone := by simp [EntryLockQueuesContainer.init]
  writersUnlocked := by simp [EntryLockQueuesContainer.init]
  writersSet := by simp [EntryLockQueuesContainer.init]

theorem FlockInv.mutualExclusion {lockQs : EntryLockQueuesContainer} (h : FlockInv lockQs) :
    MutualExclusion lockQs := by
  intro hSet l hl
  exact absurd hl (h.exclAlone hSet l)

theorem handle_ne_of_unset {l r : EntryLockDetails} (hl : l.isSet = false)
    (hr : r.isSet = true) : l.handle ≠ r.handle := by
  intro heq
  rw [isSet_of_handle_eq heq hr] at hl
  cases hl

/-! ## Retrying the waiters -/

/-- Some reader holds a lock and some writer waits, with no exclusive lock between them. -/
def ReaderAndWriter (lockQs : EntryLockQueuesContainer) : Prop :=
  lockQs.exclLock.isSet = false ∧ (∃ w, w ∈ lockQs.waitersExclLock) ∧ ∃ l, l ∈ lockQs.sharedLocks

section Retry

variable {lockQs : EntryLockQueuesContainer}

section

variable (h : FlockInv lockQs)
include h

theorem FlockInv.retry (hNot : ¬ ReaderAndWriter lockQs) :
    FlockInv (flockEntryTryNextWaiters lockQs).1 := by
  rcases flockEntryTryNextWaiters_cases lockQs with
    ⟨-, heq⟩ | ⟨hUnset, hNone, heq⟩ | ⟨hUnset, w, ws, hSome, heq⟩
  · rwa [heq]
  · rw [heq]
    refine ⟨?_, ?_, ?_⟩
    · intro hSet
      rw [hUnset] at hSet
      cases hSet
    · simp [hNone]
    · simp [hNone]
  · rw [heq]
    have hNoReader : ∀ l, l ∉ lockQs.sharedLocks := by
      intro l hl
      exact hNot ⟨hUnset, ⟨w, by simp [hSome]⟩, l, hl⟩
    refine ⟨fun _ => hNoReader, ?_, ?_⟩
    · intro v _ l hl
      exact absurd hl (hNoReader l)
    · intro v hv
      exact h.writersSet v (by rw [hSome]; exact mem_cons_of_mem _ hv)

theorem FlockInv.not_mutualExclusion_retry (hBoth : ReaderAndWriter lockQs) :
    ¬ MutualExclusion (flockEntryTryNextWaiters lockQs).1 := by
  obtain ⟨hUnset, ⟨v, hv⟩, l, hl⟩ := hBoth
  rcases flockEntryTryNextWaiters_cases lockQs with
    ⟨hSet, -⟩ | ⟨-, hNone, -⟩ | ⟨-, w, ws, hSome, heq⟩
  · rw [hUnset] at hSet
    cases hSet
  · rw [hNone] at hv
    cases hv
  rw [heq]
  intro hMutex
  have hw : w ∈ lockQs.waitersExclLock := by
    rw [hSome]
    exact mem_cons_self
  exact h.writersUnlocked w hw l hl (hMutex (h.writersSet w hw) l hl)

theorem FlockInv.finish {tryNext granted : Bool}
    (hNot : ¬ (tryNext = true ∧ ReaderAndWriter lockQs)) :
    FlockInv (entryLockManager.finish tryNext granted lockQs).state := by
  cases tryNext with
  | false => exact h
  | true => exact h.retry fun hBoth => hNot ⟨rfl, hBoth⟩

theorem FlockInv.not_mutualExclusion_finish {tryNext granted : Bool}
    (hRetry : tryNext = true) (hBoth : ReaderAndWriter lockQs) :
    ¬ MutualExclusion (entryLockManager.finish tryNext granted lockQs).state := by
  subst hRetry
  exact h.not_mutualExclusion_retry hBoth

end

end Retry

/-! ## The steps before the retry -/

section Steps

variable {lockQs : EntryLockQueuesContainer} {r : EntryLockDetails}

theorem FlockInv.cancel (h : FlockInv lockQs) : FlockInv (flockEntryCancelByHandle r lockQs).1 := by
  refine ⟨?_, ?_, ?_⟩
  · intro hSet l hl
    exact h.exclAlone (cancel_isSet.mp hSet).1 l (mem_cancel_sharedLocks.mp hl).1
  · intro w hw l hl
    exact h.writersUnlocked w (mem_cancel_waitersExclLock.mp hw).1 l
      (mem_cancel_sharedLocks.mp hl).1
  · intro w hw
    exact h.writersSet w (mem_cancel_waitersExclLock.mp hw).1

theorem FlockInv.unlock (h : FlockInv lockQs) : FlockInv (flockEntryUnlock r lockQs).1 := by
  rcases flockEntryUnlock_cases r lockQs with
    ⟨-, heq⟩ | ⟨-, -, heq⟩ | ⟨-, -, heq⟩ <;> rw [heq]
  · exact ⟨by simp, h.writersUnlocked, h.writersSet⟩
  · refine ⟨?_, ?_, h.writersSet⟩
    · intro hSet l hl
      exact h.exclAlone hSet l (mem_erase.mp hl).1
    · intro w hw l hl
      exact h.writersUnlocked w hw l (mem_erase.mp hl).1
  · exact h

theorem FlockInv.unlocked_shared (h : FlockInv lockQs) (hr : r.isSet = true) :
    ∀ l ∈ (flockEntryUnlock r lockQs).1.sharedLocks, l.handle ≠ r.handle := by
  rcases flockEntryUnlock_cases r lockQs with
    ⟨hExcl, heq⟩ | ⟨-, -, heq⟩ | ⟨-, hNone, heq⟩ <;> rw [heq]
  · intro l hl
    exact absurd hl (h.exclAlone (isSet_of_handle_eq hExcl hr) l)
  · intro l hl
    exact (mem_erase.mp hl).2
  · exact hNone

theorem FlockInv.grantShared {lockQs : EntryLockQueuesContainer}
    (hUnset : lockQs.exclLock.isSet = false) (hNone : lockQs.waitersExclLock = []) :
    FlockInv (flockEntryShared r lockQs) := by
  refine ⟨?_, ?_, ?_⟩
  · intro hSet
    simp only [flockEntryShared] at hSet
    rw [hUnset] at hSet
    cases hSet
  · simp [flockEntryShared, hNone]
  · simp [flockEntryShared, hNone]

theorem FlockInv.grantExclusive (h : FlockInv lockQs) (hNone : ∀ l, l ∉ lockQs.sharedLocks) :
    FlockInv (flockEntryExclusive r lockQs) :=
  ⟨fun _ => hNone, h.writersUnlocked, h.writersSet⟩

theorem FlockInv.enqueue (h : FlockInv lockQs) (hr : r.isSet = true)
    (hUnlocked : ∀ l ∈ lockQs.sharedLocks, l.handle ≠ r.handle) :
    FlockInv (flockEntryEnqueue r lockQs) := by
  unfold flockEntryEnqueue
  split
  · exact ⟨h.exclAlone, h.writersUnlocked, h.writersSet⟩
  refine ⟨h.exclAlone, ?_, ?_⟩
  · intro w hw l hl
    rcases mem_append.mp hw with hw | hw
    · exact h.writersUnlocked w hw l hl
    · rw [mem_singleton.mp hw]
      exact hUnlocked l hl
  · intro w hw
    rcases mem_append.mp hw with hw | hw
    · exact h.writersSet w hw
    · rwa [mem_singleton.mp hw]

end Steps

/-! ## The exact condition -/

/-- With no exclusive lock set, the request makes the manager retry the waiters, a lock of
another handle stays in the shared locks, and an exclusive waiter is left to be granted. -/
def RetriesPastReaders (lockQs : EntryLockQueuesContainer) (r : EntryLockDetails) : Prop :=
  lockQs.exclLock.isSet = false ∧ (∃ l ∈ lockQs.sharedLocks, l.handle ≠ r.handle) ∧
  match r.lockTypeFlags.kind with
  | .cancel =>
    ((∃ l ∈ lockQs.sharedLocks, l.handle = r.handle) ∨
      (∃ w ∈ lockQs.waitersExclLock, w.handle = r.handle) ∨
      ∃ w ∈ lockQs.waitersSharedLock, w.handle = r.handle) ∧
    ∃ w ∈ lockQs.waitersExclLock, w.handle ≠ r.handle
  | .unlock =>
    (∃ l ∈ lockQs.sharedLocks, l.handle = r.handle) ∧ ∃ w, w ∈ lockQs.waitersExclLock
  | .lock =>
    -- an upgrade that has to wait gives up the shared lock first
    (∃ l ∈ lockQs.sharedLocks, l.handle = r.handle) ∧ r.isExclusive = true ∧
      r.allowsWaiting = true ∧ r.lockAckID ∉ lockQs.waitersLockIDs

section Condition

variable {lockQs : EntryLockQueuesContainer} {r : EntryLockDetails}

theorem cancel_readerAndWriter (h : FlockInv lockQs) (hKind : r.lockTypeFlags.kind = .cancel) :
    ((flockEntryCancelByHandle r lockQs).2 = true ∧
      ReaderAndWriter (flockEntryCancelByHandle r lockQs).1) ↔
    RetriesPastReaders lockQs r := by
  unfold ReaderAndWriter RetriesPastReaders
  rw [flockEntryCancelByHandle_removed, ← Bool.not_eq_true, cancel_isSet]
  simp only [hKind, mem_cancel_sharedLocks, mem_cancel_waitersExclLock, ← Bool.not_eq_true]
  by_cases hSet : lockQs.exclLock.isSet = true
  · -- the exclusive lock is alone, so no reader is left on either side
    have hAlone := h.exclAlone hSet
    simp [hAlone]
  simp only [hSet, Bool.false_eq_true, false_and, false_or, not_false_eq_true, true_and]
  constructor
  · rintro ⟨hOwn, hWriter, hReader⟩
    exact ⟨hReader, hOwn, hWriter⟩
  · rintro ⟨hReader, hOwn, hWriter⟩
    exact ⟨hOwn, hWriter, hReader⟩

theorem unlock_readerAndWriter (h : FlockInv lockQs) (hr : r.isSet = true) :
    ((flockEntryUnlock r lockQs).2 = true ∧ ReaderAndWriter (flockEntryUnlock r lockQs).1) ↔
    lockQs.exclLock.isSet = false ∧ (∃ l ∈ lockQs.sharedLocks, l.handle ≠ r.handle) ∧
      (∃ l ∈ lockQs.sharedLocks, l.handle = r.handle) ∧ ∃ w, w ∈ lockQs.waitersExclLock := by
  rcases flockEntryUnlock_cases r lockQs with
    ⟨hExcl, heq⟩ | ⟨-, hOwn, heq⟩ | ⟨-, hNone, heq⟩ <;> rw [heq] <;> unfold ReaderAndWriter
  · have hSet := isSet_of_handle_eq hExcl hr
    constructor
    · rintro ⟨-, -, -, l, hl⟩
      exact absurd hl (h.exclAlone hSet l)
    · rintro ⟨hUnset, -⟩
      rw [hSet] at hUnset
      cases hUnset
  · simp only [mem_erase, true_and]
    tauto
  · constructor
    · rintro ⟨hFalse, -⟩
      cases hFalse
    · rintro ⟨-, -, ⟨l, hl, hEq⟩, -⟩
      exact absurd hEq (hNone l hl)

theorem retriesPastReaders_lock (hKind : r.lockTypeFlags.kind = .lock) :
    RetriesPastReaders lockQs r ↔
      lockQs.exclLock.isSet = false ∧ (∃ l ∈ lockQs.sharedLocks, l.handle ≠ r.handle) ∧
      (∃ l ∈ lockQs.sharedLocks, l.handle = r.handle) ∧ r.isExclusive = true ∧
      r.allowsWaiting = true ∧ r.lockAckID ∉ lockQs.waitersLockIDs := by
  simp [RetriesPastReaders, hKind]

theorem mem_waitersLockIDs {k : String} :
    lockQs.waitersLockIDs.contains k = true ↔ k ∈ lockQs.waitersLockIDs := by
  simp

theorem isGranted_exclusive (hMode : r.isExclusive = true) :
    flockEntryIsGranted r lockQs = true ↔ lockQs.exclLock.handle = r.handle := by
  simp [flockEntryIsGranted, hMode, equalsHandle_iff]

theorem isGranted_shared (hMode : r.isExclusive = false) (hShared : r.isShared = true) :
    flockEntryIsGranted r lockQs = true ↔ ∃ l ∈ lockQs.sharedLocks, l.handle = r.handle := by
  simp [flockEntryIsGranted, hMode, hShared]

section

variable (h : FlockInv lockQs) (hSetR : r.isSet = true) (hMode : r.isShared = !r.isExclusive)
include h hSetR hMode

theorem FlockInv.granted (hFree : (flockEntryCheckConflicts r lockQs).isSome = false) :
    let q := flockEntryGrant r (flockEntryUnlock r lockQs).1
    FlockInv q ∧ ¬ ReaderAndWriter q := by
  rw [← Bool.not_eq_true, flockEntryCheckConflicts_isSome] at hFree
  push Not at hFree
  obtain ⟨hExclOwn, hReaders, hWriters⟩ := hFree
  unfold flockEntryGrant
  cases hX : r.isExclusive with
  | true =>
    rw [hX] at hMode
    simp only [hMode, Bool.not_true, Bool.false_eq_true, if_false]
    have hNone : ∀ l, l ∉ (flockEntryUnlock r lockQs).1.sharedLocks := by
      intro l hl
      refine h.unlocked_shared hSetR l hl (hReaders hX l ?_)
      rcases flockEntryUnlock_cases r lockQs with
        ⟨-, heq⟩ | ⟨-, -, heq⟩ | ⟨-, -, heq⟩ <;> rw [heq] at hl
      · exact hl
      · exact (mem_erase.mp hl).1
      · exact hl
    refine ⟨h.unlock.grantExclusive hNone, ?_⟩
    rintro ⟨-, -, l, hl⟩
    exact hNone l hl
  | false =>
    rw [hX] at hMode
    simp only [hMode, Bool.not_false, if_true]
    have hNoWriter : (flockEntryUnlock r lockQs).1.waitersExclLock = [] := by
      rcases flockEntryUnlock_cases r lockQs with
        ⟨-, heq⟩ | ⟨-, -, heq⟩ | ⟨-, -, heq⟩ <;> rw [heq] <;> exact hWriters hX
    have hUnset : (flockEntryUnlock r lockQs).1.exclLock.isSet = false := by
      rcases flockEntryUnlock_cases r lockQs with
        ⟨-, heq⟩ | ⟨hOther, -, heq⟩ | ⟨hOther, -, heq⟩ <;> rw [heq]
      · exact isSet_unset _
      · exact eq_false_of_ne_true fun hSet => hOther (hExclOwn hSet)
      · exact eq_false_of_ne_true fun hSet => hOther (hExclOwn hSet)
    refine ⟨FlockInv.grantShared hUnset hNoWriter, ?_⟩
    rintro ⟨-, ⟨w, hw⟩, -⟩
    simp only [flockEntryShared, hNoWriter] at hw
    cases hw

/-- A lock request that is queued leaves readers next to a writer exactly when it is an
upgrade past other readers. -/
theorem FlockInv.queued (hGranted : flockEntryIsGranted r lockQs = false) :
    let q := flockEntryEnqueue r (flockEntryUnlock r lockQs).1
    FlockInv q ∧ ((flockEntryUnlock r lockQs).2 = true ∧ ReaderAndWriter q ↔
      lockQs.exclLock.isSet = false ∧ (∃ l ∈ lockQs.sharedLocks, l.handle ≠ r.handle) ∧
      (∃ l ∈ lockQs.sharedLocks, l.handle = r.handle) ∧ r.isExclusive = true) := by
  refine ⟨h.unlock.enqueue hSetR (h.unlocked_shared hSetR), ?_⟩
  rcases flockEntryUnlock_cases r lockQs with
    ⟨hExcl, heq⟩ | ⟨-, hOwn, heq⟩ | ⟨-, hNone, heq⟩ <;> rw [heq]
  · have hSet := isSet_of_handle_eq hExcl hSetR
    have hAlone := h.exclAlone hSet
    constructor
    · rintro ⟨-, -, -, l, hl⟩
      unfold flockEntryEnqueue at hl
      split at hl <;> exact absurd hl (hAlone l)
    · rintro ⟨hUnset, -⟩
      rw [hSet] at hUnset
      cases hUnset
  · have hX : r.isExclusive = true := by
      cases hX : r.isExclusive with
      | true => rfl
      | false =>
        rw [hX] at hMode
        rw [(isGranted_shared hX hMode).mpr hOwn] at hGranted
        cases hGranted
    rw [hX] at hMode
    unfold ReaderAndWriter flockEntryEnqueue
    simp only [hMode, hX, Bool.not_true, Bool.false_eq_true, if_false, mem_erase,
      true_and, and_true, hOwn]
    have hWriter : ∃ w, w ∈ lockQs.waitersExclLock ++ [r] := ⟨r, by simp⟩
    simp only [hWriter, true_and]
  · constructor
    · rintro ⟨hFalse, -⟩
      cases hFalse
    · rintro ⟨-, -, ⟨l, hl, hEq⟩, -⟩
      exact absurd hEq (hNone l hl)

end

/-- What one request does to the invariant: it keeps it, or it retries past readers and the
exclusion is lost. -/
theorem FlockInv.step (h : FlockInv lockQs) (hr : EntryRequest r) :
    (¬ RetriesPastReaders lockQs r → FlockInv (flockEntryStep lockQs r)) ∧
    (RetriesPastReaders lockQs r → ¬ MutualExclusion (flockEntryStep lockQs r)) := by
  obtain ⟨hSetR, hOneKind⟩ := hr
  unfold flockEntryStep flockEntryUnlocked
  have hAnswer := entryLockManager.answer r lockQs
  generalize entryLockManager.request r lockQs = reply at hAnswer ⊢
  cases hAnswer with
  | cancelled hKind =>
    rw [← cancel_readerAndWriter h hKind]
    exact ⟨h.cancel.finish, fun hBad => h.cancel.not_mutualExclusion_finish hBad.1 hBad.2⟩
  | unlocked hKind =>
    have hIff : RetriesPastReaders lockQs r ↔
        (flockEntryUnlock r lockQs).2 = true ∧ ReaderAndWriter (flockEntryUnlock r lockQs).1 := by
      rw [unlock_readerAndWriter h hSetR]
      simp only [RetriesPastReaders, show r.lockTypeFlags.kind = .unlock from hKind]
    rw [hIff]
    exact ⟨h.unlock.finish, fun hBad => h.unlock.not_mutualExclusion_finish hBad.1 hBad.2⟩
  | stillWaiting hKind hID =>
    rw [retriesPastReaders_lock hKind]
    refine ⟨fun _ => h, ?_⟩
    rintro ⟨-, -, -, -, -, hFresh⟩
    exact absurd (mem_waitersLockIDs.mp hID) hFresh
  | alreadyGranted hKind hID hGranted =>
    rw [retriesPastReaders_lock hKind]
    refine ⟨fun _ => h, ?_⟩
    rintro ⟨hUnset, -, -, hMode, -⟩
    exact absurd ((isGranted_exclusive hMode).mp hGranted) (handle_ne_of_unset hUnset hSetR)
  | refused hKind hConflict hWait =>
    rw [retriesPastReaders_lock hKind]
    refine ⟨fun _ => h, ?_⟩
    rintro ⟨-, -, -, -, hWaits, -⟩
    exact nomatch hWait.symm.trans hWaits
  | granted hKind hID hGranted hFree =>
    obtain ⟨hInv, hNot⟩ := h.granted hSetR (hOneKind hKind) hFree
    refine ⟨fun _ => hInv.finish fun hBad => hNot hBad.2, ?_⟩
    rw [retriesPastReaders_lock hKind]
    rintro ⟨-, hOther, -, hMode, -⟩
    have hConflict : (flockEntryCheckConflicts r lockQs).isSome = true :=
      flockEntryCheckConflicts_isSome.mpr (Or.inr (Or.inl ⟨hMode, hOther⟩))
    exact nomatch hFree.symm.trans hConflict
  | queued hKind hID hGranted hConflict hWait =>
    obtain ⟨hInv, hIff⟩ := h.queued hSetR (hOneKind hKind) hGranted
    have hFresh : r.lockAckID ∉ lockQs.waitersLockIDs := by
      intro hIn
      exact absurd (hID.symm.trans (mem_waitersLockIDs.mpr hIn)) Bool.false_ne_true
    have hWaits : r.allowsWaiting = true := hWait
    rw [retriesPastReaders_lock hKind]
    simp only [hWaits, hFresh, not_false_eq_true, and_true]
    rw [← hIff]
    exact ⟨hInv.finish, fun hBad => hInv.not_mutualExclusion_finish hBad.1 hBad.2⟩

end Condition

/-- The exact condition over runs: from empty queues, exclusive locks exclude the shared locks
of other handles in every state of a run if and only if no request of the run retries past
readers. -/
theorem flockEntry_exclusion_iff (junk : EntryLockDetails) (requests : List EntryLockDetails)
    (hRequests : ∀ r ∈ requests, EntryRequest r) :
    Run.Throughout flockEntryStep MutualExclusion (EntryLockQueuesContainer.init junk) requests ↔
    Run.EveryStep flockEntryStep (fun lockQs r => ¬ RetriesPastReaders lockQs r)
      (EntryLockQueuesContainer.init junk) requests := by
  refine Run.throughout_iff_everyStep (J := FlockInv) (A := fun _ r => EntryRequest r)
    flockEntryStep (fun _ h => h.mutualExclusion) ?_ ?_ (FlockInv.init junk) ?_
  · intro lockQs r h hr hNot
    exact (h.step hr).1 hNot
  · intro lockQs r h hr hBad
    exact (h.step hr).2 (not_not.mp hBad)
  · exact Run.everyStep_of_forall flockEntryStep fun _ r hr => hRequests r hr

/-- Two handles read, a third one waits to write, and one of the readers unlocks. -/
def writerPastReader : List EntryLockDetails :=
  [⟨"client1", 1, 11, "ack1", LockTypeFlags.ENTRYLOCKTYPE_SHARED⟩,
   ⟨"client2", 2, 12, "ack2", LockTypeFlags.ENTRYLOCKTYPE_SHARED⟩,
   ⟨"client3", 3, 13, "ack3", LockTypeFlags.ENTRYLOCKTYPE_EXCLUSIVE⟩,
   ⟨"client1", 1, 11, "ack4", LockTypeFlags.ENTRYLOCKTYPE_UNLOCK⟩]

/-- The unlock grants the writer although the second reader still has its lock. -/
theorem not_flockEntry_exclusion :
    ¬ ∀ (junk : EntryLockDetails) (requests : List EntryLockDetails),
      (∀ r ∈ requests, EntryRequest r) →
      (∀ r ∈ requests, ∀ r' ∈ requests, r.lockAckID = r'.lockAckID → r = r') →
      ∀ k, MutualExclusion (Run.after flockEntryStep (EntryLockQueuesContainer.init junk)
        (requests.take k)) := by
  intro h
  have hLast := h ⟨"", 0, 0, "", 0⟩ writerPastReader (by decide) (by decide) 4
  revert hLast
  decide

/-- Without the second reader the writer waits its turn. -/
theorem flockEntry_exclusion_iff_oneReader :
    Run.Throughout flockEntryStep MutualExclusion
      (EntryLockQueuesContainer.init ⟨"", 0, 0, "", 0⟩) (writerPastReader.eraseIdx 1) ↔
    Run.EveryStep flockEntryStep (fun lockQs r => ¬ RetriesPastReaders lockQs r)
      (EntryLockQueuesContainer.init ⟨"", 0, 0, "", 0⟩) (writerPastReader.eraseIdx 1) :=
  flockEntry_exclusion_iff _ _ (by decide)

end Fhgfs.Locking
