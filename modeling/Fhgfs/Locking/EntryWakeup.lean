import Fhgfs.Locking.EntryLocks
import Fhgfs.Locking.RangeWakeup

/-!
# No lost wakeup of entry lock waiters

After each request the waiters that are still queued have to wait: `EntryWaitersBlocked`. The
manager retries the waiters only when an operation released something, so the invariant
`EntryWakeupInv` has to survive every request that does not retry, in particular the ones that
enqueue. The invariant needs that every queued writer has a client (an exclusive lock is unset by
clearing the `clientID`), and that no request asks for both modes at once.
-/

namespace Fhgfs.Locking

/-- No queued waiter is grantable: the first writer waits for an exclusive lock or for a
reader that is not itself, the readers wait for a writer. -/
def EntryWaitersBlocked (lockQs : EntryLockQueuesContainer) : Prop :=
  (∀ w ∈ lockQs.waitersExclLock.head?, lockQs.exclLock.isSet = true ∨
    ∃ l ∈ lockQs.sharedLocks, l.handle ≠ w.handle) ∧
  (lockQs.waitersSharedLock ≠ [] → lockQs.exclLock.isSet = true ∨ lockQs.waitersExclLock ≠ [])

instance (lockQs : EntryLockQueuesContainer) : Decidable (EntryWaitersBlocked lockQs) :=
  inferInstanceAs (Decidable ((∀ w ∈ lockQs.waitersExclLock.head?, _ ∨
    ∃ l ∈ lockQs.sharedLocks.elems, _) ∧ (_ → _)))

structure EntryWakeupInv (lockQs : EntryLockQueuesContainer) : Prop where
  blocked : EntryWaitersBlocked lockQs
  writersSet : ∀ w ∈ lockQs.waitersExclLock, w.isSet = true

namespace EntryWakeupInv

variable {lockQs : EntryLockQueuesContainer} {r : EntryLockDetails}

theorem init (junk : EntryLockDetails) : EntryWakeupInv (EntryLockQueuesContainer.init junk) :=
  ⟨⟨by simp [EntryLockQueuesContainer.init], by simp [EntryLockQueuesContainer.init]⟩,
    by simp [EntryLockQueuesContainer.init]⟩

theorem retry (hSet : ∀ w ∈ lockQs.waitersExclLock, w.isSet = true) :
    EntryWakeupInv (flockEntryTryNextWaiters lockQs).1 := by
  rcases flockEntryTryNextWaiters_cases lockQs with
    ⟨hExcl, heq⟩ | ⟨-, hNone, heq⟩ | ⟨-, w, ws, hSome, heq⟩ <;> rw [heq]
  · exact ⟨⟨fun _ _ => Or.inl hExcl, fun _ => Or.inl hExcl⟩, hSet⟩
  · exact ⟨⟨by simp [hNone], by simp⟩, hSet⟩
  · rw [hSome] at hSet
    have hw : w.isSet = true := hSet w List.mem_cons_self
    exact ⟨⟨fun _ _ => Or.inl hw, fun _ => Or.inl hw⟩,
      fun v hv => hSet v (List.mem_cons_of_mem _ hv)⟩

/-- With a retry only the clients of the writers matter, without one the waiters must be
blocked already. -/
theorem finish {tryNext granted : Bool} (hSet : ∀ w ∈ lockQs.waitersExclLock, w.isSet = true)
    (hBlocked : tryNext = false → EntryWaitersBlocked lockQs) :
    EntryWakeupInv (entryLockManager.finish tryNext granted lockQs).state := by
  cases tryNext with
  | false => exact ⟨hBlocked rfl, hSet⟩
  | true => exact retry hSet

theorem waitersExclLock_unlock :
    (flockEntryUnlock r lockQs).1.waitersExclLock = lockQs.waitersExclLock := by
  rcases flockEntryUnlock_cases r lockQs with
    ⟨-, heq⟩ | ⟨-, -, heq⟩ | ⟨-, -, heq⟩ <;> rw [heq]

theorem unlock_unchanged (h : (flockEntryUnlock r lockQs).2 = false) :
    (flockEntryUnlock r lockQs).1 = lockQs ∧ lockQs.exclLock.handle ≠ r.handle := by
  rcases flockEntryUnlock_cases r lockQs with
    ⟨-, heq⟩ | ⟨-, -, heq⟩ | ⟨hOther, -, heq⟩ <;> rw [heq] at h ⊢
  · cases h
  · cases h
  · exact ⟨rfl, hOther⟩

section

variable (h : EntryWakeupInv lockQs)
include h

theorem granted (hSetR : r.isSet = true) (hMode : ¬ (r.isShared = true ∧ r.isExclusive = true))
    (hFree : (flockEntryCheckConflicts r lockQs).isSome = false)
    (hNone : (flockEntryUnlock r lockQs).2 = false) :
    EntryWaitersBlocked (flockEntryGrant r (flockEntryUnlock r lockQs).1) := by
  obtain ⟨hSame, hOther⟩ := unlock_unchanged hNone
  rw [hSame]
  rw [← Bool.not_eq_true, flockEntryCheckConflicts_isSome] at hFree
  push Not at hFree
  obtain ⟨hExclOwn, -, hWriters⟩ := hFree
  unfold flockEntryGrant
  split
  · rename_i hShared
    have hNoWriter := hWriters (eq_false_of_ne_true fun hX => hMode ⟨hShared, hX⟩)
    refine ⟨by simp [flockEntryShared, hNoWriter], ?_⟩
    intro hReader
    exact h.blocked.2 hReader
  · exact ⟨fun _ _ => Or.inl hSetR, fun _ => Or.inl hSetR⟩

theorem queued (hMode : ¬ (r.isShared = true ∧ r.isExclusive = true))
    (hConflict : (flockEntryCheckConflicts r lockQs).isSome = true)
    (hNone : (flockEntryUnlock r lockQs).2 = false) :
    EntryWaitersBlocked (flockEntryEnqueue r (flockEntryUnlock r lockQs).1) := by
  rw [(unlock_unchanged hNone).1]
  rw [flockEntryCheckConflicts_isSome] at hConflict
  unfold flockEntryEnqueue
  split
  · rename_i hShared
    refine ⟨h.blocked.1, fun _ => ?_⟩
    rcases hConflict with ⟨hSet, -⟩ | ⟨hX, -⟩ | ⟨-, hWriters⟩
    · exact Or.inl hSet
    · exact absurd ⟨hShared, hX⟩ hMode
    · exact Or.inr hWriters
  refine ⟨?_, fun _ => Or.inr (by simp)⟩
  intro w hw
  cases hWE : lockQs.waitersExclLock with
  | cons v vs =>
    -- the new writer is not the first
    have hHead : w ∈ lockQs.waitersExclLock.head? := by
      simpa [hWE] using hw
    exact h.blocked.1 w hHead
  | nil =>
    have hEq : r = w := by simpa [hWE] using hw
    subst hEq
    rcases hConflict with ⟨hSet, -⟩ | ⟨-, hReaders⟩ | ⟨-, hWriters⟩
    · exact Or.inl hSet
    · exact Or.inr hReaders
    · exact absurd hWE hWriters

theorem writersSet_unlock :
    ∀ w ∈ (flockEntryUnlock r lockQs).1.waitersExclLock, w.isSet = true := by
  rw [waitersExclLock_unlock]
  exact h.writersSet

end

section

variable (h : ∀ w ∈ lockQs.waitersExclLock, w.isSet = true)
include h

theorem writersSet_grant : ∀ w ∈ (flockEntryGrant r lockQs).waitersExclLock, w.isSet = true := by
  unfold flockEntryGrant
  split <;> exact h

theorem writersSet_enqueue (hSetR : r.isSet = true) :
    ∀ w ∈ (flockEntryEnqueue r lockQs).waitersExclLock, w.isSet = true := by
  unfold flockEntryEnqueue
  split
  · exact h
  · simp only [List.mem_append, List.mem_singleton]
    rintro w (hw | rfl)
    · exact h w hw
    · exact hSetR

end

theorem step (h : EntryWakeupInv lockQs) (hSetR : r.isSet = true)
    (hModes : r.lockTypeFlags.NotBothModes) : EntryWakeupInv (flockEntryStep lockQs r) := by
  unfold flockEntryStep flockEntryUnlocked
  have hAnswer := entryLockManager.answer r lockQs
  generalize entryLockManager.request r lockQs = reply at hAnswer ⊢
  cases hAnswer with
  | cancelled _ =>
    refine finish (fun w hw => h.writersSet w (mem_cancel_waitersExclLock.mp hw).1) ?_
    intro hNone
    have hSame : (entryLockManager.cancel r lockQs).1 = lockQs :=
      flockEntryCancelByHandle_unchanged hNone
    rw [hSame]
    exact h.blocked
  | unlocked _ =>
    refine finish h.writersSet_unlock ?_
    intro hNone
    have hSame : (entryLockManager.unlock r lockQs).1 = lockQs := (unlock_unchanged hNone).1
    rw [hSame]
    exact h.blocked
  | stillWaiting _ _ => exact h
  | alreadyGranted _ _ _ => exact h
  | refused _ _ _ => exact h
  | granted hKind _ _ hFree =>
    exact finish (writersSet_grant h.writersSet_unlock) (h.granted hSetR (hModes hKind) hFree)
  | queued hKind _ _ hConflict _ =>
    exact finish (writersSet_enqueue h.writersSet_unlock hSetR)
      (h.queued (hModes hKind) hConflict)

end EntryWakeupInv

/-- The waiters are blocked after every request of a run from empty queues, if every request
comes from a client and asks for one mode at most. -/
theorem entry_waiters_blocked (junk : EntryLockDetails) (requests : List EntryLockDetails)
    (hRequests : ∀ r ∈ requests, r.isSet = true ∧ r.lockTypeFlags.NotBothModes) :
    EntryWaitersBlocked
      (Run.after flockEntryStep (EntryLockQueuesContainer.init junk) requests) := by
  have hInv := Run.after_invariant flockEntryStep (I := EntryWakeupInv)
    (A := fun _ r => r.isSet = true ∧ r.lockTypeFlags.NotBothModes)
    (fun _ _ h hr => h.step hr.1 hr.2) (EntryWakeupInv.init junk)
    (Run.everyStep_of_forall flockEntryStep fun _ r hr => hRequests r hr)
  exact hInv.blocked

end Fhgfs.Locking

/-!
## No lost wakeups

The two lock managers leave no grantable waiter in their queues, for requests that make sense:
an entry lock request comes from a client, a range is not empty, and no lock request asks for
the shared and the exclusive mode at once (`waiters_blocked`). Each of these conditions is
needed (`not_waiters_blocked`).
-/

namespace Fhgfs.Locking

/-- No queued waiter is grantable after any request. -/
theorem waiters_blocked :
    (∀ (junk : EntryLockDetails) (requests : List EntryLockDetails),
      (∀ r ∈ requests, r.isSet = true ∧ r.lockTypeFlags.NotBothModes) →
      EntryWaitersBlocked
        (Run.after flockEntryStep (EntryLockQueuesContainer.init junk) requests)) ∧
    (∀ requests : List RangeLockDetails,
      (∀ r ∈ requests, r.Valid ∧ r.lockTypeFlags.NotBothModes) →
      RangeWaitersBlocked (Run.after flockRangeStep RangeLockQueues.empty requests)) :=
  ⟨entry_waiters_blocked, range_waiters_blocked⟩

open LockTypeFlags in
/-- A writer waits for a reader, and a second reader for the writer. -/
theorem waiters_blocked_readerWriterReader :
    EntryWaitersBlocked (Run.after flockEntryStep (EntryLockQueuesContainer.init ⟨"", 0, 0, "", 0⟩)
      [⟨"client1", 1, 11, "ack1", ENTRYLOCKTYPE_SHARED⟩,
       ⟨"client2", 2, 12, "ack2", ENTRYLOCKTYPE_EXCLUSIVE⟩,
       ⟨"client3", 3, 13, "ack3", ENTRYLOCKTYPE_SHARED⟩]) ∧
    RangeWaitersBlocked (Run.after flockRangeStep RangeLockQueues.empty
      [⟨"client1", 11, "ack1", ENTRYLOCKTYPE_SHARED, 0, 9⟩,
       ⟨"client2", 12, "ack2", ENTRYLOCKTYPE_EXCLUSIVE, 5, 14⟩,
       ⟨"client3", 13, "ack3", ENTRYLOCKTYPE_SHARED, 10, 19⟩]) :=
  ⟨waiters_blocked.1 _ _ (by decide), waiters_blocked.2 _ (by decide)⟩

open LockTypeFlags in
/-- A handle without a client: its exclusive lock counts as unset when it is granted. -/
def clientlessWriter : List EntryLockDetails :=
  [⟨"client1", 1, 11, "ack1", ENTRYLOCKTYPE_EXCLUSIVE⟩,
   ⟨"", 2, 12, "ack2", ENTRYLOCKTYPE_EXCLUSIVE⟩,
   ⟨"client3", 3, 13, "ack3", ENTRYLOCKTYPE_SHARED⟩,
   ⟨"client1", 1, 11, "ack4", ENTRYLOCKTYPE_UNLOCK⟩]

open LockTypeFlags in
/-- A request with both mode bits conflicts like an exclusive one and is queued with the
shared ones. -/
def bothModesEntry : List EntryLockDetails :=
  [⟨"client1", 1, 11, "ack1", ENTRYLOCKTYPE_SHARED⟩,
   ⟨"client2", 2, 12, "ack2", ENTRYLOCKTYPE_EXCLUSIVE ||| ENTRYLOCKTYPE_SHARED⟩]

open LockTypeFlags in
/-- A lock whose range ends before it starts keeps a merged lock out of the set. -/
def emptyRange : List RangeLockDetails :=
  [⟨"client1", 11, "ack1", ENTRYLOCKTYPE_EXCLUSIVE, 10, 3⟩,
   ⟨"client1", 11, "ack2", ENTRYLOCKTYPE_EXCLUSIVE, 14, 20⟩,
   ⟨"client2", 12, "ack3", ENTRYLOCKTYPE_EXCLUSIVE, 16, 18⟩,
   ⟨"client1", 11, "ack4", ENTRYLOCKTYPE_EXCLUSIVE, 10, 13⟩]

open LockTypeFlags in
def bothModesRange : List RangeLockDetails :=
  [⟨"client1", 11, "ack1", ENTRYLOCKTYPE_SHARED, 0, 9⟩,
   ⟨"client2", 12, "ack2", ENTRYLOCKTYPE_EXCLUSIVE ||| ENTRYLOCKTYPE_SHARED, 0, 9⟩]

/-- Not every run of requests leaves the waiters blocked, and none of the conditions can be
dropped. -/
theorem not_waiters_blocked :
    (¬ ∀ (junk : EntryLockDetails) (requests : List EntryLockDetails),
      (∀ r ∈ requests, r.lockTypeFlags.NotBothModes) →
      EntryWaitersBlocked
        (Run.after flockEntryStep (EntryLockQueuesContainer.init junk) requests)) ∧
    (¬ ∀ (junk : EntryLockDetails) (requests : List EntryLockDetails),
      (∀ r ∈ requests, r.isSet = true) →
      EntryWaitersBlocked
        (Run.after flockEntryStep (EntryLockQueuesContainer.init junk) requests)) ∧
    (¬ ∀ requests : List RangeLockDetails, (∀ r ∈ requests, r.lockTypeFlags.NotBothModes) →
      RangeWaitersBlocked (Run.after flockRangeStep RangeLockQueues.empty requests)) ∧
    ¬ ∀ requests : List RangeLockDetails, (∀ r ∈ requests, r.Valid) →
      RangeWaitersBlocked (Run.after flockRangeStep RangeLockQueues.empty requests) := by
  refine ⟨?_, ?_, ?_, ?_⟩
  · intro h
    have hLast := h ⟨"", 0, 0, "", 0⟩ clientlessWriter (by decide)
    revert hLast
    decide
  · intro h
    have hLast := h ⟨"", 0, 0, "", 0⟩ bothModesEntry (by decide)
    revert hLast
    decide
  · intro h
    have hWriters := (h emptyRange (by decide)).1
    have hFirst := hWriters 0
      ⟨"client2", 12, "ack3", LockTypeFlags.ENTRYLOCKTYPE_EXCLUSIVE, 16, 18⟩ (by decide)
    revert hFirst
    decide
  · intro h
    have hReaders := (h bothModesRange (by decide)).2
    have hFirst := hReaders ⟨"client2", 12, "ack2", LockTypeFlags.ENTRYLOCKTYPE_EXCLUSIVE |||
      LockTypeFlags.ENTRYLOCKTYPE_SHARED, 0, 9⟩ (by decide)
    rcases hFirst with ⟨x, hx, -⟩ | ⟨x, hx, -⟩
    · revert x
      decide
    · revert x
      decide

end Fhgfs.Locking
