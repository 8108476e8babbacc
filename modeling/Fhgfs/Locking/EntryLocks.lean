import Fhgfs.Locking.EntryLockDetails

/-!
# The entry lock manager of a file inode

The `flock()` and append lock queues of one `FileInode` and the functions of `FileInode.cpp`
that work on them. A request is answered by `flockEntryUnlocked`, which runs under the write
lock of the inode; its reply is the new state of the queues, the return value and the waiters
put on the notify list. The order of the tests and steps of a request is the same for entry
and range locks; it is `LockManager.request`.

* `flockEntryUnlock_cases` and `flockEntryTryNextWaiters_cases` say once what an unlock and a
  retry of the waiters can do; the later modules only use these.
* `entryLockManager` puts the steps together; `flockEntryUnlocked` is its request function.
-/

namespace Fhgfs.Locking

open EntryLockDetails OrderedSet List

/-- The queues of one lock type. Out of `clientID`, an unset `exclLock` keeps the fields of
the lock it was before. -/
structure EntryLockQueuesContainer where
  exclLock : EntryLockDetails
  sharedLocks : EntryLockDetailsSet
  waitersExclLock : List EntryLockDetails
  waitersSharedLock : List EntryLockDetails
  waitersLockIDs : StringSet
deriving DecidableEq

/-- No locks and no waiters. The constructor of an unset lock leaves the fields other than
`clientID` uninitialised, here those of `junk`. -/
def EntryLockQueuesContainer.init (junk : EntryLockDetails) : EntryLockQueuesContainer where
  exclLock := junk.unset
  sharedLocks := OrderedSet.empty
  waitersExclLock := []
  waitersSharedLock := []
  waitersLockIDs := OrderedSet.empty

/-! ## The steps of the manager -/

/-- The first identified conflicting lock, none when the request can be granted. -/
def flockEntryCheckConflicts (lockDetails : EntryLockDetails)
    (lockQs : EntryLockQueuesContainer) : Option EntryLockDetails :=
  if lockQs.exclLock.isSet && !lockQs.exclLock.equalsHandle lockDetails then
    some lockQs.exclLock
  else if lockDetails.isExclusive then
    lockQs.sharedLocks.elems.find? (fun iterShared => !iterShared.equalsHandle lockDetails)
  else
    -- writer preference: any waiting writer is a conflict, whoever owns it
    lockQs.waitersExclLock.head?

def flockEntryIsGranted (lockDetails : EntryLockDetails) (lockQs : EntryLockQueuesContainer) :
    Bool :=
  if lockDetails.isExclusive then lockQs.exclLock.equalsHandle lockDetails
  else if lockDetails.isShared then lockQs.sharedLocks.contains lockDetails
  else false

/-- The second component tells whether an existing lock was released. -/
def flockEntryUnlock (lockDetails : EntryLockDetails) (lockQs : EntryLockQueuesContainer) :
    EntryLockQueuesContainer × Bool :=
  if lockQs.exclLock.equalsHandle lockDetails then
    ({ lockQs with exclLock := lockQs.exclLock.unset }, true)
  else if lockQs.sharedLocks.contains lockDetails then
    ({ lockQs with sharedLocks := lockQs.sharedLocks.erase lockDetails }, true)
  else (lockQs, false)

def flockEntryShared (lockDetails : EntryLockDetails) (lockQs : EntryLockQueuesContainer) :
    EntryLockQueuesContainer :=
  { lockQs with sharedLocks := lockQs.sharedLocks.insert lockDetails }

def flockEntryExclusive (lockDetails : EntryLockDetails) (lockQs : EntryLockQueuesContainer) :
    EntryLockQueuesContainer :=
  { lockQs with exclLock := lockDetails }

/-- Remove all granted and pending locks that `hit` selects. The second component tells
whether anything was removed. -/
def flockEntryCancelWhere (hit : EntryLockDetails → Bool)
    (lockQs : EntryLockQueuesContainer) : EntryLockQueuesContainer × Bool :=
  let exclHit := lockQs.exclLock.isSet && hit lockQs.exclLock
  ({ exclLock := if exclHit then lockQs.exclLock.unset else lockQs.exclLock
     sharedLocks := lockQs.sharedLocks.filter (fun l => !hit l)
     waitersExclLock := lockQs.waitersExclLock.filter (fun l => !hit l)
     waitersSharedLock := lockQs.waitersSharedLock.filter (fun l => !hit l)
     waitersLockIDs :=
       eraseTickets EntryLockDetails.lockAckID (lockQs.waitersSharedLock.filter hit)
         (eraseTickets EntryLockDetails.lockAckID (lockQs.waitersExclLock.filter hit)
           lockQs.waitersLockIDs) },
   exclHit || lockQs.sharedLocks.elems.any hit || lockQs.waitersExclLock.any hit ||
     lockQs.waitersSharedLock.any hit)

def flockEntryCancelByHandle (lockDetails : EntryLockDetails)
    (lockQs : EntryLockQueuesContainer) : EntryLockQueuesContainer × Bool :=
  flockEntryCancelWhere lockDetails.equalsHandle lockQs

/-- Grant what can be granted from the waiter queues. The second component is the notify
list. -/
def flockEntryTryNextWaiters (lockQs : EntryLockQueuesContainer) :
    EntryLockQueuesContainer × List EntryLockDetails :=
  if lockQs.exclLock.isSet then (lockQs, [])
  else if !lockQs.waitersSharedLock.isEmpty && lockQs.waitersExclLock.isEmpty then
    ({ lockQs with
       sharedLocks := lockQs.waitersSharedLock.foldl OrderedSet.insert lockQs.sharedLocks
       waitersSharedLock := []
       waitersLockIDs :=
         eraseTickets EntryLockDetails.lockAckID lockQs.waitersSharedLock
           lockQs.waitersLockIDs },
     lockQs.waitersSharedLock)
  else
    match lockQs.waitersExclLock with
    | [] => (lockQs, [])
    | w :: ws =>
      -- the shared locks are not looked at here
      ({ flockEntryExclusive w lockQs with
         waitersExclLock := ws
         waitersLockIDs := lockQs.waitersLockIDs.erase w.lockAckID },
       [w])

/-! ## Requests -/

def flockEntryEnqueue (lockDetails : EntryLockDetails) (lockQs : EntryLockQueuesContainer) :
    EntryLockQueuesContainer :=
  let waitersLockIDs := lockQs.waitersLockIDs.insert lockDetails.lockAckID
  if lockDetails.isShared then
    { lockQs with
      waitersSharedLock := lockQs.waitersSharedLock ++ [lockDetails]
      waitersLockIDs }
  else
    { lockQs with
      waitersExclLock := lockQs.waitersExclLock ++ [lockDetails]
      waitersLockIDs }

/-- Place a lock request that has no conflictors. -/
def flockEntryGrant (lockDetails : EntryLockDetails) (lockQs : EntryLockQueuesContainer) :
    EntryLockQueuesContainer :=
  if lockDetails.isShared then flockEntryShared lockDetails lockQs
  else flockEntryExclusive lockDetails lockQs

def entryLockManager : LockManager EntryLockDetails EntryLockQueuesContainer where
  kind r := r.lockTypeFlags.kind
  allowsWaiting := EntryLockDetails.allowsWaiting
  isWaiting r lockQs := lockQs.waitersLockIDs.contains r.lockAckID
  isGranted := flockEntryIsGranted
  hasConflicts r lockQs := (flockEntryCheckConflicts r lockQs).isSome
  cancel := flockEntryCancelByHandle
  unlock := flockEntryUnlock
  grant := flockEntryGrant
  enqueue := flockEntryEnqueue
  tryNextWaiters := flockEntryTryNextWaiters

def flockEntryUnlocked (lockDetails : EntryLockDetails) (lockQs : EntryLockQueuesContainer) :
    LockManager.Reply EntryLockDetails EntryLockQueuesContainer :=
  entryLockManager.request lockDetails lockQs

/-- One request, seen as a transition of the queues. -/
def flockEntryStep (lockQs : EntryLockQueuesContainer) (lockDetails : EntryLockDetails) :
    EntryLockQueuesContainer :=
  (flockEntryUnlocked lockDetails lockQs).state

/-! ## What the steps can do -/

section Cases

variable {lockDetails : EntryLockDetails} {lockQs : EntryLockQueuesContainer}

theorem flockEntryCheckConflicts_isSome :
    (flockEntryCheckConflicts lockDetails lockQs).isSome = true ↔
      (lockQs.exclLock.isSet = true ∧ lockQs.exclLock.handle ≠ lockDetails.handle) ∨
      (lockDetails.isExclusive = true ∧ ∃ l ∈ lockQs.sharedLocks, l.handle ≠ lockDetails.handle) ∨
      (lockDetails.isExclusive = false ∧ lockQs.waitersExclLock ≠ []) := by
  unfold flockEntryCheckConflicts
  split
  · rename_i hExcl
    simp only [Bool.and_eq_true, Bool.not_eq_true', ← Bool.not_eq_true, equalsHandle_iff] at hExcl
    simp [hExcl]
  rename_i hExcl
  simp only [Bool.and_eq_true, Bool.not_eq_true', ← Bool.not_eq_true, equalsHandle_iff] at hExcl
  split
  · rename_i hMode
    simp only [hExcl, false_or, hMode, true_and, Bool.true_eq_false, false_and, or_false]
    rw [find?_isSome]
    simp only [Bool.not_eq_true', ← Bool.not_eq_true, equalsHandle_iff]
    rfl
  · rename_i hMode
    simp only [hExcl, false_or, hMode, true_and]
    cases lockQs.waitersExclLock <;> simp

theorem contains_sharedLocks :
    lockQs.sharedLocks.contains lockDetails = true ↔
      ∃ l ∈ lockQs.sharedLocks, l.handle = lockDetails.handle :=
  contains_iff

theorem flockEntryUnlock_cases (lockDetails : EntryLockDetails)
    (lockQs : EntryLockQueuesContainer) :
    (lockQs.exclLock.handle = lockDetails.handle ∧
      flockEntryUnlock lockDetails lockQs =
        ({ lockQs with exclLock := lockQs.exclLock.unset }, true)) ∨
    (lockQs.exclLock.handle ≠ lockDetails.handle ∧
      (∃ l ∈ lockQs.sharedLocks, l.handle = lockDetails.handle) ∧
      flockEntryUnlock lockDetails lockQs =
        ({ lockQs with sharedLocks := lockQs.sharedLocks.erase lockDetails }, true)) ∨
    (lockQs.exclLock.handle ≠ lockDetails.handle ∧
      (∀ l ∈ lockQs.sharedLocks, l.handle ≠ lockDetails.handle) ∧
      flockEntryUnlock lockDetails lockQs = (lockQs, false)) := by
  unfold flockEntryUnlock
  split
  · rename_i hExcl
    exact Or.inl ⟨equalsHandle_iff.mp hExcl, rfl⟩
  rename_i hExcl
  rw [equalsHandle_iff] at hExcl
  split
  · rename_i hShared
    exact Or.inr (Or.inl ⟨hExcl, contains_sharedLocks.mp hShared, rfl⟩)
  · rename_i hShared
    rw [contains_sharedLocks] at hShared
    exact Or.inr (Or.inr ⟨hExcl, fun l hl heq => hShared ⟨l, hl, heq⟩, rfl⟩)

section Cancel

private theorem own_iff (l : EntryLockDetails) :
    lockDetails.equalsHandle l = true ↔ l.handle = lockDetails.handle :=
  equalsHandle_iff.trans eq_comm

theorem flockEntryCancelByHandle_removed :
    (flockEntryCancelByHandle lockDetails lockQs).2 = true ↔
      (lockQs.exclLock.isSet = true ∧ lockQs.exclLock.handle = lockDetails.handle) ∨
      (∃ l ∈ lockQs.sharedLocks, l.handle = lockDetails.handle) ∨
      (∃ w ∈ lockQs.waitersExclLock, w.handle = lockDetails.handle) ∨
      ∃ w ∈ lockQs.waitersSharedLock, w.handle = lockDetails.handle := by
  simp only [flockEntryCancelByHandle, flockEntryCancelWhere, Bool.or_eq_true,
    Bool.and_eq_true, any_eq_true, own_iff, or_assoc, mem_def]

@[simp] theorem cancel_isSet :
    (flockEntryCancelByHandle lockDetails lockQs).1.exclLock.isSet = true ↔
      lockQs.exclLock.isSet = true ∧ lockQs.exclLock.handle ≠ lockDetails.handle := by
  simp only [flockEntryCancelByHandle, flockEntryCancelWhere, Bool.and_eq_true, own_iff]
  split
  · rename_i h
    simp [h]
  · rename_i h
    tauto

@[simp] theorem mem_cancel_sharedLocks {l : EntryLockDetails} :
    l ∈ (flockEntryCancelByHandle lockDetails lockQs).1.sharedLocks ↔
      l ∈ lockQs.sharedLocks ∧ l.handle ≠ lockDetails.handle := by
  simp only [flockEntryCancelByHandle, flockEntryCancelWhere, OrderedSet.mem_filter,
    Bool.not_eq_true', ← Bool.not_eq_true, own_iff, ne_eq]

@[simp] theorem mem_cancel_waitersExclLock {w : EntryLockDetails} :
    w ∈ (flockEntryCancelByHandle lockDetails lockQs).1.waitersExclLock ↔
      w ∈ lockQs.waitersExclLock ∧ w.handle ≠ lockDetails.handle := by
  simp only [flockEntryCancelByHandle, flockEntryCancelWhere, mem_filter,
    Bool.not_eq_true', ← Bool.not_eq_true, own_iff, ne_eq]

theorem flockEntryCancelByHandle_unchanged
    (h : (flockEntryCancelByHandle lockDetails lockQs).2 = false) :
    (flockEntryCancelByHandle lockDetails lockQs).1 = lockQs := by
  obtain ⟨excl, shared, wE, wS, ids⟩ := lockQs
  simp only [flockEntryCancelByHandle, flockEntryCancelWhere, Bool.or_eq_false_iff,
    any_eq_false, Bool.not_eq_true] at h
  obtain ⟨⟨⟨hExcl, hShared⟩, hWE⟩, hWS⟩ := h
  obtain ⟨hNoneE, hRestE⟩ := filter_of_none hWE
  obtain ⟨hNoneS, hRestS⟩ := filter_of_none hWS
  simp only [flockEntryCancelByHandle, flockEntryCancelWhere, hExcl, hNoneE, hRestE, hNoneS,
    hRestS, eraseTickets, foldl_nil]
  rw [filter_eq_self fun l hl => by simp [hShared l hl]]
  rfl

end Cancel

/-- The three outcomes of a retry. Without an exclusive waiter all shared waiters are granted,
which includes the case that there are none. -/
theorem flockEntryTryNextWaiters_cases (lockQs : EntryLockQueuesContainer) :
    (lockQs.exclLock.isSet = true ∧ flockEntryTryNextWaiters lockQs = (lockQs, [])) ∨
    (lockQs.exclLock.isSet = false ∧ lockQs.waitersExclLock = [] ∧
      flockEntryTryNextWaiters lockQs = ({ lockQs with
           sharedLocks := lockQs.waitersSharedLock.foldl insert lockQs.sharedLocks
           waitersSharedLock := []
           waitersLockIDs :=
             eraseTickets lockAckID lockQs.waitersSharedLock
               lockQs.waitersLockIDs },
         lockQs.waitersSharedLock)) ∨
    (lockQs.exclLock.isSet = false ∧ ∃ w ws, lockQs.waitersExclLock = w :: ws ∧
      flockEntryTryNextWaiters lockQs =
        ({ lockQs with
           exclLock := w
           waitersExclLock := ws
           waitersLockIDs := lockQs.waitersLockIDs.erase w.lockAckID },
         [w])) := by
  obtain ⟨excl, shared, wE, wS, ids⟩ := lockQs
  unfold flockEntryTryNextWaiters
  by_cases hSet : excl.isSet = true
  · exact Or.inl ⟨hSet, by simp [hSet]⟩
  have hUnset := eq_false_of_ne_true hSet
  refine Or.inr ?_
  cases wE with
  | nil =>
    refine Or.inl ⟨hUnset, rfl, ?_⟩
    cases wS with
    | nil => simp [hUnset, eraseTickets]
    | cons w ws => simp [hUnset]
  | cons w ws => exact Or.inr ⟨hUnset, w, ws, rfl, by simp [hUnset, flockEntryExclusive]⟩

end Cases

end Fhgfs.Locking
