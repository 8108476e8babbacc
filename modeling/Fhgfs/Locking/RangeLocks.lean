import Fhgfs.Locking.RangeUnlockLoop
import Fhgfs.Locking.RangeMergeLoop

/-!
# The range lock manager of a file inode

The `fcntl()` range lock queues of one `FileInode` and the functions of `FileInode.cpp` that
work on them. `flockRangeUnlocked` is the request function of `rangeLockManager`; the order of
its tests and steps is `LockManager.request`, as for entry locks.

* `flockRangeCheckConflictsEx_isSome`: when a request has conflictors.
* `flockRangeCheckConflicts_isSome`: the same for a new request, which all exclusive waiters
  can hold back.
-/

namespace Fhgfs.Locking

open RangeLockDetails List

abbrev RangeLockExclSet := OrderedSet keyExcl

abbrev RangeLockSharedSet := OrderedSet keyShared

/-- The range lock members of a `FileInode`. -/
structure RangeLockQueues where
  exclRangeFLocks : RangeLockExclSet
  sharedRangeFLocks : RangeLockSharedSet
  waitersExclRangeFLock : List RangeLockDetails
  waitersSharedRangeFLock : List RangeLockDetails
  waitersLockIDsRangeFLock : StringSet
deriving DecidableEq

def RangeLockQueues.empty : RangeLockQueues where
  exclRangeFLocks := OrderedSet.empty
  sharedRangeFLocks := OrderedSet.empty
  waitersExclRangeFLock := []
  waitersSharedRangeFLock := []
  waitersLockIDsRangeFLock := OrderedSet.empty

/-- The exclusive locks that a loop bounded by `iterExcl->start <= lockDetails.end` visits. -/
def RangeLockQueues.exclUpTo (q : RangeLockQueues) (lockDetails : RangeLockDetails) :
    List RangeLockDetails :=
  q.exclRangeFLocks.elems.takeWhile (fun iterExcl => iterExcl.start ≤ lockDetails.stop)

/-! ## The steps of the manager -/

/-- Another handle's lock that overlaps the request. -/
def rangeConflict (lockDetails iter : RangeLockDetails) : Bool :=
  lockDetails.overlaps iter && !lockDetails.equalsHandle iter

/-- The loop over the waiting writers; a negative number checks all of them. -/
def rangeCheckWaiters (lockDetails : RangeLockDetails) :
    Int → List RangeLockDetails → Option RangeLockDetails
  | _, [] => none
  | maxExclWaitersCheckNum, iter :: rest =>
    if maxExclWaitersCheckNum = 0 then none
    else if rangeConflict lockDetails iter then some iter
    else rangeCheckWaiters lockDetails (maxExclWaitersCheckNum - 1) rest

variable (lockDetails : RangeLockDetails)

/-- The first identified conflicting lock, none when the request can be granted. -/
def flockRangeCheckConflictsEx (maxExclWaitersCheckNum : Int)
    (q : RangeLockQueues) : Option RangeLockDetails :=
  ((q.exclUpTo lockDetails).find? (rangeConflict lockDetails)).or <|
    (if lockDetails.isExclusive then
      q.sharedRangeFLocks.elems.find? (rangeConflict lockDetails)
    else none).or <|
    rangeCheckWaiters lockDetails maxExclWaitersCheckNum q.waitersExclRangeFLock

def flockRangeCheckConflicts (q : RangeLockQueues) : Option RangeLockDetails :=
  flockRangeCheckConflictsEx lockDetails (-1) q

def flockRangeIsGranted (q : RangeLockQueues) : Bool :=
  if lockDetails.isExclusive then rangeGrantedLoop lockDetails (q.exclUpTo lockDetails)
  else if lockDetails.isShared then rangeGrantedLoop lockDetails q.sharedRangeFLocks.elems
  else false

/-- The second component tells whether an existing lock was removed. The shared locks are
looked at only if the loop over the exclusive ones did not return. -/
def flockRangeUnlock (q : RangeLockQueues) : RangeLockQueues × Bool :=
  let excl := rangeUnlockLoop lockDetails (q.exclUpTo lockDetails) q.exclRangeFLocks false
  if excl.returned then ({ q with exclRangeFLocks := excl.locks }, true)
  else
    let shared := rangeUnlockLoop lockDetails q.sharedRangeFLocks.elems q.sharedRangeFLocks
      excl.lockRemoved
    ({ q with exclRangeFLocks := excl.locks, sharedRangeFLocks := shared.locks },
      shared.lockRemoved)

/-- Merge the mergeable shared locks of the handle into the lock, and insert it. The first
component is the merged lock: `lockDetails` is changed in place. -/
def flockRangeShared (q : RangeLockQueues) : RangeLockDetails × RangeLockQueues :=
  let merged := rangeMergeLoop (fun _ _ => true) lockDetails q.sharedRangeFLocks.elems
    q.sharedRangeFLocks
  (merged.1, { q with sharedRangeFLocks := merged.2.insert merged.1 })

def flockRangeExclusive (q : RangeLockQueues) : RangeLockDetails × RangeLockQueues :=
  let merged := rangeMergeLoop (fun l iterExcl => iterExcl.start ≤ l.stop + 1) lockDetails
    q.exclRangeFLocks.elems q.exclRangeFLocks
  (merged.1, { q with exclRangeFLocks := merged.2.insert merged.1 })

/-- Remove all granted and pending locks that `hit` selects. The second component tells
whether anything was removed. -/
def flockRangeCancelWhere (hit : RangeLockDetails → Bool) (q : RangeLockQueues) :
    RangeLockQueues × Bool :=
  ({ exclRangeFLocks := q.exclRangeFLocks.filter (fun l => !hit l)
     sharedRangeFLocks := q.sharedRangeFLocks.filter (fun l => !hit l)
     waitersExclRangeFLock := q.waitersExclRangeFLock.filter (fun l => !hit l)
     waitersSharedRangeFLock := q.waitersSharedRangeFLock.filter (fun l => !hit l)
     waitersLockIDsRangeFLock :=
       eraseTickets RangeLockDetails.lockAckID (q.waitersSharedRangeFLock.filter hit)
         (eraseTickets RangeLockDetails.lockAckID (q.waitersExclRangeFLock.filter hit)
           q.waitersLockIDsRangeFLock) },
   q.exclRangeFLocks.elems.any hit || q.sharedRangeFLocks.elems.any hit ||
     q.waitersExclRangeFLock.any hit || q.waitersSharedRangeFLock.any hit)

def flockRangeCancelByHandle (q : RangeLockQueues) : RangeLockQueues × Bool :=
  flockRangeCancelWhere lockDetails.equalsHandle q

/-- The loop over the exclusive waiters. `kept` are the waiters before the current one, which
are the ones that it is checked against. -/
def tryNextExclWaiters (kept : List RangeLockDetails) :
    List RangeLockDetails → RangeLockQueues → List RangeLockDetails →
      RangeLockQueues × List RangeLockDetails
  | [], q, notifyList => ({ q with waitersExclRangeFLock := kept }, notifyList)
  | iter :: rest, q, notifyList =>
    let now := { q with waitersExclRangeFLock := kept ++ iter :: rest }
    if (flockRangeCheckConflictsEx iter kept.length now).isSome then
      tryNextExclWaiters (kept ++ [iter]) rest q notifyList
    else
      let granted := flockRangeExclusive iter now
      tryNextExclWaiters kept rest
        { granted.2 with
          waitersLockIDsRangeFLock :=
            granted.2.waitersLockIDsRangeFLock.erase granted.1.lockAckID }
        (notifyList ++ [granted.1])

def tryNextSharedWaiters (kept : List RangeLockDetails) :
    List RangeLockDetails → RangeLockQueues → List RangeLockDetails →
      RangeLockQueues × List RangeLockDetails
  | [], q, notifyList => ({ q with waitersSharedRangeFLock := kept }, notifyList)
  | iter :: rest, q, notifyList =>
    if (flockRangeCheckConflicts iter q).isSome then
      tryNextSharedWaiters (kept ++ [iter]) rest q notifyList
    else
      let granted := flockRangeShared iter q
      tryNextSharedWaiters kept rest
        { granted.2 with
          waitersLockIDsRangeFLock :=
            granted.2.waitersLockIDsRangeFLock.erase granted.1.lockAckID }
        (notifyList ++ [granted.1])

/-- Grant what can be granted from the waiter queues. The second component is the notify
list. -/
def flockRangeTryNextWaiters (q : RangeLockQueues) : RangeLockQueues × List RangeLockDetails :=
  let excl := tryNextExclWaiters [] q.waitersExclRangeFLock q []
  tryNextSharedWaiters [] excl.1.waitersSharedRangeFLock excl.1 excl.2

/-! ## Requests -/

def flockRangeEnqueue (q : RangeLockQueues) : RangeLockQueues :=
  let waitersLockIDsRangeFLock := q.waitersLockIDsRangeFLock.insert lockDetails.lockAckID
  if lockDetails.isShared then
    { q with
      waitersSharedRangeFLock := q.waitersSharedRangeFLock ++ [lockDetails]
      waitersLockIDsRangeFLock }
  else
    { q with
      waitersExclRangeFLock := q.waitersExclRangeFLock ++ [lockDetails]
      waitersLockIDsRangeFLock }

/-- Place a lock request that has no conflictors. -/
def flockRangeGrant (q : RangeLockQueues) : RangeLockQueues :=
  if lockDetails.isShared then (flockRangeShared lockDetails q).2
  else (flockRangeExclusive lockDetails q).2

def rangeLockManager : LockManager RangeLockDetails RangeLockQueues where
  kind r := r.lockTypeFlags.kind
  allowsWaiting := RangeLockDetails.allowsWaiting
  isWaiting r q := q.waitersLockIDsRangeFLock.contains r.lockAckID
  isGranted := flockRangeIsGranted
  hasConflicts r q := (flockRangeCheckConflicts r q).isSome
  cancel := flockRangeCancelByHandle
  unlock := flockRangeUnlock
  grant := flockRangeGrant
  enqueue := flockRangeEnqueue
  tryNextWaiters := flockRangeTryNextWaiters

def flockRangeUnlocked (q : RangeLockQueues) : LockManager.Reply RangeLockDetails RangeLockQueues :=
  rangeLockManager.request lockDetails q

/-- One request, seen as a transition of the queues. -/
def flockRangeStep (q : RangeLockQueues) (lockDetails : RangeLockDetails) : RangeLockQueues :=
  (flockRangeUnlocked lockDetails q).state

/-- Unlock all locks and wait entries of the given client. -/
def flockRangeCancelByClientID (clientID : String) (q : RangeLockQueues) : RangeLockQueues :=
  let cancelled := flockRangeCancelWhere (fun l => l.clientID == clientID) q
  if cancelled.2 then (flockRangeTryNextWaiters cancelled.1).1 else cancelled.1

/-! ## Conflicts -/

section Conflicts

variable {d : RangeLockDetails} {q : RangeLockQueues}

theorem mem_exclUpTo {x : RangeLockDetails} :
    x ∈ q.exclUpTo d ↔ x ∈ q.exclRangeFLocks ∧ x.start.toNat ≤ d.stop.toNat := by
  unfold RangeLockQueues.exclUpTo
  rw [OrderedSet.mem_takeWhile]
  · simp [UInt64.le_iff_toNat_le]
  · intro x y hlt hy
    simp only [decide_eq_true_eq, UInt64.le_iff_toNat_le] at hy ⊢
    unfold keyExcl at hlt
    omega

theorem rangeConflict_iff {x : RangeLockDetails} (hd : d.Valid) (hx : x.Valid) :
    rangeConflict d x = true ↔ x.handle ≠ d.handle ∧ ∃ b, d.covers b ∧ x.covers b := by
  rw [← overlaps_iff_exists hd hx]
  simp only [rangeConflict, Bool.and_eq_true, Bool.not_eq_true', ← Bool.not_eq_true,
    equalsHandle_iff, ne_comm]
  tauto

theorem rangeCheckWaiters_isSome_take {n : Nat} {ws : List RangeLockDetails} :
    (rangeCheckWaiters d n ws).isSome = true ↔ ∃ w ∈ ws.take n, rangeConflict d w = true := by
  induction ws generalizing n with
  | nil => simp [rangeCheckWaiters]
  | cons w ws ih =>
    cases n with
    | zero => simp [rangeCheckWaiters]
    | succ n =>
      have hPos : ((n + 1 : Nat) : Int) ≠ 0 := by omega
      have hPred : ((n + 1 : Nat) : Int) - 1 = n := by omega
      simp only [rangeCheckWaiters, if_neg hPos, hPred, take_succ_cons, mem_cons,
        exists_eq_or_imp, ← ih]
      split
      · simp [*]
      · simp [*]

theorem rangeCheckWaiters_isSome_all {n : Int} (hn : n < 0) {ws : List RangeLockDetails} :
    (rangeCheckWaiters d n ws).isSome = true ↔ ∃ w ∈ ws, rangeConflict d w = true := by
  induction ws generalizing n with
  | nil => simp [rangeCheckWaiters]
  | cons w ws ih =>
    simp only [rangeCheckWaiters, if_neg hn.ne, mem_cons, exists_eq_or_imp]
    rw [← ih (n := n - 1) (by omega)]
    split
    · simp [*]
    · simp [*]

/-- The granted locks that conflict with a request: exclusive ones, for an exclusive request
also shared ones. -/
def GrantedConflict (d : RangeLockDetails) (q : RangeLockQueues) : Prop :=
  (∃ x ∈ q.exclRangeFLocks, rangeConflict d x = true) ∨
  (d.isExclusive = true ∧ ∃ x ∈ q.sharedRangeFLocks, rangeConflict d x = true)

theorem granted_isSome :
    ((q.exclUpTo d).find? (rangeConflict d)).isSome = true ∨
      (if d.isExclusive then q.sharedRangeFLocks.elems.find? (rangeConflict d)
        else none).isSome = true ↔
    GrantedConflict d q := by
  refine or_congr ?_ ?_
  · rw [find?_isSome]
    constructor
    · rintro ⟨x, hx, hConflict⟩
      exact ⟨x, (mem_exclUpTo.mp hx).1, hConflict⟩
    · rintro ⟨x, hx, hConflict⟩
      refine ⟨x, mem_exclUpTo.mpr ⟨hx, ?_⟩, hConflict⟩
      simp only [rangeConflict, Bool.and_eq_true, overlaps_iff] at hConflict
      exact hConflict.1.2
  · split
    · rename_i hMode
      rw [find?_isSome]
      simp only [hMode, true_and]
      rfl
    · rename_i hMode
      simp [hMode]

theorem flockRangeCheckConflictsEx_isSome {n : Nat} :
    (flockRangeCheckConflictsEx d n q).isSome = true ↔
      GrantedConflict d q ∨
      ∃ w ∈ q.waitersExclRangeFLock.take n, rangeConflict d w = true := by
  unfold flockRangeCheckConflictsEx
  rw [Option.isSome_or, Option.isSome_or, Bool.or_eq_true, Bool.or_eq_true, ← or_assoc,
    granted_isSome, rangeCheckWaiters_isSome_take]

theorem flockRangeCheckConflicts_isSome :
    (flockRangeCheckConflicts d q).isSome = true ↔
      GrantedConflict d q ∨
      ∃ w ∈ q.waitersExclRangeFLock, rangeConflict d w = true := by
  unfold flockRangeCheckConflicts flockRangeCheckConflictsEx
  rw [Option.isSome_or, Option.isSome_or, Bool.or_eq_true, Bool.or_eq_true, ← or_assoc,
    granted_isSome, rangeCheckWaiters_isSome_all (by omega)]

end Conflicts

theorem flockRangeCancelWhere_unchanged {hit : RangeLockDetails → Bool} {q : RangeLockQueues}
    (h : (flockRangeCancelWhere hit q).2 = false) : (flockRangeCancelWhere hit q).1 = q := by
  obtain ⟨excl, shared, wE, wS, ids⟩ := q
  simp only [flockRangeCancelWhere, Bool.or_eq_false_iff, any_eq_false, Bool.not_eq_true] at h
  obtain ⟨⟨⟨hExcl, hShared⟩, hWE⟩, hWS⟩ := h
  obtain ⟨hNoneE, hRestE⟩ := filter_of_none hWE
  obtain ⟨hNoneS, hRestS⟩ := filter_of_none hWS
  simp only [flockRangeCancelWhere, hNoneE, hRestE, hNoneS, hRestS, eraseTickets, foldl_nil]
  rw [OrderedSet.filter_eq_self fun l hl => by simp [hExcl l hl],
    OrderedSet.filter_eq_self fun l hl => by simp [hShared l hl]]

end Fhgfs.Locking
