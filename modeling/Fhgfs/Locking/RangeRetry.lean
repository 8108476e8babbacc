import Fhgfs.Locking.RangeSteps

/-!
# Retrying the range lock waiters

`flockRangeTryNextWaiters` runs over the exclusive and then over the shared waiters and grants
those without conflictors. The rules of this module reduce a property of the whole retry to
the single grants: `afterExclGrant` and `afterSharedGrant` are the states after one grant, with
the waiter taken out of its queue and of the register.

* `tryNextExclWaiters_rule`, `tryNextSharedWaiters_rule`: for properties that speak of the
  waiters that were passed over.
* `flockRangeTryNextWaiters_rule`: for properties of the state and the notify list.
* `retryGrants` lists the grants of a retry, each with the state before it; the rules pass a
  condition on these to the single grants.
-/

namespace Fhgfs.Locking

open RangeLockDetails List

/-- The state after the grant of the exclusive waiter `iter`, between `kept` and `rest`. -/
def afterExclGrant (kept rest : List RangeLockDetails) (iter : RangeLockDetails)
    (q : RangeLockQueues) : RangeLockQueues :=
  { (flockRangeExclusive iter q).2 with
    waitersExclRangeFLock := kept ++ rest
    waitersLockIDsRangeFLock := q.waitersLockIDsRangeFLock.erase iter.lockAckID }

/-- The state after the grant of the shared waiter `iter`, between `kept` and `rest`. -/
def afterSharedGrant (kept rest : List RangeLockDetails) (iter : RangeLockDetails)
    (q : RangeLockQueues) : RangeLockQueues :=
  { (flockRangeShared iter q).2 with
    waitersSharedRangeFLock := kept ++ rest
    waitersLockIDsRangeFLock := q.waitersLockIDsRangeFLock.erase iter.lockAckID }

section Frames

variable (kept rest : List RangeLockDetails) (iter : RangeLockDetails) (q : RangeLockQueues)

theorem flockRangeExclusive_same :
    (flockRangeExclusive iter q).1.handle = iter.handle ∧
    (flockRangeExclusive iter q).1.lockAckID = iter.lockAckID := by
  obtain ⟨gone, hAbsorbs, -⟩ := flockRangeExclusive_granted (d := iter) (q := q)
  exact ⟨hAbsorbs.same.1, hAbsorbs.same.2.1⟩

theorem flockRangeShared_same :
    (flockRangeShared iter q).1.handle = iter.handle ∧
    (flockRangeShared iter q).1.lockAckID = iter.lockAckID := by
  obtain ⟨gone, hAbsorbs, -⟩ := flockRangeShared_granted (d := iter) (q := q)
  exact ⟨hAbsorbs.same.1, hAbsorbs.same.2.1⟩

@[simp] theorem afterExclGrant_waitersExcl :
    (afterExclGrant kept rest iter q).waitersExclRangeFLock = kept ++ rest := rfl

@[simp] theorem afterExclGrant_waitersShared :
    (afterExclGrant kept rest iter q).waitersSharedRangeFLock = q.waitersSharedRangeFLock := rfl

@[simp] theorem afterSharedGrant_waitersExcl :
    (afterSharedGrant kept rest iter q).waitersExclRangeFLock = q.waitersExclRangeFLock := rfl

@[simp] theorem afterSharedGrant_waitersShared :
    (afterSharedGrant kept rest iter q).waitersSharedRangeFLock = kept ++ rest := rfl

end Frames

/-! ## The grants of a retry -/

/-- The grants of the loop over the exclusive waiters, each with the state before it. -/
def exclRetryGrants (kept : List RangeLockDetails) :
    List RangeLockDetails → RangeLockQueues → List (RangeLockQueues × RangeLockDetails)
  | [], _ => []
  | iter :: rest, q =>
    let now := { q with waitersExclRangeFLock := kept ++ iter :: rest }
    if (flockRangeCheckConflictsEx iter kept.length now).isSome then
      exclRetryGrants (kept ++ [iter]) rest q
    else
      let granted := flockRangeExclusive iter now
      (now, iter) :: exclRetryGrants kept rest
        { granted.2 with
          waitersLockIDsRangeFLock :=
            granted.2.waitersLockIDsRangeFLock.erase granted.1.lockAckID }

/-- The grants of the loop over the shared waiters, each with the state before it. -/
def sharedRetryGrants (kept : List RangeLockDetails) :
    List RangeLockDetails → RangeLockQueues → List (RangeLockQueues × RangeLockDetails)
  | [], _ => []
  | iter :: rest, q =>
    let now := { q with waitersSharedRangeFLock := kept ++ iter :: rest }
    if (flockRangeCheckConflicts iter q).isSome then
      sharedRetryGrants (kept ++ [iter]) rest q
    else
      let granted := flockRangeShared iter q
      (now, iter) :: sharedRetryGrants kept rest
        { granted.2 with
          waitersLockIDsRangeFLock :=
            granted.2.waitersLockIDsRangeFLock.erase granted.1.lockAckID }

/-- The grants of a retry, each with the state before it. -/
def retryGrants (q : RangeLockQueues) : List (RangeLockQueues × RangeLockDetails) :=
  let excl := tryNextExclWaiters [] q.waitersExclRangeFLock q []
  exclRetryGrants [] q.waitersExclRangeFLock q ++
    sharedRetryGrants [] excl.1.waitersSharedRangeFLock excl.1

/-! ## The rules -/

variable {C : RangeLockQueues → RangeLockDetails → Prop}

section

variable
  {P : List RangeLockDetails → List RangeLockDetails → RangeLockQueues → List RangeLockDetails →
    Prop}

/-- The loop over the exclusive waiters. The waiters of the state are always the kept ones
followed by the remaining ones. -/
theorem tryNextExclWaiters_rule
    (hKeep : ∀ kept iter rest q n, q.waitersExclRangeFLock = kept ++ iter :: rest →
      P kept (iter :: rest) q n → (flockRangeCheckConflictsEx iter kept.length q).isSome = true →
      P (kept ++ [iter]) rest q n)
    (hGrant : ∀ kept iter rest q n, q.waitersExclRangeFLock = kept ++ iter :: rest →
      P kept (iter :: rest) q n → C q iter →
      (flockRangeCheckConflictsEx iter kept.length q).isSome = false →
      P kept rest (afterExclGrant kept rest iter q) (n ++ [(flockRangeExclusive iter q).1]))
    (kept rest : List RangeLockDetails) (q : RangeLockQueues) (n : List RangeLockDetails)
    (hC : ∀ g ∈ exclRetryGrants kept rest q, C g.1 g.2)
    (h : P kept rest { q with waitersExclRangeFLock := kept ++ rest } n) :
    P (tryNextExclWaiters kept rest q n).1.waitersExclRangeFLock []
      (tryNextExclWaiters kept rest q n).1 (tryNextExclWaiters kept rest q n).2 := by
  induction rest generalizing kept q n with
  | nil =>
    rwa [append_nil] at h
  | cons iter rest ih =>
    unfold exclRetryGrants at hC
    unfold tryNextExclWaiters
    simp only at hC ⊢
    split
    · rename_i hConflict
      rw [if_pos hConflict] at hC
      refine ih (kept ++ [iter]) q n hC ?_
      have hKept := hKeep kept iter rest _ n rfl h hConflict
      simpa only [append_assoc, singleton_append] using hKept
    rename_i hFree
    rw [if_neg hFree] at hC
    obtain ⟨hHere, hLater⟩ := forall_mem_cons.mp hC
    have hGranted := hGrant kept iter rest _ n rfl h hHere
      (eq_false_of_ne_true hFree)
    rw [(flockRangeExclusive_same iter _).2] at hLater ⊢
    exact ih kept _ _ hLater hGranted

theorem tryNextSharedWaiters_rule
    (hKeep : ∀ kept iter rest q n, q.waitersSharedRangeFLock = kept ++ iter :: rest →
      P kept (iter :: rest) q n → (flockRangeCheckConflicts iter q).isSome = true →
      P (kept ++ [iter]) rest q n)
    (hGrant : ∀ kept iter rest q n, q.waitersSharedRangeFLock = kept ++ iter :: rest →
      P kept (iter :: rest) q n → C q iter → (flockRangeCheckConflicts iter q).isSome = false →
      P kept rest (afterSharedGrant kept rest iter q) (n ++ [(flockRangeShared iter q).1]))
    (kept rest : List RangeLockDetails) (q : RangeLockQueues) (n : List RangeLockDetails)
    (hC : ∀ g ∈ sharedRetryGrants kept rest q, C g.1 g.2)
    (h : P kept rest { q with waitersSharedRangeFLock := kept ++ rest } n) :
    P (tryNextSharedWaiters kept rest q n).1.waitersSharedRangeFLock []
      (tryNextSharedWaiters kept rest q n).1 (tryNextSharedWaiters kept rest q n).2 := by
  induction rest generalizing kept q n with
  | nil =>
    rwa [append_nil] at h
  | cons iter rest ih =>
    unfold sharedRetryGrants at hC
    unfold tryNextSharedWaiters
    simp only at hC ⊢
    split
    · rename_i hConflict
      rw [if_pos hConflict] at hC
      refine ih (kept ++ [iter]) q n hC ?_
      have hKept := hKeep kept iter rest _ n rfl h hConflict
      simpa only [append_assoc, singleton_append] using hKept
    rename_i hFree
    rw [if_neg hFree] at hC
    obtain ⟨hHere, hLater⟩ := forall_mem_cons.mp hC
    have hGranted := hGrant kept iter rest _ n rfl h hHere
      (eq_false_of_ne_true hFree)
    rw [(flockRangeShared_same iter _).2] at hLater ⊢
    exact ih kept _ _ hLater hGranted

end

section

variable {I : RangeLockQueues → List RangeLockDetails → Prop}

theorem flockRangeTryNextWaiters_rule_of_grants
    (hExcl : ∀ kept iter rest q n, q.waitersExclRangeFLock = kept ++ iter :: rest → I q n →
      C q iter → (flockRangeCheckConflictsEx iter kept.length q).isSome = false →
      I (afterExclGrant kept rest iter q) (n ++ [(flockRangeExclusive iter q).1]))
    (hShared : ∀ kept iter rest q n, q.waitersSharedRangeFLock = kept ++ iter :: rest → I q n →
      C q iter → (flockRangeCheckConflicts iter q).isSome = false →
      I (afterSharedGrant kept rest iter q) (n ++ [(flockRangeShared iter q).1]))
    {q : RangeLockQueues} (hC : ∀ g ∈ retryGrants q, C g.1 g.2) (h : I q []) :
    I (flockRangeTryNextWaiters q).1 (flockRangeTryNextWaiters q).2 := by
  obtain ⟨hExclC, hSharedC⟩ := forall_mem_append.mp hC
  have hFirst := tryNextExclWaiters_rule (P := fun _ _ q n => I q n)
    (fun _ _ _ _ _ _ hI _ => hI) hExcl [] q.waitersExclRangeFLock q [] hExclC h
  exact tryNextSharedWaiters_rule (P := fun _ _ q n => I q n)
    (fun _ _ _ _ _ _ hI _ => hI) hShared [] _ _ _ hSharedC hFirst

theorem flockRangeTryNextWaiters_rule
    (hExcl : ∀ kept iter rest q n, q.waitersExclRangeFLock = kept ++ iter :: rest → I q n →
      (flockRangeCheckConflictsEx iter kept.length q).isSome = false →
      I (afterExclGrant kept rest iter q) (n ++ [(flockRangeExclusive iter q).1]))
    (hShared : ∀ kept iter rest q n, q.waitersSharedRangeFLock = kept ++ iter :: rest → I q n →
      (flockRangeCheckConflicts iter q).isSome = false →
      I (afterSharedGrant kept rest iter q) (n ++ [(flockRangeShared iter q).1]))
    {q : RangeLockQueues} (h : I q []) :
    I (flockRangeTryNextWaiters q).1 (flockRangeTryNextWaiters q).2 :=
  flockRangeTryNextWaiters_rule_of_grants (C := fun _ _ => True)
    (fun kept iter rest q n hWaiters hI _ hFree => hExcl kept iter rest q n hWaiters hI hFree)
    (fun kept iter rest q n hWaiters hI _ hFree => hShared kept iter rest q n hWaiters hI hFree)
    (fun _ _ => trivial) h

end

end Fhgfs.Locking
