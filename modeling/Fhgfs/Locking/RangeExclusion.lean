import Fhgfs.Locking.RangeInv

/-!
# Mutual exclusion of range locks

Two granted range locks of different handles that overlap are both shared
(`rangeLocks_exclusion`), in every state that requests and cancels by client reach. The
invariant adds to `RangeInv` that no handle holds a byte shared that another one holds
exclusively, and that the exclusive queue has exclusive requests only: the retry checks a
waiter against the shared locks only if its own flags say so.
-/

namespace Fhgfs.Locking

open RangeLockDetails RangeInv

/-- Granted locks of different handles overlap only if both are shared. -/
def RangeMutualExclusion (q : RangeLockQueues) : Prop :=
  ∀ x ∈ q.exclRangeFLocks, ∀ y, y ∈ q.exclRangeFLocks ∨ y ∈ q.sharedRangeFLocks →
    x.handle ≠ y.handle → x.overlaps y = false

/-- A request of one of the four kinds, for a range that is not empty. -/
def RangeRequest (r : RangeLockDetails) : Prop := r.Valid ∧ r.lockTypeFlags.OneKind

instance (r : RangeLockDetails) : Decidable (RangeRequest r) :=
  inferInstanceAs (Decidable (_ ∧ _))

inductive RangeOp
  | request (r : RangeLockDetails)
  | cancelByClientID (clientID : String)

/-- The transition of an operation on the range locks of the inode. -/
def rangeOpStep (q : RangeLockQueues) : RangeOp → RangeLockQueues
  | .request r => (flockRangeUnlocked r q).state
  | .cancelByClientID clientID => flockRangeCancelByClientID clientID q

structure RangeExclusionInv (q : RangeLockQueues) : Prop extends RangeInv q where
  writersExclusive : ∀ w ∈ q.waitersExclRangeFLock, w.isExclusive = true
  readersApart : ∀ g g' b, Holds q.exclRangeFLocks g b → Holds q.sharedRangeFLocks g' b → g = g'

namespace RangeExclusionInv

variable {q : RangeLockQueues} {d : RangeLockDetails}

theorem empty : RangeExclusionInv RangeLockQueues.empty where
  toRangeInv := RangeInv.empty
  writersExclusive := by simp [RangeLockQueues.empty]
  readersApart := by
    rintro g g' b ⟨x, hx, -⟩
    exact absurd hx (OrderedSet.not_mem_empty x)

variable (h : RangeExclusionInv q)
include h

theorem mutualExclusion : RangeMutualExclusion q := by
  intro x hx y hy hOther
  rw [← Bool.not_eq_true]
  intro hOverlap
  have hyValid : y.Valid := hy.elim (h.exclValid y) (h.sharedValid y)
  obtain ⟨b, hxb, hyb⟩ := (overlaps_iff_exists (h.exclValid x hx) hyValid).mp hOverlap
  have hxHolds : Holds q.exclRangeFLocks x.handle b := ⟨x, hx, rfl, hxb⟩
  rcases hy with hy | hy
  · exact hOther (h.exclApart _ _ b hxHolds ⟨y, hy, rfl, hyb⟩)
  · exact hOther (h.readersApart _ _ b hxHolds ⟨y, hy, rfl, hyb⟩)

/-! ## The steps keep the invariant -/

theorem unlock (hd : d.Valid) : RangeExclusionInv (flockRangeUnlock d q).1 := by
  obtain ⟨hExcl, hShared⟩ := flockRangeUnlock_trimmed hd h.exclValid h.sharedValid
  refine ⟨h.toRangeInv.unlock hd, ?_, ?_⟩
  · rw [(flockRangeUnlock_waiters (d := d) (q := q)).1]
    exact h.writersExclusive
  · intro g g' b hg hg'
    exact h.readersApart g g' b (hExcl.holds_sound hg) (hShared.holds_sound hg')

theorem cancelWhere (hit : RangeLockDetails → Bool) :
    RangeExclusionInv (flockRangeCancelWhere hit q).1 := by
  refine ⟨h.toRangeInv.cancelWhere hit, ?_, ?_⟩
  · intro w hw
    exact h.writersExclusive w (List.mem_filter.mp hw).1
  · intro g g' b hg hg'
    exact h.readersApart g g' b (holds_filter hg) (holds_filter hg')

theorem enqueue (hd : d.Valid) (hMode : d.isShared = !d.isExclusive) :
    RangeExclusionInv (flockRangeEnqueue d q) := by
  refine ⟨h.toRangeInv.enqueue hd, ?_, ?_⟩
  · unfold flockRangeEnqueue
    split
    · exact h.writersExclusive
    · rename_i hShared
      intro w hw
      rcases List.mem_append.mp hw with hw | hw
      · exact h.writersExclusive w hw
      · rw [List.mem_singleton.mp hw]
        simpa [hMode] using hShared
  · unfold flockRangeEnqueue
    split <;> exact h.readersApart

theorem grantExclusive (hd : d.Valid) (hMode : d.isExclusive = true)
    (hFree : ¬ GrantedConflict d q) : RangeExclusionInv (flockRangeExclusive d q).2 := by
  refine ⟨h.toRangeInv.grantExclusive hd hFree, h.writersExclusive, ?_⟩
  intro g g' b hg hg'
  rcases flockRangeExclusive_granted.holds_sound hd h.exclValid hg with hg | ⟨rfl, hb⟩
  · exact h.readersApart g g' b hg hg'
  · exact (h.shared_free hd hMode hFree hg' hb).symm

theorem grantShared (hd : d.Valid) (hFree : ¬ GrantedConflict d q) :
    RangeExclusionInv (flockRangeShared d q).2 := by
  refine ⟨h.toRangeInv.grantShared hd, h.writersExclusive, ?_⟩
  intro g g' b hg hg'
  rcases flockRangeShared_granted.holds_sound hd h.sharedValid hg' with hg' | ⟨rfl, hb⟩
  · exact h.readersApart g g' b hg hg'
  · exact h.excl_free hd hFree hg hb

theorem tryNextWaiters : RangeExclusionInv (flockRangeTryNextWaiters q).1 := by
  refine flockRangeTryNextWaiters_rule (I := fun q _ => RangeExclusionInv q) ?_ ?_ h
  · intro kept iter rest q n hWaiters hq hFree
    have hFree := not_grantedConflict_of_freeEx hFree
    have hIn : iter ∈ q.waitersExclRangeFLock := by simp [hWaiters]
    have hGranted := hq.grantExclusive (hq.waitersExclValid iter hIn)
      (hq.writersExclusive iter hIn) hFree
    exact ⟨hq.toRangeInv.afterExclGrant hWaiters hFree,
      fun w hw => hq.writersExclusive w (mem_of_kept hWaiters hw),
      hGranted.readersApart⟩
  · intro kept iter rest q n hWaiters hq hFree
    have hIn : iter ∈ q.waitersSharedRangeFLock := by simp [hWaiters]
    have hGranted := hq.grantShared (hq.waitersSharedValid iter hIn)
      (not_grantedConflict_of_free hFree)
    exact ⟨hq.toRangeInv.afterSharedGrant hWaiters, hq.writersExclusive, hGranted.readersApart⟩

theorem grant (hd : d.Valid) (hMode : d.isShared = !d.isExclusive)
    (hFree : ¬ GrantedConflict d q) : RangeExclusionInv (flockRangeGrant d q) := by
  unfold flockRangeGrant
  split
  · exact h.grantShared hd hFree
  · rename_i hShared
    exact h.grantExclusive hd (by simpa [hMode] using hShared) hFree

theorem request (hd : RangeRequest d) : RangeExclusionInv (flockRangeUnlocked d q).state := by
  obtain ⟨hValid, hOneKind⟩ := hd
  have hUnlocked := h.unlock hValid
  refine LockManager.step_invariant h (fun _ ht => ht.tryNextWaiters) (h.cancelWhere _)
    hUnlocked ?_ (fun hKind => hUnlocked.enqueue hValid (hOneKind hKind))
  intro hKind hFree
  exact hUnlocked.grant hValid (hOneKind hKind)
    (h.grantedConflict_unlock hValid (not_grantedConflict_of_free hFree))

theorem cancelByClientID (clientID : String) :
    RangeExclusionInv (flockRangeCancelByClientID clientID q) := by
  unfold flockRangeCancelByClientID
  simp only
  split
  · exact (h.cancelWhere _).tryNextWaiters
  · exact h.cancelWhere _

end RangeExclusionInv

/-- The operations of the runs considered: all cancels by client, and requests of one kind for
nonempty ranges. -/
def RangeOp.WellFormed : RangeOp → Prop
  | .request r => RangeRequest r
  | .cancelByClientID _ => True

/-- Mutual exclusion of range locks in every reachable state. -/
theorem rangeLocks_exclusion {q : RangeLockQueues}
    (hReach : Run.Reachable rangeOpStep (fun q => q = RangeLockQueues.empty)
      (fun _ op => op.WellFormed) q) : RangeMutualExclusion q := by
  refine RangeExclusionInv.mutualExclusion (hReach.invariant ?_ ?_)
  · rintro q rfl
    exact RangeExclusionInv.empty
  · intro q op h hop
    cases op with
    | request r => exact h.request hop
    | cancelByClientID clientID => exact h.cancelByClientID clientID

/-- Two handles with exclusive locks side by side. -/
theorem rangeLocks_exclusion_neighbours :
    RangeMutualExclusion (rangeOpStep (rangeOpStep RangeLockQueues.empty
        (.request ⟨"client1", 11, "ack1", LockTypeFlags.ENTRYLOCKTYPE_EXCLUSIVE, 0, 9⟩))
      (.request ⟨"client2", 12, "ack2", LockTypeFlags.ENTRYLOCKTYPE_EXCLUSIVE, 10, 19⟩)) := by
  refine rangeLocks_exclusion (.next (.next (.start rfl) ?_) ?_)
  · show RangeRequest _
    decide
  · show RangeRequest _
    decide

end Fhgfs.Locking
