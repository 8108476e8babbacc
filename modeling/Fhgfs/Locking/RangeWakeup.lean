import Fhgfs.Locking.RangeInv

/-!
# No lost wakeup of range lock waiters

After each request every exclusive waiter conflicts with a granted lock or with an exclusive
waiter in front of it, and every shared waiter with an exclusive lock or an exclusive waiter:
`RangeWaitersBlocked`. A retry establishes this from any state, because a grant never loses a
byte and so never unblocks a waiter that was passed over. A request that releases nothing does
not retry; it can only grant or enqueue.
-/

namespace Fhgfs.Locking

open RangeLockDetails List RangeLockQueues RangeInv

def RangeWaitersBlocked (q : RangeLockQueues) : Prop :=
  (∀ (i : Nat) (w : RangeLockDetails), q.waitersExclRangeFLock[i]? = some w →
    (flockRangeCheckConflictsEx w i q).isSome = true) ∧
  ∀ w ∈ q.waitersSharedRangeFLock,
    (∃ x ∈ q.exclRangeFLocks, rangeConflict w x = true) ∨
    ∃ x ∈ q.waitersExclRangeFLock, rangeConflict w x = true

/-- The blocked waiters of a queue: each conflicts with a granted lock or one in front. -/
def ExclBlocked (q : RangeLockQueues) (ws : List RangeLockDetails) : Prop :=
  ∀ (i : Nat) (w : RangeLockDetails), ws[i]? = some w →
    GrantedConflict w q ∨ ∃ v ∈ ws.take i, rangeConflict w v = true

section Growing

variable {q q' : RangeLockQueues}

theorem conflict_mono {κ : Type} [LinearOrder κ] {key : RangeLockDetails → κ}
    {s s' : OrderedSet key} {w : RangeLockDetails} (hw : w.Valid) (hValid : AllValid s)
    (hValid' : AllValid s') (hMono : ∀ g b, Holds s g b → Holds s' g b)
    (h : ∃ x ∈ s, rangeConflict w x = true) : ∃ x ∈ s', rangeConflict w x = true := by
  obtain ⟨x, hx, hConflict⟩ := h
  obtain ⟨hOther, b, hwb, hxb⟩ := (rangeConflict_iff hw (hValid x hx)).mp hConflict
  obtain ⟨y, hy, hHandle, hyb⟩ := hMono x.handle b ⟨x, hx, rfl, hxb⟩
  refine ⟨y, hy, (rangeConflict_iff hw (hValid' y hy)).mpr ⟨?_, b, hwb, hyb⟩⟩
  rwa [hHandle]

section

variable (hGrown : Grown q q') (h : RangeInv q) (h' : RangeInv q')
include hGrown h h'

theorem Grown.conflict {w : RangeLockDetails} (hw : w.Valid) (hConflict : GrantedConflict w q) :
    GrantedConflict w q' := by
  rcases hConflict with hConflict | ⟨hMode, hConflict⟩
  · exact Or.inl (conflict_mono hw h.exclValid h'.exclValid hGrown.excl hConflict)
  · exact Or.inr ⟨hMode,
      conflict_mono hw h.sharedValid h'.sharedValid hGrown.shared hConflict⟩

theorem Grown.exclBlocked
    {ws : List RangeLockDetails} (hws : ∀ w ∈ ws, w.Valid) (hBlocked : ExclBlocked q ws) :
    ExclBlocked q' ws := by
  intro i w hw
  refine (hBlocked i w hw).imp (fun hConflict => ?_) id
  exact hGrown.conflict h h' (hws w (mem_of_getElem? hw)) hConflict

end

theorem ExclBlocked.snoc {ws : List RangeLockDetails} {d : RangeLockDetails} (h : ExclBlocked q ws)
    (hd : GrantedConflict d q ∨ ∃ v ∈ ws, rangeConflict d v = true) :
    ExclBlocked q (ws ++ [d]) := by
  intro i w hw
  by_cases hi : i < ws.length
  · rw [getElem?_append_left hi] at hw
    rw [take_append_of_le_length (le_of_lt hi)]
    exact h i w hw
  rw [getElem?_append_right (by omega)] at hw
  obtain ⟨hLast, rfl⟩ : i = ws.length ∧ d = w := by
    have hPos := List.getElem?_eq_some_iff.mp hw
    simp only [length_singleton] at hPos
    obtain ⟨hlt, hEq⟩ := hPos
    refine ⟨by omega, ?_⟩
    simpa using hEq
  subst hLast
  rw [take_left']
  · exact hd
  · rfl

theorem blocked_iff :
    RangeWaitersBlocked q ↔ ExclBlocked q q.waitersExclRangeFLock ∧
      ∀ w ∈ q.waitersSharedRangeFLock,
        (∃ x ∈ q.exclRangeFLocks, rangeConflict w x = true) ∨
        ∃ x ∈ q.waitersExclRangeFLock, rangeConflict w x = true := by
  unfold RangeWaitersBlocked ExclBlocked
  simp only [flockRangeCheckConflictsEx_isSome]

end Growing

/-! ## The invariant -/

structure RangeWakeupInv (q : RangeLockQueues) : Prop extends RangeInv q where
  blocked : RangeWaitersBlocked q
  readersMode : ∀ w ∈ q.waitersSharedRangeFLock, w.isExclusive = false

namespace RangeWakeupInv

variable {q : RangeLockQueues} {d : RangeLockDetails}

theorem empty : RangeWakeupInv RangeLockQueues.empty where
  toRangeInv := RangeInv.empty
  blocked := ⟨by simp [RangeLockQueues.empty], by simp [RangeLockQueues.empty]⟩
  readersMode := by simp [RangeLockQueues.empty]

/-- The state between the two loops of a retry. -/
structure WritersRetried (q : RangeLockQueues) : Prop extends RangeInv q where
  writers : ExclBlocked q q.waitersExclRangeFLock
  readersMode : ∀ w ∈ q.waitersSharedRangeFLock, w.isExclusive = false

section

variable (h : RangeInv q) (hMode : ∀ w ∈ q.waitersSharedRangeFLock, w.isExclusive = false)
include h hMode

theorem writersRetried : WritersRetried (tryNextExclWaiters [] q.waitersExclRangeFLock q []).1 := by
  have hLoop := tryNextExclWaiters_rule (C := fun _ _ => True)
    (P := fun kept _ q' _ => RangeInv q' ∧ ExclBlocked q' kept ∧
      (∀ w ∈ kept, w.Valid) ∧ ∀ w ∈ q'.waitersSharedRangeFLock, w.isExclusive = false)
    ?_ ?_ [] q.waitersExclRangeFLock q [] (fun _ _ => trivial)
    ⟨h, by simp [ExclBlocked], by simp, hMode⟩
  · exact ⟨hLoop.1, hLoop.2.1, hLoop.2.2.2⟩
  · rintro kept iter rest q' n hWaiters ⟨hInv, hBlocked, hKept, hMode'⟩ hConflict
    rw [flockRangeCheckConflictsEx_isSome, hWaiters, take_left'] at hConflict
    · refine ⟨hInv, hBlocked.snoc hConflict, ?_, hMode'⟩
      intro w hw
      rcases mem_append.mp hw with hw | hw
      · exact hKept w hw
      · rw [mem_singleton.mp hw]
        exact hInv.waitersExclValid iter (by simp [hWaiters])
    · rfl
  · rintro kept iter rest q' n hWaiters ⟨hInv, hBlocked, hKept, hMode'⟩ - hFree
    have hFree := not_grantedConflict_of_freeEx hFree
    have hGrown := hInv.grown_afterExclGrant hWaiters hFree
    have hInv' := hInv.afterExclGrant hWaiters hFree
    exact ⟨hInv', hGrown.exclBlocked hInv hInv' hKept hBlocked, hKept, hMode'⟩

theorem tryNextWaiters : RangeWakeupInv (flockRangeTryNextWaiters q).1 := by
  have hFirst := writersRetried h hMode
  have hLoop := tryNextSharedWaiters_rule (C := fun _ _ => True)
    (P := fun kept _ q' _ => WritersRetried q' ∧
      (∀ w ∈ kept, (∃ x ∈ q'.exclRangeFLocks, rangeConflict w x = true) ∨
        ∃ x ∈ q'.waitersExclRangeFLock, rangeConflict w x = true))
    ?_ ?_ [] _ _ (tryNextExclWaiters [] q.waitersExclRangeFLock q []).2 (fun _ _ => trivial)
    ⟨hFirst, by simp⟩
  · exact ⟨hLoop.1.toRangeInv, blocked_iff.mpr ⟨hLoop.1.writers, hLoop.2⟩,
      hLoop.1.readersMode⟩
  · rintro kept iter rest q' n hWaiters ⟨hRetried, hKept⟩ hConflict
    refine ⟨hRetried, ?_⟩
    intro w hw
    rcases mem_append.mp hw with hw | hw
    · exact hKept w hw
    rw [mem_singleton.mp hw]
    have hReader := hRetried.readersMode iter (by simp [hWaiters])
    rcases flockRangeCheckConflicts_isSome.mp hConflict with
      (hExcl | ⟨hMode', -⟩) | hWriter
    · exact Or.inl hExcl
    · exact nomatch hReader.symm.trans hMode'
    · exact Or.inr hWriter
  · rintro kept iter rest q' n hWaiters ⟨hRetried, hKept⟩ - -
    have hGrown := hRetried.toRangeInv.grown_afterSharedGrant hWaiters
    have hInv' := hRetried.toRangeInv.afterSharedGrant hWaiters
    refine ⟨⟨hInv', hGrown.exclBlocked hRetried.toRangeInv hInv' hRetried.waitersExclValid
      hRetried.writers, ?_⟩, hKept⟩
    intro w hw
    exact hRetried.readersMode w (mem_of_kept hWaiters hw)

/-- With a retry only the basic invariant matters, without one the waiters must be blocked
already. -/
theorem finish {tryNext granted : Bool} (hBlocked : tryNext = false → RangeWaitersBlocked q) :
    RangeWakeupInv (rangeLockManager.finish tryNext granted q).state :=
  rangeLockManager.finish_state (P := RangeWakeupInv) (fun _ => tryNextWaiters h hMode)
    (fun hNo => ⟨h, hBlocked hNo, hMode⟩)

end

theorem blocked_grant (h : RangeWakeupInv q) (hd : d.Valid) (hFree : ¬ GrantedConflict d q) :
    RangeWaitersBlocked (flockRangeGrant d q) := by
  obtain ⟨hWriters, hReaders⟩ := blocked_iff.mp h.blocked
  have hInv := h.toRangeInv.grant hd hFree
  unfold flockRangeGrant at hInv ⊢
  split at hInv
  · rename_i hShared
    rw [if_pos hShared]
    refine blocked_iff.mpr ⟨?_, hReaders⟩
    exact (h.toRangeInv.grown_shared hd).exclBlocked h.toRangeInv hInv h.waitersExclValid
      hWriters
  rename_i hShared
  rw [if_neg hShared]
  have hGrown := h.toRangeInv.grown_exclusive hd hFree
  refine blocked_iff.mpr ⟨?_, ?_⟩
  · exact hGrown.exclBlocked h.toRangeInv hInv h.waitersExclValid hWriters
  · intro w hw
    refine (hReaders w hw).imp (fun hConflict => ?_) id
    exact conflict_mono (h.waitersSharedValid w hw) h.exclValid hInv.exclValid hGrown.excl
      hConflict

theorem blocked_enqueue (h : RangeWakeupInv q)
    (hModes : ¬ (d.isShared = true ∧ d.isExclusive = true))
    (hConflict : (flockRangeCheckConflicts d q).isSome = true) :
    RangeWaitersBlocked (flockRangeEnqueue d q) := by
  obtain ⟨hWriters, hReaders⟩ := blocked_iff.mp h.blocked
  rw [flockRangeCheckConflicts_isSome] at hConflict
  unfold flockRangeEnqueue
  split
  · rename_i hShared
    refine blocked_iff.mpr ⟨hWriters, ?_⟩
    intro w hw
    rcases mem_append.mp hw with hw | hw
    · exact hReaders w hw
    · rw [mem_singleton.mp hw]
      rcases hConflict with (hExcl | ⟨hMode, -⟩) | hWriter
      · exact Or.inl hExcl
      · exact absurd ⟨hShared, hMode⟩ hModes
      · exact Or.inr hWriter
  · refine blocked_iff.mpr ⟨hWriters.snoc hConflict, ?_⟩
    intro w hw
    refine (hReaders w hw).imp id ?_
    rintro ⟨x, hx, hxConflict⟩
    exact ⟨x, mem_append_left _ hx, hxConflict⟩

theorem mode_unlock (h : RangeWakeupInv q) :
    ∀ w ∈ (flockRangeUnlock d q).1.waitersSharedRangeFLock, w.isExclusive = false := by
  rw [(flockRangeUnlock_waiters (d := d) (q := q)).2.1]
  exact h.readersMode

section

variable (hMode : ∀ w ∈ q.waitersSharedRangeFLock, w.isExclusive = false)
include hMode

theorem mode_grant :
    ∀ w ∈ (flockRangeGrant d q).waitersSharedRangeFLock, w.isExclusive = false := by
  unfold flockRangeGrant
  split <;> exact hMode

theorem mode_enqueue (hModes : ¬ (d.isShared = true ∧ d.isExclusive = true)) :
    ∀ w ∈ (flockRangeEnqueue d q).waitersSharedRangeFLock, w.isExclusive = false := by
  unfold flockRangeEnqueue
  split
  · rename_i hShared
    intro w hw
    rcases mem_append.mp hw with hw | hw
    · exact hMode w hw
    · rw [mem_singleton.mp hw]
      exact eq_false_of_ne_true fun hExcl => hModes ⟨hShared, hExcl⟩
  · exact hMode

end

theorem step (h : RangeWakeupInv q) (hd : d.Valid) (hModes : d.lockTypeFlags.NotBothModes) :
    RangeWakeupInv (flockRangeStep q d) := by
  have hUnlocked := h.toRangeInv.unlock hd
  have hSame : (flockRangeUnlock d q).2 = false → (flockRangeUnlock d q).1 = q :=
    flockRangeUnlock_unchanged hd h.exclValid h.sharedValid
  unfold flockRangeStep flockRangeUnlocked
  have hAnswer := rangeLockManager.answer d q
  generalize rangeLockManager.request d q = reply at hAnswer ⊢
  cases hAnswer with
  | cancelled _ =>
    refine finish (h.toRangeInv.cancelWhere _)
      (fun w hw => h.readersMode w (mem_filter.mp hw).1) ?_
    intro hNone
    show RangeWaitersBlocked (flockRangeCancelWhere d.equalsHandle q).1
    rw [flockRangeCancelWhere_unchanged hNone]
    exact h.blocked
  | unlocked _ =>
    refine finish hUnlocked h.mode_unlock ?_
    intro hNone
    exact (hSame hNone).symm ▸ h.blocked
  | stillWaiting _ _ => exact h
  | alreadyGranted _ _ _ => exact h
  | refused _ _ _ => exact h
  | granted hKind _ _ hFree =>
    have hFree := not_grantedConflict_of_free hFree
    refine finish (hUnlocked.grant hd (h.toRangeInv.grantedConflict_unlock hd hFree))
      (mode_grant h.mode_unlock) ?_
    intro hNone
    exact (hSame hNone).symm ▸ h.blocked_grant hd hFree
  | queued hKind _ _ hConflict _ =>
    refine finish (hUnlocked.enqueue hd) (mode_enqueue h.mode_unlock (hModes hKind)) ?_
    intro hNone
    exact (hSame hNone).symm ▸ h.blocked_enqueue (hModes hKind) hConflict

end RangeWakeupInv

/-- The waiters are blocked after every request of a run from empty queues, if every range is
nonempty and every request asks for one mode at most. -/
theorem range_waiters_blocked (requests : List RangeLockDetails)
    (hRequests : ∀ r ∈ requests, r.Valid ∧ r.lockTypeFlags.NotBothModes) :
    RangeWaitersBlocked (Run.after flockRangeStep empty requests) := by
  have hInv := Run.after_invariant flockRangeStep (I := RangeWakeupInv)
    (A := fun _ r => r.Valid ∧ r.lockTypeFlags.NotBothModes)
    (fun _ _ h hr => h.step hr.1 hr.2) RangeWakeupInv.empty
    (Run.everyStep_of_forall flockRangeStep fun _ r hr => hRequests r hr)
  exact hInv.blocked

end Fhgfs.Locking
