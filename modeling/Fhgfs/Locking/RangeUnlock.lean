import Fhgfs.Locking.RangeInv

/-!
# Range unlock

What `flockRangeUnlock` does to the granted locks, in the states that requests below the top of
the offsets reach. The function returns early when an exclusive lock of the handle contains the
whole unlocked range, and does not look at the shared locks of the handle then.

* `RangeBelowTopInv`: no range reaches the top, and in either set no two locks of a lane
  overlap, because every grant merges what it touches.
* `flockRangeUnlock_complete_iff`: the unlock releases what it names, and nothing else, if and
  only if the handle does not hold the whole range exclusively and a byte of it shared.
* `not_flockRangeUnlock_complete`: a handle gets into that situation when its queued exclusive
  request is granted after it was given a shared lock.
-/

namespace Fhgfs.Locking

open RangeLockDetails OrderedSet RangeInv RangeLockQueues

/-- The range ends before the greatest byte offset. -/
def BelowTop (l : RangeLockDetails) : Prop := l.stop.toNat < topByte

instance (l : RangeLockDetails) : Decidable (BelowTop l) := inferInstanceAs (Decidable (_ < _))

/-! ## Grants below the top -/

section Grants

variable {κ lam : Type} [LinearOrder κ] {key : RangeLockDetails → κ}
  {lane : RangeLockDetails → lam} {l l' : RangeLockDetails} {s s' : OrderedSet key}

theorem Granted.belowTop (h : Granted l s l' s') (hl : l.Valid) (hValid : AllValid s)
    (hlTop : BelowTop l) (hTop : ∀ x ∈ s, BelowTop x) : ∀ x ∈ s', BelowTop x := by
  obtain ⟨gone, hAbsorbs, hMem⟩ := h
  intro y hy
  rcases (hMem y).mp hy with ⟨hy, -⟩ | ⟨rfl, -⟩
  · exact hTop y hy
  have hLast : y.covers y.stop.toNat := ⟨hAbsorbs.valid hl, le_rfl⟩
  unfold BelowTop at hlTop hTop ⊢
  rcases (hAbsorbs.covers_iff hl hValid _).mp hLast with hb | ⟨x, hx, hb⟩
  · unfold covers at hb
    omega
  · have := hTop x (hAbsorbs.gone_mem x hx).1
    unfold covers at hb
    omega

theorem Absorbs.apart_of_left {gone : List RangeLockDetails} (h : Absorbs l s.elems l' gone)
    (hKey : LockKey key lane) (hl' : BelowTop l') {y : RangeLockDetails} (hy : y ∈ s)
    (hyTop : BelowTop y) (hOwn : y.handle = l.handle) (hLeft : y ∉ gone) (b : Nat)
    (hb : l.covers b) : ¬ y.covers b := by
  obtain ⟨m, hStart, hStop, -, hIff⟩ := h.decided (ownOrdered hKey s l.handle) y hy hOwn
  have hNot : ¬ m.isMergeable y = true := fun hMergeable => hLeft (hIff.mpr hMergeable)
  unfold BelowTop at hl' hyTop
  rw [isMergeable_iff, toNat_succ, toNat_succ, if_neg (by omega), if_neg (by omega)] at hNot
  unfold covers at *
  omega

theorem Granted.lanesApart (h : Granted l s l' s') (hKey : LockKey key lane) (hl : l.Valid)
    (hValid : AllValid s) (hFree : LaneFree lane l s) (hlTop : BelowTop l)
    (hTop : ∀ x ∈ s, BelowTop x) (hApart : LanesApart lane s) : LanesApart lane s' := by
  have hTop' := h.belowTop hl hValid hlTop hTop
  obtain ⟨gone, hAbsorbs, hMem⟩ := h
  have hNew : l' ∈ s' → ∀ y ∈ s, y ∉ gone → lane y = lane l' → ∀ b, l'.covers b → ¬ y.covers b := by
    intro hIn y hy hLeft hLane b hb hyb
    have hl'Lane : lane l' = lane l := hKey.lane_eq l' l hAbsorbs.same.1
    have hParts := (hAbsorbs.covers_iff hl hValid b).mp hb
    by_cases hOwn : y.handle = l.handle
    · rcases hParts with hb | ⟨x, hx, hxb⟩
      · exact hAbsorbs.apart_of_left hKey (hTop' l' hIn) hy (hTop y hy) hOwn hLeft b hb hyb
      · obtain ⟨hxIn, hxOwn⟩ := hAbsorbs.gone_mem x hx
        have hne : x ≠ y := fun heq => hLeft (heq ▸ hx)
        exact hApart x hxIn y hy (hKey.lane_eq x y (hxOwn.trans hOwn.symm)) hne b hxb hyb
    · refine hFree y hy (hLane.trans hl'Lane) hOwn b ?_ hyb
      refine hParts.imp id ?_
      rintro ⟨x, hx, hxb⟩
      obtain ⟨hxIn, hxOwn⟩ := hAbsorbs.gone_mem x hx
      exact ⟨x, hxIn, hxOwn, hxb⟩
  intro x hx y hy hLane hne b hxb hyb
  rcases (hMem x).mp hx with ⟨hxOld, hxLeft⟩ | ⟨rfl, -⟩ <;>
    rcases (hMem y).mp hy with ⟨hyOld, hyLeft⟩ | ⟨rfl, -⟩
  · exact hApart x hxOld y hyOld hLane hne b hxb hyb
  · exact hNew hy x hxOld hxLeft hLane b hyb hxb
  · exact hNew hx y hyOld hyLeft hLane.symm b hxb hyb
  · exact hne rfl

end Grants

/-! ## The invariant -/

structure RangeBelowTopInv (q : RangeLockQueues) : Prop extends RangeInv q where
  exclLanes : LanesApart (fun _ => ()) q.exclRangeFLocks
  sharedLanes : LanesApart handle q.sharedRangeFLocks
  exclTop : ∀ x ∈ q.exclRangeFLocks, BelowTop x
  sharedTop : ∀ x ∈ q.sharedRangeFLocks, BelowTop x
  waitersExclTop : ∀ w ∈ q.waitersExclRangeFLock, BelowTop w
  waitersSharedTop : ∀ w ∈ q.waitersSharedRangeFLock, BelowTop w

theorem Trimmed.belowTop {κ : Type} [LinearOrder κ] {key : RangeLockDetails → κ}
    {d : RangeLockDetails} {s s' : OrderedSet key} (h : Trimmed d s s')
    (hTop : ∀ x ∈ s, BelowTop x) : ∀ x ∈ s', BelowTop x := by
  intro y hy
  rcases h.origin y hy with hy | ⟨hyValid, -, x, hx, -, hBytes⟩
  · exact hTop y hy
  · have hLast := (hBytes y.stop.toNat ⟨hyValid, le_rfl⟩).1
    have := hTop x hx
    unfold BelowTop covers at *
    omega

theorem lanesApart_filter {κ lam : Type} [LinearOrder κ] {key : RangeLockDetails → κ}
    {lane : RangeLockDetails → lam} {s : OrderedSet key} (h : LanesApart lane s)
    (p : RangeLockDetails → Bool) : LanesApart lane (s.filter p) := by
  intro x hx y hy
  exact h x (mem_filter.mp hx).1 y (mem_filter.mp hy).1

namespace RangeBelowTopInv

variable {q : RangeLockQueues} {d : RangeLockDetails}

theorem empty : RangeBelowTopInv RangeLockQueues.empty where
  toRangeInv := RangeInv.empty
  exclLanes x hx := absurd hx (OrderedSet.not_mem_empty x)
  sharedLanes x hx := absurd hx (OrderedSet.not_mem_empty x)
  exclTop x hx := absurd hx (OrderedSet.not_mem_empty x)
  sharedTop x hx := absurd hx (OrderedSet.not_mem_empty x)
  waitersExclTop := by simp [RangeLockQueues.empty]
  waitersSharedTop := by simp [RangeLockQueues.empty]

variable (h : RangeBelowTopInv q)
include h

theorem unlock_lanes (hd : d.Valid) :
    (LanesApart (fun _ => ()) (flockRangeUnlock d q).1.exclRangeFLocks ∧
      ∀ g b, Holds q.exclRangeFLocks g b → ¬ d.covers b →
        Holds (flockRangeUnlock d q).1.exclRangeFLocks g b) ∧
    (LanesApart handle (flockRangeUnlock d q).1.sharedRangeFLocks ∧
      ∀ g b, Holds q.sharedRangeFLocks g b → ¬ d.covers b →
        Holds (flockRangeUnlock d q).1.sharedRangeFLocks g b) := by
  have hExcl := rangeUnlockLoop_apart lockKey_excl hd (r := false) (exclUpTo_mem (d := d))
    exclUpTo_nodup h.exclValid h.exclLanes
  unfold flockRangeUnlock
  simp only
  split
  · exact ⟨hExcl, h.sharedLanes, fun _ _ hHolds _ => hHolds⟩
  · exact ⟨hExcl, rangeUnlockLoop_apart lockKey_shared hd (fun _ hx => hx)
      q.sharedRangeFLocks.nodup_elems h.sharedValid h.sharedLanes⟩

theorem unlock (hd : d.Valid) : RangeBelowTopInv (flockRangeUnlock d q).1 := by
  obtain ⟨hExcl, hShared⟩ := flockRangeUnlock_trimmed hd h.exclValid h.sharedValid
  obtain ⟨hWE, hWS, -⟩ := flockRangeUnlock_waiters (d := d) (q := q)
  obtain ⟨⟨hExclLanes, -⟩, hSharedLanes, -⟩ := h.unlock_lanes hd
  refine ⟨h.toRangeInv.unlock hd, hExclLanes, hSharedLanes, hExcl.belowTop h.exclTop,
    hShared.belowTop h.sharedTop, ?_, ?_⟩
  · rw [hWE]
    exact h.waitersExclTop
  · rw [hWS]
    exact h.waitersSharedTop

theorem cancelWhere (hit : RangeLockDetails → Bool) :
    RangeBelowTopInv (flockRangeCancelWhere hit q).1 where
  toRangeInv := h.toRangeInv.cancelWhere hit
  exclLanes := lanesApart_filter h.exclLanes _
  sharedLanes := lanesApart_filter h.sharedLanes _
  exclTop x hx := h.exclTop x (mem_filter.mp hx).1
  sharedTop x hx := h.sharedTop x (mem_filter.mp hx).1
  waitersExclTop w hw := h.waitersExclTop w (List.mem_filter.mp hw).1
  waitersSharedTop w hw := h.waitersSharedTop w (List.mem_filter.mp hw).1

section

variable (hd : d.Valid) (hTop : BelowTop d)
include hd hTop

theorem enqueue : RangeBelowTopInv (flockRangeEnqueue d q) := by
  have hInv := h.toRangeInv.enqueue hd
  have hAppend : ∀ ws : List RangeLockDetails, (∀ w ∈ ws, BelowTop w) →
      ∀ w ∈ ws ++ [d], BelowTop w := by
    intro ws hws w hw
    rcases List.mem_append.mp hw with hw | hw
    · exact hws w hw
    · rwa [List.mem_singleton.mp hw]
  unfold flockRangeEnqueue at hInv ⊢
  split at hInv
  · rename_i hShared
    rw [if_pos hShared]
    exact ⟨hInv, h.exclLanes, h.sharedLanes, h.exclTop, h.sharedTop, h.waitersExclTop,
      hAppend _ h.waitersSharedTop⟩
  · rename_i hShared
    rw [if_neg hShared]
    exact ⟨hInv, h.exclLanes, h.sharedLanes, h.exclTop, h.sharedTop,
      hAppend _ h.waitersExclTop, h.waitersSharedTop⟩

theorem grantExclusive
    (hFree : ¬ GrantedConflict d q) : RangeBelowTopInv (flockRangeExclusive d q).2 := by
  have hGranted := flockRangeExclusive_granted (d := d) (q := q)
  exact ⟨h.toRangeInv.grantExclusive hd hFree,
    hGranted.lanesApart lockKey_excl hd h.exclValid (h.laneFree_excl hd hFree) hTop h.exclTop
      h.exclLanes,
    h.sharedLanes, hGranted.belowTop hd h.exclValid hTop h.exclTop, h.sharedTop,
    h.waitersExclTop, h.waitersSharedTop⟩

theorem grantShared : RangeBelowTopInv (flockRangeShared d q).2 := by
  have hGranted := flockRangeShared_granted (d := d) (q := q)
  exact ⟨h.toRangeInv.grantShared hd, h.exclLanes,
    hGranted.lanesApart lockKey_shared hd h.sharedValid (laneFree_shared _) hTop
      h.sharedTop h.sharedLanes,
    h.exclTop, hGranted.belowTop hd h.sharedValid hTop h.sharedTop, h.waitersExclTop,
    h.waitersSharedTop⟩

end

theorem tryNextWaiters : RangeBelowTopInv (flockRangeTryNextWaiters q).1 := by
  refine flockRangeTryNextWaiters_rule (I := fun q _ => RangeBelowTopInv q) ?_ ?_ h
  · intro kept iter rest q n hWaiters hq hFree
    have hFree := not_grantedConflict_of_freeEx hFree
    have hIn : iter ∈ q.waitersExclRangeFLock := by simp [hWaiters]
    have hGranted := hq.grantExclusive (hq.waitersExclValid iter hIn)
      (hq.waitersExclTop iter hIn) hFree
    exact ⟨hq.toRangeInv.afterExclGrant hWaiters hFree, hGranted.exclLanes,
      hGranted.sharedLanes, hGranted.exclTop, hGranted.sharedTop,
      fun w hw => hq.waitersExclTop w (mem_of_kept hWaiters hw), hq.waitersSharedTop⟩
  · intro kept iter rest q n hWaiters hq _
    have hIn : iter ∈ q.waitersSharedRangeFLock := by simp [hWaiters]
    have hGranted := hq.grantShared (hq.waitersSharedValid iter hIn)
      (hq.waitersSharedTop iter hIn)
    exact ⟨hq.toRangeInv.afterSharedGrant hWaiters, hGranted.exclLanes, hGranted.sharedLanes,
      hGranted.exclTop, hGranted.sharedTop, hq.waitersExclTop,
      fun w hw => hq.waitersSharedTop w (mem_of_kept hWaiters hw)⟩

theorem grant (hd : d.Valid) (hTop : BelowTop d)
    (hFree : ¬ GrantedConflict d q) : RangeBelowTopInv (flockRangeGrant d q) := by
  unfold flockRangeGrant
  split
  · exact h.grantShared hd hTop
  · exact h.grantExclusive hd hTop hFree

theorem step (hd : d.Valid) (hTop : BelowTop d) : RangeBelowTopInv (flockRangeStep q d) := by
  refine LockManager.step_invariant h (fun _ ht => ht.tryNextWaiters) (h.cancelWhere _)
    (h.unlock hd) ?_ (fun _ => (h.unlock hd).enqueue hd hTop)
  intro _ hFree
  exact (h.unlock hd).grant hd hTop
    (h.grantedConflict_unlock hd (not_grantedConflict_of_free hFree))

end RangeBelowTopInv

/-! ## The exact condition -/

/-- An unlock of `d` in the state `q` releases everything it names and nothing else: no lock of
the handle overlaps the range any more, the bytes outside of the range are held as before, and
the locks of the other handles are the same. -/
def UnlockComplete (d : RangeLockDetails) (q : RangeLockQueues) : Prop :=
  let q' := (flockRangeUnlock d q).1
  (∀ y, y ∈ q'.exclRangeFLocks ∨ y ∈ q'.sharedRangeFLocks → y.handle = d.handle →
    d.overlaps y = false) ∧
  (∀ b, ¬ d.covers b →
    (Holds q'.exclRangeFLocks d.handle b ↔ Holds q.exclRangeFLocks d.handle b) ∧
    (Holds q'.sharedRangeFLocks d.handle b ↔ Holds q.sharedRangeFLocks d.handle b)) ∧
  ∀ y, y.handle ≠ d.handle →
    (y ∈ q'.exclRangeFLocks ↔ y ∈ q.exclRangeFLocks) ∧
    (y ∈ q'.sharedRangeFLocks ↔ y ∈ q.sharedRangeFLocks)

/-- The handle holds the whole range exclusively in one lock, and a byte of it shared. -/
def HeldInBothModes (d : RangeLockDetails) (q : RangeLockQueues) : Prop :=
  (∃ x ∈ q.exclRangeFLocks, x.handle = d.handle ∧ ∀ b, d.covers b → x.covers b) ∧
  ∃ y ∈ q.sharedRangeFLocks, y.handle = d.handle ∧ d.overlaps y = true

theorem touched_iff {d y : RangeLockDetails} (hd : d.Valid) (hy : y.Valid) :
    Touched d y ↔ y.handle = d.handle ∧ d.overlaps y = true := by
  rw [overlaps_iff_exists hd hy]
  refine and_congr_right fun _ => exists_congr fun b => and_comm

theorem RangeBelowTopInv.unlock_clear_iff {q : RangeLockQueues} {d : RangeLockDetails}
    (h : RangeBelowTopInv q) (hd : d.Valid) :
    (∀ y, y ∈ (flockRangeUnlock d q).1.exclRangeFLocks ∨
      y ∈ (flockRangeUnlock d q).1.sharedRangeFLocks → ¬ Touched d y) ↔
    ¬ HeldInBothModes d q := by
  have hExcl := exclUnlock_spec hd h.exclValid
  have hExclClear := hExcl.none_touched lockKey_excl (fun _ hy => hy) h.exclLanes
  have hBoth : HeldInBothModes d q ↔
      (∃ x ∈ q.exclRangeFLocks, x.handle = d.handle ∧ ∀ b, d.covers b → x.covers b) ∧
      ∃ y ∈ q.sharedRangeFLocks, Touched d y := by
    refine and_congr_right fun _ => exists_congr fun y => and_congr_right fun hy => ?_
    exact (touched_iff hd (h.sharedValid y hy)).symm
  rw [hBoth]
  unfold flockRangeUnlock
  simp only
  split
  · rename_i hReturned
    obtain ⟨x, hx, hxOwn, -, hWhole⟩ := hExcl.whole hReturned
    constructor
    · rintro hClear ⟨-, y, hy, hTouched⟩
      exact hClear y (Or.inr hy) hTouched
    · intro hNot y hy hTouched
      rcases hy with hy | hy
      · exact hExclClear y hy hTouched
      · exact hNot ⟨⟨x, hx, hxOwn, hWhole⟩, y, hy, hTouched⟩
  · rename_i hReturned
    have hReturned := eq_false_of_ne_true hReturned
    have hSharedClear := (sharedUnlock_spec hd h.sharedValid
      (rangeUnlockLoop d (q.exclUpTo d) q.exclRangeFLocks false).lockRemoved).none_touched
      lockKey_shared (fun _ hy => hy) h.sharedLanes
    constructor
    · rintro - ⟨⟨x, hx, hxOwn, hWhole⟩, -⟩
      exact hExcl.partly hReturned x hx hxOwn hWhole
    · intro _ y hy
      exact hy.elim (hExclClear y) (hSharedClear y)

/-- The exact condition: in every state that requests below the top reach, an unlock is
complete if and only if the handle does not hold the range in both modes. -/
theorem flockRangeUnlock_complete_iff {q : RangeLockQueues}
    (hReach : Run.Reachable flockRangeStep (fun q => q = RangeLockQueues.empty)
      (fun _ r => r.Valid ∧ BelowTop r) q) (d : RangeLockDetails) (hd : d.Valid) :
    UnlockComplete d q ↔ ¬ HeldInBothModes d q := by
  have h : RangeBelowTopInv q := by
    refine hReach.invariant ?_ (fun q r h hr => h.step hr.1 hr.2)
    rintro q rfl
    exact RangeBelowTopInv.empty
  rw [← h.unlock_clear_iff hd]
  obtain ⟨hExcl, hShared⟩ := flockRangeUnlock_trimmed hd h.exclValid h.sharedValid
  obtain ⟨⟨-, hExclKeep⟩, -, hSharedKeep⟩ := h.unlock_lanes hd
  have hClear : ∀ y, y ∈ (flockRangeUnlock d q).1.exclRangeFLocks ∨
      y ∈ (flockRangeUnlock d q).1.sharedRangeFLocks →
      ((y.handle = d.handle → d.overlaps y = false) ↔ ¬ Touched d y) := by
    intro y hy
    have hyValid : y.Valid := hy.elim (hExcl.allValid h.exclValid y)
      (hShared.allValid h.sharedValid y)
    rw [touched_iff hd hyValid, ← Bool.not_eq_true, not_and]
  constructor
  · rintro ⟨hGone, -⟩ y hy
    exact (hClear y hy).mp (hGone y hy)
  · intro hGone
    refine ⟨fun y hy => (hClear y hy).mpr (hGone y hy), ?_, ?_⟩
    · intro b hb
      exact ⟨⟨hExcl.holds_sound, fun hHolds => hExclKeep _ b hHolds hb⟩,
        ⟨hShared.holds_sound, fun hHolds => hSharedKeep _ b hHolds hb⟩⟩
    · intro y hOther
      exact ⟨hExcl.others hOther, hShared.others hOther⟩

/-- A reader in the way of a writer, that gets a shared lock while it waits. When the reader
unlocks, the writer holds both. -/
def writerWithSharedLock : List RangeLockDetails :=
  [⟨"client2", 12, "ack1", LockTypeFlags.ENTRYLOCKTYPE_SHARED, 0, 3⟩,
   ⟨"client1", 11, "ack2", LockTypeFlags.ENTRYLOCKTYPE_EXCLUSIVE, 0, 10⟩,
   ⟨"client1", 11, "ack3", LockTypeFlags.ENTRYLOCKTYPE_SHARED, 5, 5⟩,
   ⟨"client2", 12, "ack4", LockTypeFlags.ENTRYLOCKTYPE_UNLOCK, 0, 3⟩]

def writerUnlock : RangeLockDetails :=
  ⟨"client1", 11, "ack5", LockTypeFlags.ENTRYLOCKTYPE_UNLOCK, 0, 10⟩

/-- The unlock of the whole range leaves the shared lock in place. -/
theorem not_flockRangeUnlock_complete :
    ¬ ∀ (requests : List RangeLockDetails) (d : RangeLockDetails),
      (∀ r ∈ requests, (r.Valid ∧ BelowTop r) ∧ r.lockTypeFlags.OneKind) →
      (d.Valid ∧ BelowTop d) ∧ d.isUnlock = true →
      UnlockComplete d (Run.after flockRangeStep RangeLockQueues.empty requests) := by
  intro h
  have hGone := (h writerWithSharedLock writerUnlock (by decide) (by decide)).1
  have hLeft := hGone ⟨"client1", 11, "ack3", LockTypeFlags.ENTRYLOCKTYPE_SHARED, 5, 5⟩
    (Or.inr (by decide)) (by decide)
  revert hLeft
  decide

/-- A lock of the whole range alone is released completely. -/
theorem flockRangeUnlock_complete_iff_alone :
    UnlockComplete writerUnlock (flockRangeStep RangeLockQueues.empty
      ⟨"client1", 11, "ack2", LockTypeFlags.ENTRYLOCKTYPE_EXCLUSIVE, 0, 10⟩) ↔
    ¬ HeldInBothModes writerUnlock (flockRangeStep RangeLockQueues.empty
      ⟨"client1", 11, "ack2", LockTypeFlags.ENTRYLOCKTYPE_EXCLUSIVE, 0, 10⟩) :=
  flockRangeUnlock_complete_iff (.next (.start rfl) ⟨by decide, by decide⟩) writerUnlock
    (by decide)

end Fhgfs.Locking
