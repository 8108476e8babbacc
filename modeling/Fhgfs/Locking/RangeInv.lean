import Fhgfs.Locking.RangeRetry

/-!
# The basic invariant of the range lock manager

`RangeInv`: granted and waiting ranges are not empty, and a byte is held exclusively by one
handle at most. Every step of the manager keeps it for requests with nonempty ranges, whatever
their flags are. It is what the later results need to know about the sets: with it no grant
loses a byte (`RangeInv.grown_exclusive`, `RangeInv.grown_shared`).
-/

namespace Fhgfs.Locking

open RangeLockDetails List

/-- The granted locks have all bytes that they had before. The waiters do not matter. -/
structure Grown (q q' : RangeLockQueues) : Prop where
  excl : ∀ g b, Holds q.exclRangeFLocks g b → Holds q'.exclRangeFLocks g b
  shared : ∀ g b, Holds q.sharedRangeFLocks g b → Holds q'.sharedRangeFLocks g b

theorem Grown.refl (q : RangeLockQueues) : Grown q q := ⟨fun _ _ h => h, fun _ _ h => h⟩

theorem Grown.trans {q q' q'' : RangeLockQueues} (h : Grown q q') (h' : Grown q' q'') :
    Grown q q'' :=
  ⟨fun g b hHolds => h'.excl g b (h.excl g b hHolds),
    fun g b hHolds => h'.shared g b (h.shared g b hHolds)⟩

structure RangeInv (q : RangeLockQueues) : Prop where
  exclValid : AllValid q.exclRangeFLocks
  sharedValid : AllValid q.sharedRangeFLocks
  waitersExclValid : ∀ w ∈ q.waitersExclRangeFLock, w.Valid
  waitersSharedValid : ∀ w ∈ q.waitersSharedRangeFLock, w.Valid
  exclApart : ∀ g g' b, Holds q.exclRangeFLocks g b → Holds q.exclRangeFLocks g' b → g = g'

namespace RangeInv

variable {q : RangeLockQueues} {d : RangeLockDetails}

theorem empty : RangeInv RangeLockQueues.empty where
  exclValid x hx := absurd hx (OrderedSet.not_mem_empty x)
  sharedValid x hx := absurd hx (OrderedSet.not_mem_empty x)
  waitersExclValid := by simp [RangeLockQueues.empty]
  waitersSharedValid := by simp [RangeLockQueues.empty]
  exclApart := by
    rintro g g' b ⟨x, hx, -⟩
    exact absurd hx (OrderedSet.not_mem_empty x)

/-! ## Requests without conflicts -/

variable {g : Int ×ₗ String}

section

variable (h : RangeInv q) (hd : d.Valid)
include h hd

theorem excl_free (hFree : ¬ GrantedConflict d q)
    {b : Nat} (hHolds : Holds q.exclRangeFLocks g b) (hb : d.covers b) :
    g = d.handle := by
  obtain ⟨x, hx, rfl, hxb⟩ := hHolds
  by_contra hOther
  exact hFree (Or.inl ⟨x, hx, (rangeConflict_iff hd (h.exclValid x hx)).mpr ⟨hOther, b, hb, hxb⟩⟩)

theorem shared_free (hMode : d.isExclusive = true) (hFree : ¬ GrantedConflict d q) {b : Nat}
    (hHolds : Holds q.sharedRangeFLocks g b) (hb : d.covers b) : g = d.handle := by
  obtain ⟨x, hx, rfl, hxb⟩ := hHolds
  by_contra hOther
  exact hFree (Or.inr ⟨hMode, x, hx, (rangeConflict_iff hd (h.sharedValid x hx)).mpr
    ⟨hOther, b, hb, hxb⟩⟩)

theorem laneFree_excl (hFree : ¬ GrantedConflict d q) :
    LaneFree (fun _ => ()) d q.exclRangeFLocks := by
  intro z hz _ hOther b hb hzb
  have hzHolds : Holds q.exclRangeFLocks z.handle b := ⟨z, hz, rfl, hzb⟩
  rcases hb with hb | hb
  · exact hOther (h.excl_free hd hFree hzHolds hb)
  · exact hOther (h.exclApart _ _ b hzHolds hb)

end

theorem laneFree_shared (s : RangeLockSharedSet) : LaneFree handle d s := by
  intro z _ hLane hOther
  exact absurd hLane hOther

section

variable (h : RangeInv q) (hd : d.Valid)
include h hd

theorem grown_exclusive (hFree : ¬ GrantedConflict d q) : Grown q (flockRangeExclusive d q).2 where
  excl _ _ hHolds := flockRangeExclusive_granted.holds_mono lockKey_excl hd h.exclValid
    (h.laneFree_excl hd hFree) hHolds
  shared _ _ hHolds := hHolds

theorem grown_shared : Grown q (flockRangeShared d q).2 where
  excl _ _ hHolds := hHolds
  shared _ _ hHolds := flockRangeShared_granted.holds_mono lockKey_shared hd h.sharedValid
    (laneFree_shared _) hHolds

/-! ## The steps keep the invariant -/

theorem unlock : RangeInv (flockRangeUnlock d q).1 := by
  obtain ⟨hExcl, hShared⟩ := flockRangeUnlock_trimmed hd h.exclValid h.sharedValid
  obtain ⟨hWE, hWS, -⟩ := flockRangeUnlock_waiters (d := d) (q := q)
  refine ⟨hExcl.allValid h.exclValid, hShared.allValid h.sharedValid, ?_, ?_, ?_⟩
  · rw [hWE]
    exact h.waitersExclValid
  · rw [hWS]
    exact h.waitersSharedValid
  · intro g g' b hg hg'
    exact h.exclApart g g' b (hExcl.holds_sound hg) (hExcl.holds_sound hg')

end

theorem holds_filter {κ : Type} [LinearOrder κ] {key : RangeLockDetails → κ}
    {s : OrderedSet key} {p : RangeLockDetails → Bool} {b : Nat}
    (hHolds : Holds (s.filter p) g b) : Holds s g b := by
  obtain ⟨x, hx, hHandle, hb⟩ := hHolds
  exact ⟨x, (OrderedSet.mem_filter.mp hx).1, hHandle, hb⟩

section

variable (h : RangeInv q)
include h

theorem cancelWhere (hit : RangeLockDetails → Bool) : RangeInv (flockRangeCancelWhere hit q).1 where
  exclValid x hx := h.exclValid x (OrderedSet.mem_filter.mp hx).1
  sharedValid x hx := h.sharedValid x (OrderedSet.mem_filter.mp hx).1
  waitersExclValid w hw := h.waitersExclValid w (List.mem_filter.mp hw).1
  waitersSharedValid w hw := h.waitersSharedValid w (List.mem_filter.mp hw).1
  exclApart g g' b hg hg' := h.exclApart g g' b (holds_filter hg) (holds_filter hg')

theorem enqueue (hd : d.Valid) : RangeInv (flockRangeEnqueue d q) := by
  have hAppend : ∀ ws : List RangeLockDetails, (∀ w ∈ ws, w.Valid) → ∀ w ∈ ws ++ [d], w.Valid := by
    intro ws hws w hw
    rcases mem_append.mp hw with hw | hw
    · exact hws w hw
    · rwa [mem_singleton.mp hw]
  unfold flockRangeEnqueue
  split
  · exact ⟨h.exclValid, h.sharedValid, h.waitersExclValid, hAppend _ h.waitersSharedValid,
      h.exclApart⟩
  · exact ⟨h.exclValid, h.sharedValid, hAppend _ h.waitersExclValid, h.waitersSharedValid,
      h.exclApart⟩

theorem grantExclusive (hd : d.Valid) (hFree : ¬ GrantedConflict d q) :
    RangeInv (flockRangeExclusive d q).2 := by
  have hGranted := flockRangeExclusive_granted (d := d) (q := q)
  refine ⟨hGranted.allValid hd h.exclValid, h.sharedValid, h.waitersExclValid,
    h.waitersSharedValid, ?_⟩
  intro g g' b hg hg'
  rcases hGranted.holds_sound hd h.exclValid hg with hg | ⟨rfl, hb⟩ <;>
    rcases hGranted.holds_sound hd h.exclValid hg' with hg' | ⟨rfl, hb'⟩
  · exact h.exclApart g g' b hg hg'
  · exact h.excl_free hd hFree hg hb'
  · exact (h.excl_free hd hFree hg' hb).symm
  · rfl

theorem grantShared (hd : d.Valid) : RangeInv (flockRangeShared d q).2 :=
  ⟨h.exclValid, flockRangeShared_granted.allValid hd h.sharedValid, h.waitersExclValid,
    h.waitersSharedValid, h.exclApart⟩

theorem setWaiters {wE wS : List RangeLockDetails} {ids : StringSet}
    (hE : ∀ w ∈ wE, w.Valid) (hS : ∀ w ∈ wS, w.Valid) :
    RangeInv ⟨q.exclRangeFLocks, q.sharedRangeFLocks, wE, wS, ids⟩ :=
  ⟨h.exclValid, h.sharedValid, hE, hS, h.exclApart⟩

end

theorem not_grantedConflict_of_free (hFree : (flockRangeCheckConflicts d q).isSome = false) :
    ¬ GrantedConflict d q := by
  intro hConflict
  rw [flockRangeCheckConflicts_isSome.mpr (Or.inl hConflict)] at hFree
  cases hFree

theorem not_grantedConflict_of_freeEx {n : Nat}
    (hFree : (flockRangeCheckConflictsEx d n q).isSome = false) : ¬ GrantedConflict d q := by
  intro hConflict
  rw [flockRangeCheckConflictsEx_isSome.mpr (Or.inl hConflict)] at hFree
  cases hFree

theorem mem_of_kept {kept rest ws : List RangeLockDetails} {iter w : RangeLockDetails}
    (hWaiters : ws = kept ++ iter :: rest) (hw : w ∈ kept ++ rest) : w ∈ ws := by
  rw [hWaiters]
  simp only [mem_append, mem_cons] at hw ⊢
  tauto

variable {kept rest : List RangeLockDetails} {iter : RangeLockDetails}

variable (h : RangeInv q)
include h

theorem afterExclGrant (hWaiters : q.waitersExclRangeFLock = kept ++ iter :: rest)
    (hFree : ¬ GrantedConflict iter q) : RangeInv (afterExclGrant kept rest iter q) := by
  have hIter : iter.Valid := h.waitersExclValid iter (by simp [hWaiters])
  exact (h.grantExclusive hIter hFree).setWaiters
    (fun w hw => h.waitersExclValid w (mem_of_kept hWaiters hw)) h.waitersSharedValid

theorem afterSharedGrant (hWaiters : q.waitersSharedRangeFLock = kept ++ iter :: rest) :
    RangeInv (afterSharedGrant kept rest iter q) := by
  have hIter : iter.Valid := h.waitersSharedValid iter (by simp [hWaiters])
  exact (h.grantShared hIter).setWaiters h.waitersExclValid
    (fun w hw => h.waitersSharedValid w (mem_of_kept hWaiters hw))

theorem grown_afterExclGrant (hWaiters : q.waitersExclRangeFLock = kept ++ iter :: rest)
    (hFree : ¬ GrantedConflict iter q) : Grown q (Locking.afterExclGrant kept rest iter q) := by
  have hGrown := h.grown_exclusive (h.waitersExclValid iter (by simp [hWaiters])) hFree
  exact ⟨hGrown.excl, hGrown.shared⟩

theorem grown_afterSharedGrant (hWaiters : q.waitersSharedRangeFLock = kept ++ iter :: rest) :
    Grown q (Locking.afterSharedGrant kept rest iter q) := by
  have hGrown := h.grown_shared (h.waitersSharedValid iter (by simp [hWaiters]))
  exact ⟨hGrown.excl, hGrown.shared⟩

theorem grantedConflict_unlock (hd : d.Valid)
    (hFree : ¬ GrantedConflict d q) : ¬ GrantedConflict d (flockRangeUnlock d q).1 := by
  obtain ⟨hExcl, hShared⟩ := flockRangeUnlock_trimmed hd h.exclValid h.sharedValid
  have hOther : ∀ x, rangeConflict d x = true → x.handle ≠ d.handle := by
    intro x hx heq
    simp only [rangeConflict, Bool.and_eq_true, Bool.not_eq_true', ← Bool.not_eq_true,
      equalsHandle_iff] at hx
    exact hx.2 heq.symm
  rintro (⟨x, hx, hConflict⟩ | ⟨hMode, x, hx, hConflict⟩)
  · exact hFree (Or.inl ⟨x, (hExcl.others (hOther x hConflict)).mp hx, hConflict⟩)
  · exact hFree (Or.inr ⟨hMode, x, (hShared.others (hOther x hConflict)).mp hx, hConflict⟩)

theorem grant (hd : d.Valid) (hFree : ¬ GrantedConflict d q) : RangeInv (flockRangeGrant d q) := by
  unfold flockRangeGrant
  split
  · exact h.grantShared hd
  · exact h.grantExclusive hd hFree

end RangeInv

end Fhgfs.Locking
