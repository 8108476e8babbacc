import Fhgfs.Locking.EntryLocks
import Fhgfs.Locking.RangeRetry

/-!
# The locks of a file inode

All lock members of a `FileInode` and the three operations on them. An append lock uses the
functions of the entry locks, with sets for shared locks that last only for the call.

* `EntryLockQueuesContainer.Each.step`, `RangeLockQueues.Each.step`: what holds of every lock
  in the queues and of the request holds of every lock afterwards, if it does not depend on what
  an operation changes in a lock.
* `FileInodeLocks.typed_after`: the locks of a run of requests have values of the types in the
  source.
-/

namespace Fhgfs.Locking

open OrderedSet List Option

structure FileInodeLocks where
  exclAppendLock : EntryLockDetails
  waitersExclAppendLock : List EntryLockDetails
  waitersLockIDsAppendLock : StringSet
  flock : EntryLockQueuesContainer
  range : RangeLockQueues
deriving DecidableEq

namespace FileInodeLocks

/-- The locks of a new inode, in which the unset locks are `junk`. -/
def init (junkAppend junkFLock : EntryLockDetails) : FileInodeLocks where
  exclAppendLock := junkAppend.unset
  waitersExclAppendLock := []
  waitersLockIDsAppendLock := OrderedSet.empty
  flock := .init junkFLock
  range := .empty

/-- `AppendLockQueuesContainer`. The sets and queues of shared locks are dummies. -/
def appendQueues (locks : FileInodeLocks) : EntryLockQueuesContainer where
  exclLock := locks.exclAppendLock
  sharedLocks := OrderedSet.empty
  waitersExclLock := locks.waitersExclAppendLock
  waitersSharedLock := []
  waitersLockIDs := locks.waitersLockIDsAppendLock

def flockAppend (lockDetails : EntryLockDetails) (locks : FileInodeLocks) : FileInodeLocks :=
  let lockQs := flockEntryStep locks.appendQueues lockDetails
  { locks with
    exclAppendLock := lockQs.exclLock
    waitersExclAppendLock := lockQs.waitersExclLock
    waitersLockIDsAppendLock := lockQs.waitersLockIDs }

def flockEntry (lockDetails : EntryLockDetails) (locks : FileInodeLocks) : FileInodeLocks :=
  { locks with flock := flockEntryStep locks.flock lockDetails }

def flockRange (lockDetails : RangeLockDetails) (locks : FileInodeLocks) : FileInodeLocks :=
  { locks with range := flockRangeStep locks.range lockDetails }

end FileInodeLocks

inductive LockOp
  | append (lockDetails : EntryLockDetails)
  | entry (lockDetails : EntryLockDetails)
  | range (lockDetails : RangeLockDetails)
deriving DecidableEq

def FileInodeLocks.step (locks : FileInodeLocks) : LockOp → FileInodeLocks
  | .append lockDetails => locks.flockAppend lockDetails
  | .entry lockDetails => locks.flockEntry lockDetails
  | .range lockDetails => locks.flockRange lockDetails

/-! ## What holds of every entry lock -/

structure EntryLockQueuesContainer.Each (P : EntryLockDetails → Prop)
    (lockQs : EntryLockQueuesContainer) : Prop where
  excl : P lockQs.exclLock
  shared : ∀ l ∈ lockQs.sharedLocks, P l
  waitersExcl : ∀ w ∈ lockQs.waitersExclLock, P w
  waitersShared : ∀ w ∈ lockQs.waitersSharedLock, P w

namespace EntryLockQueuesContainer.Each

variable {P : EntryLockDetails → Prop} {lockQs : EntryLockQueuesContainer} {r : EntryLockDetails}

theorem retry (h : lockQs.Each P) : (flockEntryTryNextWaiters lockQs).1.Each P := by
  rcases flockEntryTryNextWaiters_cases lockQs with
    ⟨-, heq⟩ | ⟨-, -, heq⟩ | ⟨-, w, ws, hSome, heq⟩ <;> rw [heq]
  · exact h
  · refine ⟨h.excl, ?_, h.waitersExcl, by simp⟩
    intro l hl
    rcases mem_foldl_insert hl with hl | hl
    · exact h.shared l hl
    · exact h.waitersShared l hl
  · have hWaiters := h.waitersExcl
    rw [hSome] at hWaiters
    refine ⟨hWaiters w mem_cons_self, h.shared, ?_, h.waitersShared⟩
    intro v hv
    exact hWaiters v (mem_cons_of_mem _ hv)

section

variable (hUnset : ∀ l, P l → P l.unset) (h : lockQs.Each P)
include hUnset h

theorem cancel : (flockEntryCancelByHandle r lockQs).1.Each P := by
  refine ⟨?_, ?_, ?_, ?_⟩
  · simp only [flockEntryCancelByHandle, flockEntryCancelWhere]
    split
    · exact hUnset _ h.excl
    · exact h.excl
  · intro l hl
    exact h.shared l (OrderedSet.mem_filter.mp hl).1
  · intro w hw
    exact h.waitersExcl w (mem_filter.mp hw).1
  · intro w hw
    exact h.waitersShared w (mem_filter.mp hw).1

theorem unlock : (flockEntryUnlock r lockQs).1.Each P := by
  rcases flockEntryUnlock_cases r lockQs with
    ⟨-, heq⟩ | ⟨-, -, heq⟩ | ⟨-, -, heq⟩ <;> rw [heq]
  · exact ⟨hUnset _ h.excl, h.shared, h.waitersExcl, h.waitersShared⟩
  · refine ⟨h.excl, ?_, h.waitersExcl, h.waitersShared⟩
    intro l hl
    exact h.shared l (mem_erase.mp hl).1
  · exact h

end

theorem grant (h : lockQs.Each P) (hr : P r) : (flockEntryGrant r lockQs).Each P := by
  unfold flockEntryGrant
  split
  · refine ⟨h.excl, ?_, h.waitersExcl, h.waitersShared⟩
    intro l hl
    rcases mem_insert.mp hl with hl | ⟨rfl, -⟩
    · exact h.shared l hl
    · exact hr
  · exact ⟨hr, h.shared, h.waitersExcl, h.waitersShared⟩

theorem enqueue (h : lockQs.Each P) (hr : P r) : (flockEntryEnqueue r lockQs).Each P := by
  have hAppend : ∀ {ws : List EntryLockDetails}, (∀ w ∈ ws, P w) → ∀ w ∈ ws ++ [r], P w := by
    intro ws hws w hw
    rcases mem_append.mp hw with hw | hw
    · exact hws w hw
    · exact mem_singleton.mp hw ▸ hr
  unfold flockEntryEnqueue
  split
  · exact ⟨h.excl, h.shared, h.waitersExcl, hAppend h.waitersShared⟩
  · exact ⟨h.excl, h.shared, hAppend h.waitersExcl, h.waitersShared⟩

theorem step (hUnset : ∀ l, P l → P l.unset) (h : lockQs.Each P)
    (hr : r.lockTypeFlags.kind = .lock → P r) : (flockEntryStep lockQs r).Each P := by
  apply LockManager.step_invariant (m := entryLockManager) (I := Each P) h
  · intro t ht
    exact ht.retry
  · exact h.cancel hUnset
  · exact h.unlock hUnset
  · intro hKind _
    exact (h.unlock hUnset).grant (hr hKind)
  · intro hKind
    exact (h.unlock hUnset).enqueue (hr hKind)

end EntryLockQueuesContainer.Each

/-! ## What holds of every range lock -/

structure RangeLockQueues.Each (P : RangeLockDetails → Prop) (q : RangeLockQueues) : Prop where
  excl : ∀ l ∈ q.exclRangeFLocks, P l
  shared : ∀ l ∈ q.sharedRangeFLocks, P l
  waitersExcl : ∀ w ∈ q.waitersExclRangeFLock, P w
  waitersShared : ∀ w ∈ q.waitersSharedRangeFLock, P w

def OfOwner (P : RangeLockDetails → Prop) : Prop :=
  ∀ l start stop, P l → P { l with start := start, stop := stop }

section Loops

variable {κ : Type} [LinearOrder κ] {key : RangeLockDetails → κ} {P : RangeLockDetails → Prop}

theorem OfOwner.trim (hP : OfOwner P) {l : RangeLockDetails} (trimmer : RangeLockDetails)
    (hl : P l) : P (l.trim trimmer) := by
  unfold RangeLockDetails.trim
  split
  · exact hP l _ _ hl
  · exact hP l _ _ hl

theorem rangeUnlockSwitch_remains {d iter : RangeLockDetails} {remains : List RangeLockDetails}
    {returned : Bool} (h : rangeUnlockSwitch d iter = some (remains, returned)) :
    remains = [] ∨ remains = [iter.trim d] ∨ remains = [(iter.split d).1, (iter.split d).2] := by
  unfold rangeUnlockSwitch at h
  split at h
  case h_2 =>
    split at h
    · exact .inr (.inl (Prod.mk.inj (some.inj h)).1.symm)
    · exact .inr (.inr (Prod.mk.inj (some.inj h)).1.symm)
  case h_4 | h_5 => exact .inr (.inl (Prod.mk.inj (some.inj h)).1.symm)
  case h_6 => cases h
  all_goals exact .inl (Prod.mk.inj (some.inj h)).1.symm

theorem OfOwner.remains (hP : OfOwner P) {d iter : RangeLockDetails}
    {remains : List RangeLockDetails} {returned : Bool} (hIter : P iter)
    (h : rangeUnlockSwitch d iter = some (remains, returned)) : ∀ x ∈ remains, P x := by
  have hTrim := hP.trim d hIter
  have hSplit : P (iter.split d).1 ∧ P (iter.split d).2 := ⟨hP iter _ _ hIter, hP iter _ _ hIter⟩
  rcases rangeUnlockSwitch_remains h with rfl | rfl | rfl
  · simp
  · simpa using hTrim
  · simpa using hSplit

theorem OfOwner.unlockLoop (hP : OfOwner P) (d : RangeLockDetails) (lockRemoved : Bool)
    {xs : List RangeLockDetails} {locks : OrderedSet key} (hxs : ∀ x ∈ xs, P x)
    (hLocks : ∀ x ∈ locks, P x) : ∀ x ∈ (rangeUnlockLoop d xs locks lockRemoved).locks, P x := by
  induction xs generalizing locks lockRemoved with
  | nil => exact hLocks
  | cons iter rest ih =>
    have hRest := fun x hx => hxs x (mem_cons_of_mem _ hx)
    have hReplaced : ∀ {remains returned}, rangeUnlockSwitch d iter = some (remains, returned) →
        ∀ x ∈ remains.foldl OrderedSet.insert (locks.erase iter), P x := by
      intro remains returned hSwitch x hx
      rcases OrderedSet.mem_foldl_insert hx with hx | hx
      · exact hLocks x (OrderedSet.mem_erase.mp hx).1
      · exact hP.remains (hxs iter mem_cons_self) hSwitch x hx
    unfold rangeUnlockLoop
    split
    · exact ih _ hRest hLocks
    · split
      · exact ih _ hRest hLocks
      · exact hReplaced ‹_›
      · exact ih _ hRest (hReplaced ‹_›)

theorem OfOwner.mergeLoop (hP : OfOwner P) (inBound : RangeLockDetails → RangeLockDetails → Bool)
    (xs : List RangeLockDetails) {d : RangeLockDetails} {locks : OrderedSet key} (hd : P d)
    (hLocks : ∀ x ∈ locks, P x) :
    P (rangeMergeLoop inBound d xs locks).1 ∧ ∀ x ∈ (rangeMergeLoop inBound d xs locks).2, P x := by
  induction xs generalizing d locks with
  | nil => exact ⟨hd, hLocks⟩
  | cons iter rest ih =>
    unfold rangeMergeLoop
    split
    · exact ⟨hd, hLocks⟩
    · split
      · apply ih (hP d _ _ hd)
        intro x hx
        exact hLocks x (mem_erase.mp hx).1
      · exact ih hd hLocks

end Loops

namespace RangeLockQueues.Each

variable {P : RangeLockDetails → Prop} {q : RangeLockQueues} {d : RangeLockDetails}

theorem grantShared (hP : OfOwner P) (h : q.Each P) (hd : P d) :
    P (flockRangeShared d q).1 ∧ (flockRangeShared d q).2.Each P := by
  obtain ⟨hMerged, hRest⟩ := hP.mergeLoop (fun _ _ => true) q.sharedRangeFLocks.elems hd h.shared
  refine ⟨hMerged, h.excl, ?_, h.waitersExcl, h.waitersShared⟩
  intro l hl
  rcases mem_insert.mp hl with hl | ⟨rfl, -⟩
  · exact hRest l hl
  · exact hMerged

theorem grantExclusive (hP : OfOwner P) (h : q.Each P) (hd : P d) :
    P (flockRangeExclusive d q).1 ∧ (flockRangeExclusive d q).2.Each P := by
  obtain ⟨hMerged, hRest⟩ := hP.mergeLoop (fun l iterExcl => iterExcl.start ≤ l.stop + 1)
    q.exclRangeFLocks.elems hd h.excl
  refine ⟨hMerged, ?_, h.shared, h.waitersExcl, h.waitersShared⟩
  intro l hl
  rcases mem_insert.mp hl with hl | ⟨rfl, -⟩
  · exact hRest l hl
  · exact hMerged

theorem retry (hP : OfOwner P) (h : q.Each P) : (flockRangeTryNextWaiters q).1.Each P := by
  refine flockRangeTryNextWaiters_rule (I := fun q _ => q.Each P) ?_ ?_ h
  · intro kept iter rest q _ hWaiters h _
    have hEach := h.waitersExcl
    simp only [hWaiters, forall_mem_append, forall_mem_cons] at hEach
    have hGranted := (grantExclusive hP h hEach.2.1).2
    exact ⟨hGranted.excl, hGranted.shared, forall_mem_append.mpr ⟨hEach.1, hEach.2.2⟩,
      hGranted.waitersShared⟩
  · intro kept iter rest q _ hWaiters h _
    have hEach := h.waitersShared
    simp only [hWaiters, forall_mem_append, forall_mem_cons] at hEach
    have hGranted := (grantShared hP h hEach.2.1).2
    exact ⟨hGranted.excl, hGranted.shared, hGranted.waitersExcl,
      forall_mem_append.mpr ⟨hEach.1, hEach.2.2⟩⟩

theorem cancel (h : q.Each P) : (flockRangeCancelByHandle d q).1.Each P := by
  refine ⟨?_, ?_, ?_, ?_⟩
  · intro l hl
    exact h.excl l (OrderedSet.mem_filter.mp hl).1
  · intro l hl
    exact h.shared l (OrderedSet.mem_filter.mp hl).1
  · intro w hw
    exact h.waitersExcl w (mem_filter.mp hw).1
  · intro w hw
    exact h.waitersShared w (mem_filter.mp hw).1

theorem unlock (hP : OfOwner P) (h : q.Each P) : (flockRangeUnlock d q).1.Each P := by
  have hVisited : ∀ x ∈ q.exclUpTo d, P x := fun x hx => h.excl x (mem_exclUpTo.mp hx).1
  have hExcl := hP.unlockLoop d false hVisited h.excl
  unfold flockRangeUnlock
  dsimp only
  split
  · exact ⟨hExcl, h.shared, h.waitersExcl, h.waitersShared⟩
  · exact ⟨hExcl, hP.unlockLoop d _ h.shared h.shared, h.waitersExcl, h.waitersShared⟩

theorem grant (hP : OfOwner P) (h : q.Each P) (hd : P d) : (flockRangeGrant d q).Each P := by
  unfold flockRangeGrant
  split
  · exact (grantShared hP h hd).2
  · exact (grantExclusive hP h hd).2

theorem enqueue (h : q.Each P) (hd : P d) : (flockRangeEnqueue d q).Each P := by
  have hAppend : ∀ {ws : List RangeLockDetails}, (∀ w ∈ ws, P w) → ∀ w ∈ ws ++ [d], P w := by
    intro ws hws w hw
    rcases mem_append.mp hw with hw | hw
    · exact hws w hw
    · exact mem_singleton.mp hw ▸ hd
  unfold flockRangeEnqueue
  split
  · exact ⟨h.excl, h.shared, h.waitersExcl, hAppend h.waitersShared⟩
  · exact ⟨h.excl, h.shared, hAppend h.waitersExcl, h.waitersShared⟩

theorem step (hP : OfOwner P) (h : q.Each P) (hd : P d) : (flockRangeStep q d).Each P := by
  apply LockManager.step_invariant (m := rangeLockManager) (I := Each P) h
  · intro t ht
    exact ht.retry hP
  · exact h.cancel
  · exact h.unlock hP
  · intro _ _
    exact (h.unlock hP).grant hP hd
  · intro _
    exact (h.unlock hP).enqueue hd

end RangeLockQueues.Each

/-! ## Values of the types in the source -/

/-- An ID that came in a message, behind its header. The length of a message has 32 bits. -/
def ReceivedID (id : String) : Prop := id.utf8ByteSize + 8 < 2 ^ 32

instance (id : String) : Decidable (ReceivedID id) := inferInstanceAs (Decidable (_ < _))

/-- The values of an `int64_t` and of an `int`. -/
structure EntryLockDetails.Typed (l : EntryLockDetails) : Prop where
  clientID : ReceivedID l.clientID
  clientFD : -2 ^ 63 ≤ l.clientFD ∧ l.clientFD < 2 ^ 63
  ownerPID : -2 ^ 31 ≤ l.ownerPID ∧ l.ownerPID < 2 ^ 31
  lockAckID : ReceivedID l.lockAckID

structure RangeLockDetails.Typed (l : RangeLockDetails) : Prop where
  clientID : ReceivedID l.clientID
  ownerPID : -2 ^ 31 ≤ l.ownerPID ∧ l.ownerPID < 2 ^ 31
  lockAckID : ReceivedID l.lockAckID

def LockOp.Typed : LockOp → Prop
  | .append lockDetails => lockDetails.Typed
  | .entry lockDetails => lockDetails.Typed
  | .range lockDetails => lockDetails.Typed

structure FileInodeLocks.Typed (locks : FileInodeLocks) : Prop where
  exclAppend : locks.exclAppendLock.Typed
  waitersExclAppend : ∀ w ∈ locks.waitersExclAppendLock, w.Typed
  flock : locks.flock.Each EntryLockDetails.Typed
  range : locks.range.Each RangeLockDetails.Typed

theorem EntryLockDetails.Typed.unset {l : EntryLockDetails} (h : l.Typed) : l.unset.Typed :=
  ⟨(by decide : ReceivedID ""), h.clientFD, h.ownerPID, h.lockAckID⟩

theorem ofOwner_typed : OfOwner RangeLockDetails.Typed :=
  fun _ _ _ h => ⟨h.clientID, h.ownerPID, h.lockAckID⟩

namespace FileInodeLocks

theorem typed_init {junkAppend junkFLock : EntryLockDetails} (hAppend : junkAppend.Typed)
    (hFLock : junkFLock.Typed) : (init junkAppend junkFLock).Typed where
  exclAppend := hAppend.unset
  waitersExclAppend := by simp [init]
  flock := by
    refine ⟨hFLock.unset, ?_, ?_, ?_⟩ <;> simp [init, EntryLockQueuesContainer.init]
  range := by
    refine ⟨?_, ?_, ?_, ?_⟩ <;> simp [init, RangeLockQueues.empty]

theorem Typed.step {locks : FileInodeLocks} (h : locks.Typed) {op : LockOp} (hOp : op.Typed) :
    (locks.step op).Typed := by
  cases op with
  | append lockDetails =>
    have hQueues : locks.appendQueues.Each EntryLockDetails.Typed :=
      ⟨h.exclAppend, by simp [appendQueues], h.waitersExclAppend, by simp [appendQueues]⟩
    have hStep := hQueues.step (fun _ hl => hl.unset) fun _ => hOp
    exact ⟨hStep.excl, hStep.waitersExcl, h.flock, h.range⟩
  | entry lockDetails =>
    have hStep := h.flock.step (fun _ hl => hl.unset) fun _ => hOp
    exact ⟨h.exclAppend, h.waitersExclAppend, hStep, h.range⟩
  | range lockDetails =>
    exact ⟨h.exclAppend, h.waitersExclAppend, h.flock, h.range.step ofOwner_typed hOp⟩

theorem typed_after {junkAppend junkFLock : EntryLockDetails} (hAppend : junkAppend.Typed)
    (hFLock : junkFLock.Typed) {ops : List LockOp} (hOps : ∀ op ∈ ops, op.Typed) :
    (Run.after step (init junkAppend junkFLock) ops).Typed :=
  Run.after_invariant step (fun _ _ h hOp => h.step hOp) (typed_init hAppend hFLock)
    (Run.everyStep_of_forall step fun _ op hOp => hOps op hOp)

end FileInodeLocks

end Fhgfs.Locking
