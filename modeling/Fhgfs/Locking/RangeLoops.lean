import Fhgfs.Locking.RangeLockDetails

/-!
# Loops over range lock sets

The exclusive and the shared range locks are kept in sets with different orders, and each
function of `FileInode.cpp` that walks over them has one loop for either set. The two loops
differ in the bound only: the exclusive locks are ordered by range start, so a loop over them
can end early. Here each loop is one definition for an arbitrary key.

A loop erases the element it visits and inserts what remains of it. The definitions run over
the elements that the set had when the loop began: a remainder that is inserted behind the
iterator starts after the request, so a visit to it would do nothing.

The sets are divided into lanes (`LockKey`): within a lane a set is ordered by range start. The
exclusive locks are one lane, the shared locks have a lane for every handle.
-/

namespace Fhgfs.Locking

open RangeLockDetails List

/-! ## The loops -/

section Loops

variable {κ : Type} [LinearOrder κ] {key : RangeLockDetails → κ}

/-- The loops of `flockRangeIsGranted`: the first own lock that overlaps decides. -/
def rangeGrantedLoop (lockDetails : RangeLockDetails) : List RangeLockDetails → Bool
  | [] => false
  | iter :: rest =>
    if !lockDetails.equalsHandle iter then rangeGrantedLoop lockDetails rest
    else
      match lockDetails.overlapsEx iter with
      | .EQUALS => true
      | .ISCONTAINED => true
      | .CONTAINS => false
      | .STARTOVERLAP => false
      | .ENDOVERLAP => false
      | .NONE => rangeGrantedLoop lockDetails rest

/-- The `switch` of the loops of `flockRangeUnlock`: nothing for a lock that does not overlap
the unlocked range, else what remains of it, and whether the loop returns. -/
def rangeUnlockSwitch (lockDetails iter : RangeLockDetails) :
    Option (List RangeLockDetails × Bool) :=
  match lockDetails.overlapsEx iter with
  | .EQUALS => some ([], true)
  | .ISCONTAINED =>
    if lockDetails.start == iter.start || lockDetails.stop == iter.stop then
      some ([iter.trim lockDetails], true)
    else some ([(iter.split lockDetails).1, (iter.split lockDetails).2], true)
  | .CONTAINS => some ([], false)
  | .STARTOVERLAP => some ([iter.trim lockDetails], false)
  | .ENDOVERLAP => some ([iter.trim lockDetails], false)
  | .NONE => none

/-- State of an unlock loop: the set, whether a lock was removed, and whether the function has
returned. -/
structure RangeUnlockResult (key : RangeLockDetails → κ) where
  locks : OrderedSet key
  lockRemoved : Bool
  returned : Bool

def rangeUnlockLoop (lockDetails : RangeLockDetails) :
    List RangeLockDetails → OrderedSet key → Bool → RangeUnlockResult key
  | [], locks, lockRemoved => ⟨locks, lockRemoved, false⟩
  | iter :: rest, locks, lockRemoved =>
    if !lockDetails.equalsHandle iter then rangeUnlockLoop lockDetails rest locks lockRemoved
    else
      match rangeUnlockSwitch lockDetails iter with
      | none => rangeUnlockLoop lockDetails rest locks lockRemoved
      | some (remains, true) => ⟨remains.foldl OrderedSet.insert (locks.erase iter), true, true⟩
      | some (remains, false) =>
        rangeUnlockLoop lockDetails rest (remains.foldl OrderedSet.insert (locks.erase iter))
          true

/-- The loops of `flockRangeShared` and `flockRangeExclusive`: all mergeable locks of the same
handle are merged into `lockDetails` and removed. -/
def rangeMergeLoop (inBound : RangeLockDetails → RangeLockDetails → Bool) :
    RangeLockDetails → List RangeLockDetails → OrderedSet key → RangeLockDetails × OrderedSet key
  | lockDetails, [], locks => (lockDetails, locks)
  | lockDetails, iter :: rest, locks =>
    if !inBound lockDetails iter then (lockDetails, locks)
    else if lockDetails.equalsHandle iter && lockDetails.isMergeable iter then
      rangeMergeLoop inBound (lockDetails.merge iter) rest (locks.erase iter)
    else rangeMergeLoop inBound lockDetails rest locks

end Loops

/-! ## Lanes -/

/-- Within a lane a set with this key is ordered by range start, and the locks of a handle
share a lane. -/
structure LockKey {κ lam : Type} [LinearOrder κ] (key : RangeLockDetails → κ)
    (lane : RangeLockDetails → lam) : Prop where
  eq_iff : ∀ x y, key x = key y ↔ lane x = lane y ∧ x.start.toNat = y.start.toNat
  lt_start : ∀ x y, lane x = lane y → key x < key y → x.start.toNat < y.start.toNat
  lane_eq : ∀ x y : RangeLockDetails, x.handle = y.handle → lane x = lane y

theorem lockKey_shared : LockKey keyShared handle where
  eq_iff x y := by simp [keyShared]
  lt_start x y h hlt := by
    unfold keyShared at hlt
    rw [Prod.Lex.toLex_lt_toLex] at hlt
    rcases hlt with hlt | ⟨-, hlt⟩
    · exact absurd h hlt.ne
    · exact hlt
  lane_eq x y h := h

theorem lockKey_excl : LockKey keyExcl (fun _ => ()) where
  eq_iff x y := by simp [keyExcl]
  lt_start x y _ hlt := hlt
  lane_eq x y _ := rfl

/-- No two locks of a lane have a byte in common. -/
def LanesApart {κ lam : Type} [LinearOrder κ] {key : RangeLockDetails → κ}
    (lane : RangeLockDetails → lam) (s : OrderedSet key) : Prop :=
  ∀ x ∈ s, ∀ y ∈ s, lane x = lane y → x ≠ y → ∀ b, x.covers b → ¬ y.covers b

def AllValid {κ : Type} [LinearOrder κ] {key : RangeLockDetails → κ} (s : OrderedSet key) : Prop :=
  ∀ x ∈ s, x.Valid

/-- The handle `h` holds the byte `b` in the set. -/
def Holds {κ : Type} [LinearOrder κ] {key : RangeLockDetails → κ} (s : OrderedSet key)
    (h : Int ×ₗ String) (b : Nat) : Prop :=
  ∃ x ∈ s, x.handle = h ∧ x.covers b

/-! ## What an unlock leaves of one lock -/

theorem covers_trim_end {l trimmer : RangeLockDetails}
    (h : trimmer.stop.toNat < l.stop.toNat) (b : Nat) :
    (l.trim trimmer).covers b ↔ trimmer.stop.toNat < b ∧ b ≤ l.stop.toNat := by
  have hTop := l.stop_le_top
  have hLt : trimmer.stop < l.stop := UInt64.lt_iff_toNat_lt.mpr h
  simp only [trim, hLt, if_true, covers, toNat_succ]
  split <;> omega

theorem covers_trim_start {l trimmer : RangeLockDetails}
    (h : l.stop.toNat ≤ trimmer.stop.toNat) (hStart : l.start.toNat < trimmer.start.toNat)
    (b : Nat) :
    (l.trim trimmer).covers b ↔ l.start.toNat ≤ b ∧ b < trimmer.start.toNat := by
  have hLt : ¬ trimmer.stop < l.stop := by
    rw [UInt64.lt_iff_toNat_lt]
    omega
  simp only [trim, hLt, if_false, covers]
  rw [toNat_pred (by omega)]
  omega

/-- The remains of `iter`: locks of the same handle, none of them empty and without overlaps,
that have the bytes of `iter` outside of `lockDetails`. -/
structure Remains (lockDetails iter : RangeLockDetails) (remains : List RangeLockDetails) :
    Prop where
  handle_eq : ∀ p ∈ remains, p.handle = iter.handle
  valid : ∀ p ∈ remains, p.Valid
  apart : remains.Pairwise (fun p q => ∀ b, p.covers b → ¬ q.covers b)
  covers_iff : ∀ b, (∃ p ∈ remains, p.covers b) ↔ iter.covers b ∧ ¬ lockDetails.covers b

variable {lockDetails iter : RangeLockDetails}

theorem Remains.apart_of_ne
    {remains : List RangeLockDetails} (h : Remains lockDetails iter remains) :
    ∀ p ∈ remains, ∀ q ∈ remains, p ≠ q → ∀ b, p.covers b → ¬ q.covers b := by
  have hImp : remains.Pairwise (fun p q => p ≠ q → ∀ b, p.covers b → ¬ q.covers b) :=
    h.apart.imp (fun hpq _ b => hpq b)
  have hFlip : remains.Pairwise (flip fun p q => p ≠ q → ∀ b, p.covers b → ¬ q.covers b) :=
    h.apart.imp (fun hpq _ b hq hp => hpq b hp hq)
  intro p hp q hq
  exact hImp.forall_of_forall_of_flip (fun _ _ hne => absurd rfl hne) hFlip hp hq

theorem remains_nil
    (h : ∀ b, iter.covers b → lockDetails.covers b) : Remains lockDetails iter [] where
  handle_eq := by simp
  valid := by simp
  apart := List.Pairwise.nil
  covers_iff b := by
    have := h b
    tauto

theorem remains_trim
    (h : ∀ b, (iter.trim lockDetails).covers b ↔ iter.covers b ∧ ¬ lockDetails.covers b)
    {b : Nat} (hb : iter.covers b ∧ ¬ lockDetails.covers b) :
    Remains lockDetails iter [iter.trim lockDetails] where
  handle_eq := by simp
  valid := by
    simp only [mem_singleton, forall_eq]
    exact valid_of_covers ((h b).mpr hb)
  apart := pairwise_singleton _ _
  covers_iff b := by simpa using h b

theorem remains_trim_end (hStart : lockDetails.start.toNat ≤ iter.start.toNat)
    (hStop : lockDetails.stop.toNat < iter.stop.toNat)
    (hIn : iter.start.toNat ≤ lockDetails.stop.toNat) :
    Remains lockDetails iter [iter.trim lockDetails] := by
  have hTrim := covers_trim_end hStop
  refine remains_trim (b := iter.stop.toNat) (fun b => ?_) ?_
  · rw [hTrim b]
    unfold covers
    omega
  · unfold covers
    omega

theorem remains_trim_start (hStart : iter.start.toNat < lockDetails.start.toNat)
    (hStop : iter.stop.toNat ≤ lockDetails.stop.toNat)
    (hIn : lockDetails.start.toNat ≤ iter.stop.toNat) :
    Remains lockDetails iter [iter.trim lockDetails] := by
  have hTrim := covers_trim_start hStop hStart
  refine remains_trim (b := iter.start.toNat) (fun b => ?_) ?_
  · rw [hTrim b]
    unfold covers
    omega
  · unfold covers
    omega

theorem remains_split (hd : lockDetails.Valid) (hStart : iter.start.toNat < lockDetails.start.toNat)
    (hStop : lockDetails.stop.toNat < iter.stop.toNat) :
    Remains lockDetails iter [(iter.split lockDetails).1, (iter.split lockDetails).2] := by
  have hTop := iter.stop_le_top
  have hNonempty : lockDetails.start.toNat ≤ lockDetails.stop.toNat := hd
  have hPred : (lockDetails.start - 1).toNat = lockDetails.start.toNat - 1 := toNat_pred (by omega)
  have hSucc : (lockDetails.stop + 1).toNat = lockDetails.stop.toNat + 1 := by
    rw [toNat_succ, if_neg (by omega)]
  refine ⟨?_, ?_, ?_, ?_⟩
  · simp [split, handle]
  · simp only [split, mem_cons, not_mem_nil, or_false, forall_eq_or_imp, forall_eq,
      Valid, hPred, hSucc]
    omega
  · simp only [split, pairwise_cons, mem_singleton, forall_eq, covers, hPred, hSucc,
      not_mem_nil, false_imp_iff, implies_true, List.Pairwise.nil, and_true]
    omega
  · intro b
    simp only [split, mem_cons, not_mem_nil, or_false, exists_eq_or_imp,
      exists_eq_left, covers, hPred, hSucc]
    omega

/-- The `switch` finds the locks that share a byte with the unlocked range, returns exactly
when the lock contains the whole range, and leaves the bytes outside of the range. -/
theorem rangeUnlockSwitch_spec (hd : lockDetails.Valid) (hi : iter.Valid) :
    (rangeUnlockSwitch lockDetails iter = none ∧ ∀ b, iter.covers b → ¬ lockDetails.covers b) ∨
    (∃ remains returned, rangeUnlockSwitch lockDetails iter = some (remains, returned) ∧
      Remains lockDetails iter remains ∧ (∃ b, iter.covers b ∧ lockDetails.covers b) ∧
      (returned = true ↔ ∀ b, lockDetails.covers b → iter.covers b)) := by
  have hd' : lockDetails.start.toNat ≤ lockDetails.stop.toNat := hd
  have hi' : iter.start.toNat ≤ iter.stop.toNat := hi
  unfold rangeUnlockSwitch
  rcases overlapsEx_cases lockDetails iter with
    ⟨heq, h⟩ | ⟨heq, h⟩ | ⟨heq, h⟩ | ⟨heq, h⟩ | ⟨heq, h⟩ | ⟨heq, h⟩ <;> rw [heq]
  · refine Or.inl ⟨rfl, ?_⟩
    unfold covers
    omega
  · refine Or.inr ⟨[], true, rfl, remains_nil ?_, ⟨iter.start.toNat, ?_⟩, ?_⟩
    · unfold covers
      omega
    · unfold covers
      omega
    · unfold covers
      simp only [true_iff]
      omega
  · refine Or.inr ⟨[], false, rfl, remains_nil ?_, ⟨iter.start.toNat, ?_⟩, ?_⟩
    · unfold covers
      omega
    · unfold covers
      omega
    · simp only [Bool.false_eq_true, false_iff]
      intro hAll
      have hFirst := hAll lockDetails.start.toNat ⟨le_rfl, hd'⟩
      have hLast := hAll lockDetails.stop.toNat ⟨hd', le_rfl⟩
      unfold covers at hFirst hLast
      omega
  · obtain ⟨hStart, hStop, hDiffer⟩ := h
    have hAll : ∀ b, lockDetails.covers b → iter.covers b := by
      unfold covers
      omega
    have hCommon : ∃ b, iter.covers b ∧ lockDetails.covers b :=
      ⟨lockDetails.start.toNat, hAll _ (covers_start hd), covers_start hd⟩
    simp only [Bool.or_eq_true, beq_iff_eq, ← UInt64.toNat_inj]
    split
    · rename_i hEdge
      refine Or.inr ⟨_, true, rfl, ?_, hCommon, by simpa using hAll⟩
      by_cases hSame : lockDetails.start.toNat = iter.start.toNat
      · exact remains_trim_end (by omega) (by omega) (by omega)
      · exact remains_trim_start (by omega) (by omega) (by omega)
    · rename_i hInner
      refine Or.inr ⟨_, true, rfl, ?_, hCommon, by simpa using hAll⟩
      exact remains_split hd (by omega) (by omega)
  · obtain ⟨hStart, hIn, hStop⟩ := h
    refine Or.inr ⟨_, false, rfl, remains_trim_end (by omega) hStop hIn,
      ⟨iter.start.toNat, covers_start hi, by omega, hIn⟩, ?_⟩
    simp only [Bool.false_eq_true, false_iff]
    intro hAll
    have hFirst := hAll lockDetails.start.toNat (covers_start hd)
    unfold covers at hFirst
    omega
  · obtain ⟨hStart, hIn, hStop⟩ := h
    refine Or.inr ⟨_, false, rfl, remains_trim_start hStart (by omega) hIn,
      ⟨lockDetails.start.toNat, ⟨by omega, hIn⟩, covers_start hd⟩, ?_⟩
    simp only [Bool.false_eq_true, false_iff]
    intro hAll
    have hLast := hAll lockDetails.stop.toNat ⟨hd', le_rfl⟩
    unfold covers at hLast
    omega

end Fhgfs.Locking
