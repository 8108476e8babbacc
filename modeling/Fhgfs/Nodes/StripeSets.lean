import Fhgfs.Nodes.CapacityPoolChoosers
import Fhgfs.Lib.WalksRing
import Fhgfs.Nodes.StorageTargetChoosers

/-!
# The stripe sets of chosen targets

Every chooser walks once around a ring, so what it picks is a sublist of the rotated pool.
`chooseStorageTargets_stripeSet` puts the pools together.
-/

namespace Fhgfs.Nodes

open TargetCapacityPools List OrderedSet Option

namespace TargetSet

section Ring

variable {targets : List Nat}

theorem moveIterToNextRingElem_mod (hSome : targets ≠ []) (start k : Nat) :
    moveIterToNextRingElem targets ((start + k) % targets.length) =
      (start + (k + 1)) % targets.length := by
  have hPos := length_pos_of_ne_nil hSome
  have hLt := Nat.mod_lt (start + k) hPos
  rw [← add_assoc, Nat.add_mod (start + k) 1]
  unfold moveIterToNextRingElem
  split_ifs with hNext
  · rw [Nat.mod_eq_of_lt (a := 1) (by omega), Nat.mod_eq_of_lt hNext]
  · rcases lt_or_ge 1 targets.length with hTwo | hOne
    · rw [Nat.mod_eq_of_lt hTwo, show (start + k) % targets.length + 1 = targets.length by omega,
        Nat.mod_self]
    · rw [show targets.length = 1 by omega, Nat.mod_one]

theorem moveIterInRing_mod (hSome : targets ≠ []) (start steps k : Nat) :
    moveIterInRing targets steps ((start + k) % targets.length) =
      (start + (k + steps)) % targets.length := by
  induction steps generalizing k with
  | zero => rfl
  | succ steps ih =>
    rw [moveIterInRing, moveIterToNextRingElem_mod hSome, ih, add_right_comm k 1 steps]
    rfl

theorem drop_rotate (targets : List Nat) (start : Nat) {k : Nat} (hk : k < targets.length) :
    ∃ t, targets[(start + k) % targets.length]? = some t ∧
      (targets.rotate start).drop k = t :: (targets.rotate start).drop (k + 1) := by
  have hRot : k < (targets.rotate start).length := by rwa [length_rotate]
  refine ⟨(targets.rotate start)[k], ?_, drop_eq_getElem_cons hRot⟩
  rw [add_comm, ← getElem?_rotate hk, getElem?_eq_getElem hRot]

end Ring

/-! ## The choosers of one pool -/

/-- What a chooser has added: `number` targets of the pool, each once. -/
structure Picks (activeTargets : TargetSet) (picked : List Nat) (number : Nat) : Prop where
  mem : ∀ t ∈ picked, t ∈ activeTargets
  nodup : picked.Nodup
  length_eq : picked.length = number

theorem Picks.of_sublist {activeTargets : TargetSet} {picked : List Nat} {start number : Nat}
    (h : picked.Sublist (activeTargets.elems.rotate start)) (hLength : picked.length = number) :
    Picks activeTargets picked number where
  mem := fun _ ht => mem_rotate.mp (h.subset ht)
  nodup := h.nodup (nodup_rotate.mpr activeTargets.nodup_elems)
  length_eq := hLength

theorem getNextInIntRange_spec (randGen : RandomReentrant) {min max : Nat} (h : min ≤ max) :
    ∃ (next : Nat) (randGen' : RandomReentrant),
      randGen.getNextInIntRange min max = some ((next : Int), randGen') ∧
        min ≤ next ∧ next ≤ max := by
  have hRange : (max : Int) - min + 1 = ((max - min + 1 : Nat) : Int) := by omega
  refine ⟨min + randGen 0 % (max - min + 1), fun i => randGen (i + 1), ?_, Nat.le_add_right _ _, ?_⟩
  · unfold RandomReentrant.getNextInIntRange
    rw [if_neg (by omega), hRange, ← Int.ofNat_tmod]
    push_cast
    rfl
  · have hMod := Nat.mod_lt (randGen 0) (Nat.add_one_pos (max - min))
    omega

theorem pickFromParts_spec {targets : List Nat} (start : Nat) {numTargets partSize : Nat}
    (hParts : numTargets * partSize ≤ targets.length) (hPart : 0 < partSize) (left : Nat)
    (hLeft : left ≤ numTargets) (randGen : RandomReentrant) (outTargets : List Nat) :
    ∃ picked randGen', pickFromParts targets numTargets partSize left
        ((start + (numTargets - left) * partSize) % targets.length) randGen outTargets =
          some (outTargets ++ picked, randGen') ∧
      picked.Sublist ((targets.rotate start).drop ((numTargets - left) * partSize)) ∧
      picked.length = left := by
  induction left generalizing randGen outTargets with
  | zero => exact ⟨[], randGen, by simp [pickFromParts], nil_sublist _, rfl⟩
  | succ left ih =>
    obtain ⟨i, hi⟩ : ∃ i, i = numTargets - (left + 1) := ⟨_, rfl⟩
    have hNext : numTargets - left = i + 1 := by omega
    have hFits : (i + 1) * partSize ≤ targets.length :=
      (Nat.mul_le_mul_right _ (by omega)).trans hParts
    rw [Nat.succ_mul] at hFits
    have hSome : targets ≠ [] := length_pos_iff.mp (by omega)
    -- the last part takes the remainder
    obtain ⟨rangeMax, hMax, hMin, hEnd, hRest⟩ : ∃ rangeMax : Nat,
        (if i = numTargets - 1 then (targets.length : Int) - 1
          else ((i : Int) * partSize) + partSize - 1) = rangeMax ∧
        i * partSize ≤ rangeMax ∧ rangeMax < targets.length ∧
        (left ≠ 0 → rangeMax + 1 = (i + 1) * partSize) := by
      by_cases hLast : i = numTargets - 1
      · refine ⟨targets.length - 1, ?_, by omega, by omega, fun h => absurd h (by omega)⟩
        rw [if_pos hLast]
        omega
      refine ⟨i * partSize + partSize - 1, ?_, by omega, by omega, fun _ => ?_⟩
      · rw [if_neg hLast]
        push_cast [show 1 ≤ i * partSize + partSize by omega]
        rfl
      · rw [Nat.succ_mul]
        omega
    obtain ⟨next, randGen₁, hRand, hLow, hHigh⟩ := getNextInIntRange_spec randGen hMin
    obtain ⟨t, hGet, hDrop⟩ := drop_rotate targets start
      (show next < targets.length by omega)
    have hTail : (t :: (targets.rotate start).drop (rangeMax + 1)).Sublist
        ((targets.rotate start).drop (i * partSize)) := by
      refine List.Sublist.trans ?_ (drop_sublist_drop_left _ hLow)
      rw [hDrop]
      exact (drop_sublist_drop_left _ (by omega)).cons_cons t
    unfold pickFromParts
    dsimp only
    rw [← hi, hMax]
    push_cast at hRand
    rw [hRand]
    dsimp only
    rw [show ((next : Int) - i * partSize).toNat = next - i * partSize by
        rw [← Int.natCast_mul]; omega,
      moveIterInRing_mod hSome, Nat.add_sub_cancel' hLow, hGet]
    dsimp only
    rw [show ((rangeMax : Int) + 1 - next).toNat = rangeMax + 1 - next by omega,
      moveIterInRing_mod hSome, Nat.add_sub_cancel' (by omega)]
    cases left with
    | zero =>
      refine ⟨[t], randGen₁, rfl, ?_, rfl⟩
      exact (singleton_sublist.mpr (mem_cons_self)).trans hTail
    | succ left =>
      rw [hRest (Nat.succ_ne_zero left), ← hNext]
      obtain ⟨picked, randGen₂, hPicked, hSub, hLength⟩ :=
        ih (by omega) randGen₁ (outTargets ++ [t])
      refine ⟨t :: picked, randGen₂, ?_, ?_, by rw [length_cons, hLength]⟩
      · rw [hPicked, append_assoc]
        rfl
      · rw [hNext, ← hRest (Nat.succ_ne_zero left)] at hSub
        exact (hSub.cons_cons t).trans hTail

theorem moveIterToRandomElem_mod {targets : List Nat} (hSome : targets ≠ [])
    (randGen : RandomReentrant) : ∃ start randGen',
      moveIterToRandomElem targets randGen = (start % targets.length, randGen') := by
  refine ⟨(moveIterToRandomElem targets randGen).1, (moveIterToRandomElem targets randGen).2, ?_⟩
  rw [Nat.mod_eq_of_lt (moveIterToRandomElem_lt hSome randGen)]

theorem chooseStorageNodesNoPref_spec (activeTargets : TargetSet) {numTargets : Nat}
    (hNum : 0 < numTargets) (randGen : RandomReentrant) (outTargets : List Nat) :
    ∃ picked randGen', activeTargets.chooseStorageNodesNoPref numTargets randGen outTargets =
        some (outTargets ++ picked, randGen') ∧
      Picks activeTargets picked (min numTargets activeTargets.elems.length) := by
  unfold chooseStorageNodesNoPref
  dsimp only
  split_ifs with hNone hZero
  · refine ⟨[], randGen, by rw [append_nil], ?_⟩
    exact .of_sublist (nil_sublist (activeTargets.elems.rotate 0)) (by simp [hNone])
  · have hPos := length_pos_of_ne_nil hNone
    omega
  obtain ⟨start, randGen₁, hStart⟩ := moveIterToRandomElem_mod hNone randGen
  have hSpec := pickFromParts_spec start
    (Nat.mul_div_le activeTargets.elems.length (min numTargets activeTargets.elems.length))
    (Nat.div_pos (min_le_right _ _) (Nat.pos_of_ne_zero hZero)) _ le_rfl randGen₁ outTargets
  rw [Nat.sub_self, zero_mul, add_zero, drop_zero] at hSpec
  obtain ⟨picked, randGen₂, hPicked, hSub, hLength⟩ := hSpec
  rw [hStart]
  exact ⟨picked, randGen₂, hPicked, .of_sublist hSub hLength⟩

def preferredIn (activeTargets : TargetSet) (preferredTargets : List Nat) : List Nat :=
  preferredTargets.filter activeTargets.contains

theorem pickPreferred_spec (activeTargets : TargetSet) (preferredTargets : List Nat)
    (start : Nat) {steps k : Nat} (hSteps : steps + k = preferredTargets.length)
    (numTargets : Nat) (chosen : List Nat) :
    let found :=
      (preferredIn activeTargets ((preferredTargets.rotate start).drop k)).take numTargets
    pickPreferred activeTargets preferredTargets steps
        ((start + k) % preferredTargets.length) numTargets chosen =
      some (numTargets - found.length, chosen ++ found) := by
  induction steps generalizing k numTargets chosen with
  | zero =>
    rw [zero_add] at hSteps
    subst hSteps
    have hDone : (preferredTargets.rotate start).drop preferredTargets.length = [] :=
      drop_eq_nil_of_le (by rw [length_rotate])
    simp [pickPreferred, hDone, preferredIn]
  | succ steps ih =>
    have hSome : preferredTargets ≠ [] := length_pos_iff.mp (by omega)
    obtain ⟨t, hGet, hDrop⟩ := drop_rotate preferredTargets start
      (show k < preferredTargets.length by omega)
    unfold pickPreferred
    rw [hGet, hDrop]
    dsimp only
    split_ifs with hZero hIn
    · rw [hZero, take_zero, length_nil, Nat.sub_zero, append_nil]
    · rw [moveIterToNextRingElem_mod hSome, ih (by omega)]
      obtain ⟨n, rfl⟩ := Nat.exists_eq_succ_of_ne_zero hZero
      simp only [preferredIn, filter_cons, hIn, if_true, take_succ_cons,
        length_cons, Nat.succ_sub_one, append_assoc, singleton_append,
        Nat.succ_eq_add_one, Nat.add_sub_add_right]
    · rw [moveIterToNextRingElem_mod hSome, ih (by omega)]
      simp only [preferredIn, filter_cons, hIn, if_false, Bool.false_eq_true]

theorem pickNonPreferred_spec {targets : List Nat} (hNodup : targets.Nodup) (start : Nat)
    {steps k : Nat} (hSteps : steps + k = targets.length) (numTargets : Nat) (chosen : List Nat)
    (hLeft : numTargets ≤
      (((targets.rotate start).drop k).filter fun t => decide (t ∉ chosen)).length) :
    pickNonPreferred targets steps ((start + k) % targets.length) numTargets chosen =
      some (chosen ++
        (((targets.rotate start).drop k).filter fun t => decide (t ∉ chosen)).take numTargets) := by
  induction steps generalizing k numTargets chosen with
  | zero =>
    rw [zero_add] at hSteps
    subst hSteps
    have hDone : (targets.rotate start).drop targets.length = [] :=
      drop_eq_nil_of_le (by rw [length_rotate])
    rw [hDone, filter_nil, length_nil, Nat.le_zero] at hLeft
    subst hLeft
    simp [pickNonPreferred]
  | succ steps ih =>
    have hSome : targets ≠ [] := length_pos_iff.mp (by omega)
    obtain ⟨t, hGet, hDrop⟩ := drop_rotate targets start
      (show k < targets.length by omega)
    have hRest : t ∉ (targets.rotate start).drop (k + 1) := by
      have hDropped := (nodup_rotate (n := start)).mpr hNodup |>.sublist
        (drop_sublist k _)
      rw [hDrop] at hDropped
      exact (nodup_cons.mp hDropped).1
    cases numTargets with
    | zero => simp [pickNonPreferred]
    | succ numTargets =>
      unfold pickNonPreferred
      rw [hGet]
      rw [hDrop] at hLeft ⊢
      dsimp only
      by_cases hIn : t ∈ chosen
      · rw [filter_cons_of_neg (by simp [hIn])] at hLeft ⊢
        rw [if_pos hIn, moveIterToNextRingElem_mod hSome, ih (by omega) _ _ hLeft]
      rw [filter_cons_of_pos (by simp [hIn])] at hLeft ⊢
      -- what is picked now does not come again in this round
      have hSame : (((targets.rotate start).drop (k + 1)).filter fun u =>
          decide (u ∉ chosen ++ [t])) =
          ((targets.rotate start).drop (k + 1)).filter fun u => decide (u ∉ chosen) := by
        apply filter_congr
        intro u hu
        have hNe : u ≠ t := fun h => hRest (h ▸ hu)
        simp [hNe]
      rw [length_cons] at hLeft
      rw [if_neg hIn, moveIterToNextRingElem_mod hSome,
        ih (by omega) _ _ (by rw [hSame]; omega), hSame, take_succ_cons, append_assoc]
      rfl

section WithPref

variable (activeTargets : TargetSet) {preferredTargets : List Nat}

theorem length_preferredIn_le (hNodup : preferredTargets.Nodup) :
    (preferredIn activeTargets preferredTargets).length ≤ activeTargets.elems.length := by
  apply (subperm_of_subset (hNodup.filter _) ?_).length_le
  intro t ht
  exact contains_id_iff.mp (mem_filter.mp ht).2

theorem preferredIn_of_empty (hNone : activeTargets.elems = []) :
    preferredIn activeTargets preferredTargets = [] := by
  apply filter_eq_nil_iff.mpr
  intro t _ hIn
  have hMem : t ∈ activeTargets.elems := contains_id_iff.mp hIn
  rw [hNone] at hMem
  cases hMem

theorem picks_preferredIn (hNodup : preferredTargets.Nodup) (start numTargets : Nat) :
    Picks activeTargets ((preferredIn activeTargets (preferredTargets.rotate start)).take
        (min numTargets activeTargets.elems.length))
      (min numTargets (preferredIn activeTargets preferredTargets).length) where
  mem := by
    intro t ht
    exact contains_id_iff.mp (mem_filter.mp (mem_of_mem_take ht)).2
  nodup := ((nodup_rotate.mpr hNodup).filter _).sublist (take_sublist _ _)
  length_eq := by
    have hPerm : (preferredIn activeTargets (preferredTargets.rotate start)).length =
        (preferredIn activeTargets preferredTargets).length :=
      ((rotate_perm preferredTargets start).filter _).length_eq
    have hLe := length_preferredIn_le activeTargets hNodup
    rw [length_take, hPerm]
    omega

theorem length_filter_not_mem (found : List Nat) (start : Nat) :
    activeTargets.elems.length - found.length ≤
      ((activeTargets.elems.rotate start).filter fun t => decide (t ∉ found)).length := by
  have hRot : (activeTargets.elems.rotate start).Nodup := nodup_rotate.mpr activeTargets.nodup_elems
  have hFound : ((activeTargets.elems.rotate start).filter fun t => decide (t ∈ found)).length ≤
      found.length := by
    apply (subperm_of_subset (hRot.filter _) ?_).length_le
    intro t ht
    exact of_decide_eq_true (mem_filter.mp ht).2
  have hSplit := (activeTargets.elems.rotate start).length_eq_length_filter_add
    fun t => decide (t ∈ found)
  simp only [← decide_not] at hSplit
  rw [length_rotate] at hSplit
  omega

theorem chooseStorageNodesWithPref_spec (hPreferred : preferredTargets ≠ [])
    (hNodup : preferredTargets.Nodup) (numTargets : Nat) (allowNonPreferredTargets : Bool)
    (randGen : RandomReentrant) (outTargets : List Nat) :
    ∃ picked randGen', activeTargets.chooseStorageNodesWithPref numTargets preferredTargets
        allowNonPreferredTargets randGen outTargets = some (outTargets ++ picked, randGen') ∧
      Picks activeTargets picked (min numTargets
        (if allowNonPreferredTargets then activeTargets.elems.length
          else (preferredIn activeTargets preferredTargets).length)) := by
  by_cases hNone : activeTargets.elems = []
  · refine ⟨[], randGen, ?_, .of_sublist (nil_sublist (activeTargets.elems.rotate 0)) ?_⟩
    · unfold chooseStorageNodesWithPref
      rw [if_pos hNone, append_nil]
    · rw [preferredIn_of_empty activeTargets hNone, hNone]
      simp
  obtain ⟨start, randGen₁, hStart⟩ := moveIterToRandomElem_mod hPreferred randGen
  have hFirst := pickPreferred_spec activeTargets preferredTargets start
    (add_zero _) (min numTargets activeTargets.elems.length) []
  obtain ⟨found, hFoundEq⟩ : ∃ found, found = (preferredIn activeTargets
      (preferredTargets.rotate start)).take (min numTargets activeTargets.elems.length) := ⟨_, rfl⟩
  have hFound := picks_preferredIn activeTargets hNodup start numTargets
  dsimp only at hFirst
  rw [add_zero, drop_zero, nil_append, ← hFoundEq] at hFirst
  rw [← hFoundEq] at hFound
  have hLe := length_preferredIn_le activeTargets hNodup
  have hLength := hFound.length_eq
  unfold chooseStorageNodesWithPref
  rw [if_neg hNone, hStart]
  dsimp only
  rw [hFirst]
  cases allowNonPreferredTargets with
  | false => exact ⟨found, randGen₁, rfl, hFound⟩
  | true =>
    simp only [Bool.true_and, decide_eq_true_eq, if_true]
    split_ifs with hMore
    · obtain ⟨start', randGen₂, hStart'⟩ := moveIterToRandomElem_mod hNone randGen₁
      have hLeft := length_filter_not_mem activeTargets found start'
      have hSecond := pickNonPreferred_spec activeTargets.nodup_elems start' (add_zero _)
        (min numTargets activeTargets.elems.length - found.length) found
        (by rw [drop_zero]; omega)
      rw [add_zero, drop_zero] at hSecond
      rw [hStart']
      rw [hSecond]
      refine ⟨_, randGen₂, rfl, ?_, ?_, ?_⟩
      · intro t ht
        rcases mem_append.mp ht with hOld | hNew
        · exact hFound.mem t hOld
        · exact mem_rotate.mp (mem_filter.mp (mem_of_mem_take hNew)).1
      · refine hFound.nodup.append ?_ ?_
        · exact ((nodup_rotate.mpr activeTargets.nodup_elems).filter _).sublist
            (take_sublist _ _)
        · intro t hOld hNew
          exact of_decide_eq_true (mem_filter.mp (mem_of_mem_take hNew)).2 hOld
      · rw [length_append, length_take]
        omega
    · exact ⟨found, randGen₁, rfl, hFound.mem, hFound.nodup, by omega⟩

end WithPref

end TargetSet

/-! ## The pools one after the other -/

section Pools

open TargetSet

variable {pools : CapacityPoolType → TargetSet}

def DisjointPools (pools : CapacityPoolType → TargetSet) : Prop :=
  ∀ p q t, t ∈ pools p → t ∈ pools q → p = q

/-- Each target is in some pool and none comes twice. -/
structure ValidTargets (pools : CapacityPoolType → TargetSet) (outTargets : List Nat) :
    Prop where
  in_pool : ∀ t ∈ outTargets, ∃ p, t ∈ pools p
  nodup : outTargets.Nodup

theorem ValidTargets.of_picks {p : CapacityPoolType} {picked : List Nat} {number : Nat}
    (h : Picks (pools p) picked number) : ValidTargets pools picked :=
  ⟨fun t ht => ⟨p, h.mem t ht⟩, h.nodup⟩

theorem ValidTargets.append {outTargets picked : List Nat} (h : ValidTargets pools outTargets)
    {q : CapacityPoolType} {number : Nat} (hPicked : Picks (pools q) picked number)
    (hNew : ∀ t ∈ outTargets, t ∉ pools q) : ValidTargets pools (outTargets ++ picked) where
  in_pool := by
    intro t ht
    rcases mem_append.mp ht with hOld | hAdded
    · exact h.in_pool t hOld
    · exact ⟨q, hPicked.mem t hAdded⟩
  nodup := h.nodup.append hPicked.nodup fun t hOld hAdded => hNew t hOld (hPicked.mem t hAdded)

theorem DisjointPools.not_mem (hPools : DisjointPools pools) {p q : CapacityPoolType} {t : Nat}
    (ht : t ∈ pools p) (hNe : p ≠ q) : t ∉ pools q :=
  fun hq => hNe (hPools p q t ht hq)

/-- The number of targets that the choosers may take from a pool. -/
def numCandidates (pools : CapacityPoolType → TargetSet) (preferredTargets : List Nat)
    (allowNonPreferredTargets : Bool) (p : CapacityPoolType) : Nat :=
  if allowNonPreferredTargets then (pools p).elems.length
  else (preferredIn (pools p) preferredTargets).length

variable {numTargets minNumRequiredTargets : Nat}

section

variable (hPools : DisjointPools pools) (hNum : minNumRequiredTargets ≤ numTargets)
  (randGen : RandomReentrant)
include hPools hNum

theorem chooseWithoutPreference_spec (hMin : 1 ≤ minNumRequiredTargets) :
    ∃ outTargets randGen', chooseWithoutPreference pools numTargets minNumRequiredTargets randGen =
        some (outTargets, randGen') ∧ ValidTargets pools outTargets ∧
      min minNumRequiredTargets ((pools .NORMAL).elems.length + (pools .LOW).elems.length +
        (pools .EMERGENCY).elems.length) ≤ outTargets.length ∧
      (((pools .NORMAL).elems.length + (pools .LOW).elems.length < minNumRequiredTargets →
        (pools .NORMAL).elems.length + (pools .LOW).elems.length = 0) →
      outTargets.length ≤ numTargets) := by
  obtain ⟨picked, randGen₁, hNormal, hPicked⟩ :=
    chooseStorageNodesNoPref_spec (pools .NORMAL) (hMin.trans hNum) randGen []
  have hLength := hPicked.length_eq
  unfold chooseWithoutPreference
  rw [hNormal, nil_append]
  dsimp only [bind_eq_bind, bind_some]
  split_ifs with hEnough <;> rw [← length_pos_iff] at hEnough
  · exact ⟨picked, randGen₁, rfl, .of_picks hPicked, by omega, fun _ => by omega⟩
  obtain ⟨added, randGen₂, hLow, hAdded⟩ :=
    chooseStorageNodesNoPref_spec (pools .LOW) (show 0 < numTargets - picked.length by omega)
      randGen₁ picked
  have hMore := hAdded.length_eq
  have hValid := (ValidTargets.of_picks hPicked).append hAdded fun t ht =>
    hPools.not_mem (hPicked.mem t ht) (by decide)
  rw [hLow]
  dsimp only [bind_some]
  rw [length_append]
  split_ifs with hEnoughLow <;> rw [← length_pos_iff] at hEnoughLow
  · refine ⟨picked ++ added, randGen₂, rfl, hValid, ?_⟩
    rw [length_append]
    omega
  obtain ⟨rest, randGen₃, hEmergency, hRest⟩ :=
    chooseStorageNodesNoPref_spec (pools .EMERGENCY) (show 0 < numTargets by omega) randGen₂
      (picked ++ added)
  have hLast := hRest.length_eq
  refine ⟨picked ++ added ++ rest, randGen₃, hEmergency, hValid.append hRest ?_, ?_⟩
  · intro t ht
    rcases mem_append.mp ht with hOld | hNew
    · exact hPools.not_mem (hPicked.mem t hOld) (by decide)
    · exact hPools.not_mem (hAdded.mem t hNew) (by decide)
  · rw [length_append, length_append]
    omega

theorem chooseAboveEmergency_spec {preferredTargets : List Nat} (hPreferred : preferredTargets ≠ [])
    (hNodup : preferredTargets.Nodup) (allowNonPreferredTargets : Bool) :
    ∃ outTargets randGen', chooseAboveEmergency pools numTargets minNumRequiredTargets
        preferredTargets allowNonPreferredTargets randGen [] = some (outTargets, randGen') ∧
      ValidTargets pools outTargets ∧ outTargets.length ≤ numTargets ∧
      min minNumRequiredTargets
          (numCandidates pools preferredTargets allowNonPreferredTargets .NORMAL +
            numCandidates pools preferredTargets allowNonPreferredTargets .LOW) ≤
        outTargets.length ∧
      outTargets.length ≤ numCandidates pools preferredTargets allowNonPreferredTargets .NORMAL +
        numCandidates pools preferredTargets allowNonPreferredTargets .LOW := by
  obtain ⟨picked, randGen₁, hNormal, hPicked⟩ := chooseStorageNodesWithPref_spec (pools .NORMAL)
    hPreferred hNodup numTargets allowNonPreferredTargets randGen []
  have hLength := hPicked.length_eq
  rw [← numCandidates] at hLength
  unfold chooseAboveEmergency
  rw [hNormal, nil_append]
  dsimp only [bind_eq_bind, bind_some]
  split_ifs with hEnough
  · exact ⟨picked, randGen₁, rfl, .of_picks hPicked, by omega, by omega, by omega⟩
  obtain ⟨added, randGen₂, hLow, hAdded⟩ := chooseStorageNodesWithPref_spec (pools .LOW)
    hPreferred hNodup (numTargets - picked.length) allowNonPreferredTargets randGen₁ picked
  have hMore := hAdded.length_eq
  rw [← numCandidates] at hMore
  have hValid := (ValidTargets.of_picks hPicked).append hAdded fun t ht =>
    hPools.not_mem (hPicked.mem t ht) (by decide)
  refine ⟨picked ++ added, randGen₂, hLow, hValid, ?_⟩
  rw [length_append]
  omega

end

/-- The number of targets that count for the required minimum: with preferred targets, the first
of these groups that has any decides. -/
def numEligible (pools : CapacityPoolType → TargetSet) (preferredTargets : List Nat) : Nat :=
  let size := numCandidates pools preferredTargets true
  let preferred := numCandidates pools preferredTargets false
  if preferredTargets = [] then size .NORMAL + size .LOW + size .EMERGENCY
  else if preferred .NORMAL + preferred .LOW ≠ 0 then preferred .NORMAL + preferred .LOW
  else if size .NORMAL + size .LOW ≠ 0 then size .NORMAL + size .LOW
  else if preferred .EMERGENCY ≠ 0 then preferred .EMERGENCY
  else size .EMERGENCY

theorem chooseWithPreference_spec (hPools : DisjointPools pools) (hMin : 1 ≤ minNumRequiredTargets)
    (hNum : minNumRequiredTargets ≤ numTargets) {preferredTargets : List Nat}
    (hPreferred : preferredTargets ≠ []) (hNodup : preferredTargets.Nodup)
    (randGen : RandomReentrant) :
    ∃ outTargets randGen', chooseWithPreference pools numTargets minNumRequiredTargets
        preferredTargets randGen = some (outTargets, randGen') ∧
      ValidTargets pools outTargets ∧ outTargets.length ≤ numTargets ∧
      min minNumRequiredTargets (numEligible pools preferredTargets) ≤ outTargets.length := by
  obtain ⟨first, randGen₁, hFirst, hValid₁, hMost₁, hLeast₁, hBound₁⟩ :=
    chooseAboveEmergency_spec hPools hNum randGen hPreferred hNodup false
  unfold chooseWithPreference numEligible
  rw [hFirst, if_neg hPreferred]
  dsimp only [bind_eq_bind, bind_some]
  by_cases hAny₁ : first = []
  · subst hAny₁
    rw [length_nil] at hLeast₁
    rw [if_neg (by simp; omega), if_neg (by omega)]
    obtain ⟨second, randGen₂, hSecond, hValid₂, hMost₂, hLeast₂, hBound₂⟩ :=
      chooseAboveEmergency_spec hPools hNum randGen₁ hPreferred hNodup true
    rw [hSecond]
    dsimp only [bind_some]
    by_cases hAny₂ : second = []
    · subst hAny₂
      rw [length_nil] at hLeast₂
      rw [if_neg (by simp; omega), if_neg (by omega)]
      obtain ⟨third, randGen₃, hThird, hPicked₃⟩ := chooseStorageNodesWithPref_spec
        (pools .EMERGENCY) hPreferred hNodup numTargets false randGen₂ []
      have hLength₃ := hPicked₃.length_eq
      rw [← numCandidates] at hLength₃
      rw [hThird, nil_append]
      dsimp only [bind_some]
      by_cases hAny₃ : third = []
      · subst hAny₃
        rw [length_nil] at hLength₃
        obtain ⟨fourth, randGen₄, hFourth, hPicked₄⟩ := chooseStorageNodesWithPref_spec
          (pools .EMERGENCY) hPreferred hNodup numTargets true randGen₃ []
        have hLength₄ := hPicked₄.length_eq
        rw [← numCandidates] at hLength₄
        rw [if_neg (not_not.mpr rfl), if_neg (by omega), hFourth]
        exact ⟨fourth, randGen₄, rfl, .of_picks hPicked₄, by omega, by omega⟩
      · have hPos := length_pos_of_ne_nil hAny₃
        rw [if_pos hAny₃, if_pos (by omega)]
        exact ⟨third, randGen₃, rfl, .of_picks hPicked₃, by omega, by omega⟩
    · have hPos := length_pos_of_ne_nil hAny₂
      rw [if_pos (Or.inr hAny₂), if_pos (by omega)]
      exact ⟨second, randGen₂, rfl, hValid₂, hMost₂, hLeast₂⟩
  · have hPos := length_pos_of_ne_nil hAny₁
    rw [if_pos (Or.inr hAny₁), if_pos (by omega)]
    exact ⟨first, randGen₁, rfl, hValid₁, hMost₁, hLeast₁⟩

end Pools

/-! ## Stripe sets -/

/-- What a choice of storage targets gives: valid targets, as many as are eligible for the
required minimum, and not more than wanted unless targets of the emergency pool were added to
some of the other pools. -/
structure StripeSet (pools : CapacityPoolType → TargetSet)
    (numTargets minNumRequiredTargets : Nat) (preferredTargets outTargets : List Nat) : Prop
    extends ValidTargets pools outTargets where
  at_most : (preferredTargets = [] →
    (pools .NORMAL).elems.length + (pools .LOW).elems.length < minNumRequiredTargets →
      (pools .NORMAL).elems.length + (pools .LOW).elems.length = 0) →
    outTargets.length ≤ numTargets
  at_least : min minNumRequiredTargets (numEligible pools preferredTargets) ≤ outTargets.length

/-- The chooser answers for all arguments, with a stripe set. -/
def ChoosesStripeSets (pools : CapacityPoolType → TargetSet)
    (choose : Nat → Nat → Option (List Nat) → RandomReentrant → Option (List Nat)) : Prop :=
  ∀ numTargets minNumRequiredTargets preferredTargets randGen, 1 ≤ minNumRequiredTargets →
    minNumRequiredTargets ≤ numTargets → (preferredTargets.getD []).Nodup →
    ∃ outTargets, choose numTargets minNumRequiredTargets preferredTargets randGen =
        some outTargets ∧
      StripeSet pools numTargets minNumRequiredTargets (preferredTargets.getD []) outTargets

theorem chooseFromPools_stripeSets {pools : CapacityPoolType → TargetSet}
    (hPools : DisjointPools pools) : ChoosesStripeSets pools (chooseFromPools pools) := by
  intro numTargets minNumRequiredTargets preferredTargets randGen hMin hNum hNodup
  unfold chooseFromPools
  generalize preferredTargets.getD [] = preferredTargets at hNodup ⊢
  dsimp only
  split_ifs with hNone
  · obtain ⟨outTargets, randGen', hChosen, hValid, hLeast, hMost⟩ :=
      chooseWithoutPreference_spec hPools hNum randGen hMin
    refine ⟨outTargets, by rw [hChosen]; rfl, hValid, fun h => hMost (h hNone), ?_⟩
    unfold numEligible
    rw [if_pos hNone]
    exact hLeast
  · obtain ⟨outTargets, randGen', hChosen, hValid, hMost, hLeast⟩ :=
      chooseWithPreference_spec hPools hMin hNum hNone hNodup randGen
    exact ⟨outTargets, by rw [hChosen]; rfl, hValid, fun _ => hMost, hLeast⟩

/-- Both classes choose stripe sets from disjoint pools. -/
theorem chooseStorageTargets_stripeSets (s : TargetCapacityPools) (nodes : NodeCapacityPools) :
    (DisjointPools s.pools → ChoosesStripeSets s.pools s.chooseStorageTargets) ∧
      (DisjointPools nodes.pools → ChoosesStripeSets nodes.pools nodes.chooseStorageTargets) :=
  ⟨chooseFromPools_stripeSets, chooseFromPools_stripeSets⟩

/-- Two targets with free space and one in the emergency pool. -/
def threeTargets (poolType : CapacityPoolType) : TargetSet :=
  match poolType with
  | .NORMAL => ⟨[1, 2], by decide⟩
  | .LOW => ⟨[], by decide⟩
  | .EMERGENCY => ⟨[3], by decide⟩

theorem threeTargets_disjoint : DisjointPools threeTargets := by
  intro p q t hp hq
  cases p <;> cases q <;> simp_all [threeTargets, OrderedSet.mem_def]

/-- The one preferred target is chosen, and no other beside it. -/
theorem not_chooseStorageTargets_enough :
    ¬ ∀ s : TargetCapacityPools, DisjointPools s.pools →
      ∀ numTargets minNumRequiredTargets preferredTargets randGen, 1 ≤ minNumRequiredTargets →
        minNumRequiredTargets ≤ numTargets → (preferredTargets.getD []).Nodup →
        ∃ outTargets, s.chooseStorageTargets numTargets minNumRequiredTargets preferredTargets
            randGen = some outTargets ∧ ValidTargets s.pools outTargets ∧
          outTargets.length ≤ numTargets ∧
          min minNumRequiredTargets ((s.pools .NORMAL).elems.length +
            (s.pools .LOW).elems.length + (s.pools .EMERGENCY).elems.length) ≤
              outTargets.length := by
  intro hAll
  obtain ⟨outTargets, hChosen, -, -, hLeast⟩ :=
    hAll ⟨threeTargets, fun _ => empty, empty⟩ threeTargets_disjoint 2 2
      (some [1]) (fun _ => 0) (by decide) (by decide) (by decide)
  have hOne : some [1] = some outTargets := hChosen
  rw [← some.inj hOne] at hLeast
  exact absurd hLeast (by decide)

theorem chooseStorageTargets_stripeSets_threeTargets :
    ∃ outTargets, NodeCapacityPools.chooseStorageTargets ⟨threeTargets⟩ 3 2 none (fun _ => 1) =
        some outTargets ∧ StripeSet threeTargets 3 2 [] outTargets :=
  (chooseStorageTargets_stripeSets
    ⟨threeTargets, fun _ => empty, empty⟩ ⟨threeTargets⟩).2
    threeTargets_disjoint 3 2 none (fun _ => 1) (by decide) (by decide) (by decide)

end Fhgfs.Nodes
