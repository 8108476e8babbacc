import Fhgfs.Lib.Run
import Fhgfs.Nodes.TargetCapacityPools

/-!
# The representation of capacity pools

The flat pools, the groups and the target map say the same about each target (`Represented`).
Removals and syncs keep this. `addOrUpdateUnlocked` keeps it exactly if the target does not change
its node within a pool and is not the last one of the group that it leaves: it does not look at
the groups of the pool it adds to, and it leaves emptied groups behind. While the representation
holds, the choosers never read an empty group and pick targets of the pool and the node only.
-/

namespace Fhgfs.Nodes

open OrderedSet GroupedTargets Option OrderedMap TargetMap List

namespace GroupedTargets

variable (groupedTargets : GroupedTargets)

theorem group_put (n m : Nat) (targets : TargetSet) :
    group (groupedTargets.put n targets) m = if m = n then targets else groupedTargets.group m := by
  unfold group
  rw [find_put]
  split_ifs <;> rfl

theorem group_remove (n m : Nat) : group (groupedTargets.remove n) m =
    if m = n then empty else groupedTargets.group m := by
  unfold group
  rw [find_remove]
  split_ifs <;> rfl

variable {targets : TargetSet}

theorem group_of_find {groupedTargets : GroupedTargets} {n : Nat}
    (h : groupedTargets.find n = some targets) : groupedTargets.group n = targets := by
  rw [group, h, getD_some]

def NoEmptyGroup : Prop :=
  ∀ n targets, groupedTargets.find n = some targets → ∃ t, t ∈ targets

variable {groupedTargets}

theorem NoEmptyGroup.put (h : groupedTargets.NoEmptyGroup) {n : Nat} (hTargets : ∃ t, t ∈ targets) :
    NoEmptyGroup (groupedTargets.put n targets) := by
  intro m targets' hFind
  rw [find_put] at hFind
  split_ifs at hFind
  · cases hFind
    exact hTargets
  · exact h m targets' hFind

theorem NoEmptyGroup.remove (h : groupedTargets.NoEmptyGroup) (n : Nat) :
    NoEmptyGroup (groupedTargets.remove n) := by
  intro m targets' hFind
  rw [find_remove] at hFind
  split_ifs at hFind
  exact h m targets' hFind

theorem group_eraseTarget {n t : Nat}
    (hFind : groupedTargets.find n = some targets) (hIn : t ∈ targets)
    (hOnly : ∀ m, t ∈ groupedTargets.group m → m = n) (m u : Nat) :
    u ∈ (groupedTargets.eraseTarget n targets t).group m ↔ u ∈ groupedTargets.group m ∧ u ≠ t := by
  have hOther : m ≠ n → (u ∈ groupedTargets.group m ↔ u ∈ groupedTargets.group m ∧ u ≠ t) := by
    intro hm
    refine ⟨fun hu => ⟨hu, ?_⟩, fun hu => hu.1⟩
    rintro rfl
    exact hm (hOnly m hu)
  unfold eraseTarget
  split_ifs with hLast
  · rw [group_remove]
    split_ifs with hm
    · rw [hm, group_of_find hFind, ← mem_erase_of_mem hIn]
      refine iff_of_false (not_mem_empty u) fun hu => ?_
      have hElem : u ∈ (targets.erase t).elems := hu
      rw [hLast] at hElem
      exact not_mem_nil hElem
    · exact hOther hm
  · rw [group_put]
    split_ifs with hm
    · rw [hm, group_of_find hFind, mem_erase_of_mem hIn]
    · exact hOther hm

theorem NoEmptyGroup.eraseTarget (h : groupedTargets.NoEmptyGroup) (n t : Nat)
    (targets : TargetSet) : (groupedTargets.eraseTarget n targets t).NoEmptyGroup := by
  unfold GroupedTargets.eraseTarget
  split_ifs with hLast
  · exact h.remove n
  · exact h.put (exists_mem_of_ne_nil _ hLast)

end GroupedTargets

namespace TargetCapacityPools

/-- Each target is in one pool at most, its group is the one of its pool and its recorded node,
and there are no empty groups. -/
structure Represented (s : TargetCapacityPools) : Prop where
  one_pool {t : Nat} {p q : CapacityPoolType} : t ∈ s.pools p → t ∈ s.pools q → p = q
  mem_group {t n : Nat} {p : CapacityPoolType} :
    t ∈ (s.groupedTargetPools p).group n ↔ t ∈ s.pools p ∧ s.targetMap.find t = some n
  no_empty_group (p : CapacityPoolType) : (s.groupedTargetPools p).NoEmptyGroup

def NonzeroNodes (targetMap : TargetMap) : Prop :=
  ∀ t n, targetMap.find t = some n → n ≠ 0

theorem getNodeIDFromTargetID_iff {targetMap : TargetMap} {t n : Nat} (hn : n ≠ 0) :
    targetMap.getNodeIDFromTargetID t = n ↔ targetMap.find t = some n := by
  unfold getNodeIDFromTargetID
  cases hFind : targetMap.find t with
  | none => simp [Ne.symm hn]
  | some m => simp

theorem Represented.init : Represented init := by
  refine ⟨?_, ?_, ?_⟩
  · intro t p q ht
    exact absurd ht (not_mem_empty t)
  · intro t n p
    refine iff_of_false (not_mem_empty t) fun h => ?_
    exact absurd h.1 (not_mem_empty t)
  · intro p n targets hFind
    cases hFind

/-! ## Where a target is -/

section Lookup

variable {s : TargetCapacityPools} {t : Nat}

theorem poolOf_eq_some {p : CapacityPoolType} (h : s.poolOf t = some p) : t ∈ s.pools p :=
  contains_id_iff.mp (by simpa using find?_some h)

theorem poolOf_eq_none (h : s.poolOf t = none) (p : CapacityPoolType) : t ∉ s.pools p := by
  intro ht
  exact find?_eq_none.mp h p p.mem_all (contains_id_iff.mpr ht)

/-- With at most one other pool that has the target, the removal from the other pools leaves it in
`keepPool` only, and takes it out of the group of its previous node. -/
theorem removeFromOthersUnlocked_spec {keepPool : CapacityPoolType} (previousNodeID : Nat)
    (hOne : ∀ p q, p ≠ keepPool → q ≠ keepPool → t ∈ s.pools p → t ∈ s.pools q → p = q) :
    (∀ q u, u ∈ (s.removeFromOthersUnlocked t previousNodeID keepPool).pools q ↔
      u ∈ s.pools q ∧ (u = t → q = keepPool)) ∧
    (∀ q, (s.removeFromOthersUnlocked t previousNodeID keepPool).groupedTargetPools q =
      if q ≠ keepPool ∧ t ∈ s.pools q ∧ previousNodeID ≠ 0 then
        (s.groupedTargetPools q).put previousNodeID
          (((s.groupedTargetPools q).group previousNodeID).erase t)
      else s.groupedTargetPools q) := by
  unfold removeFromOthersUnlocked
  split
  · rename_i hNone
    have hAbsent : ∀ q, q ≠ keepPool → t ∉ s.pools q := by
      intro q hq ht
      have hNot := find?_eq_none.mp hNone q q.mem_all
      simp [hq, contains_id_iff.mpr ht] at hNot
    refine ⟨fun q u => ⟨fun hu => ⟨hu, ?_⟩, fun hu => hu.1⟩, fun q => ?_⟩
    · rintro rfl
      by_contra hq
      exact hAbsent q hq hu
    · rw [if_neg]
      rintro ⟨hq, ht, -⟩
      exact hAbsent q hq ht
  · rename_i p hSome
    have hFound := find?_some hSome
    rw [Bool.and_eq_true, decide_eq_true_eq, contains_id_iff] at hFound
    obtain ⟨hp, ht⟩ := hFound
    have hPools : ∀ q u, u ∈ (s.setPool p ((s.pools p).erase t)).pools q ↔
        u ∈ s.pools q ∧ (u = t → q = keepPool) := by
      intro q u
      rw [setPool_pools]
      by_cases hq : q = p
      · subst hq
        rw [if_pos rfl, mem_erase]
        exact and_congr_right fun _ => ⟨fun hu hSame => absurd hSame hu,
          fun hu hSame => hp (hu hSame)⟩
      rw [if_neg hq]
      refine ⟨fun hu => ⟨hu, ?_⟩, fun hu => hu.1⟩
      rintro rfl
      by_contra hKeep
      exact hq (hOne q p hKeep hp hu ht)
    by_cases hZero : previousNodeID = 0
    · rw [if_pos hZero]
      refine ⟨hPools, fun q => ?_⟩
      rw [if_neg fun h => h.2.2 hZero]
      rfl
    rw [if_neg hZero]
    refine ⟨hPools, fun q => ?_⟩
    rw [setGroups_groupedTargetPools, setPool_groupedTargetPools]
    by_cases hq : q = p
    · subst hq
      rw [if_pos rfl, if_pos ⟨hp, ht, hZero⟩]
    · rw [if_neg hq, if_neg fun h => hq (hOne q p h.1 hp h.2.1 ht)]

end Lookup

/-! ## Adding -/

section

variable {s : TargetCapacityPools} {t : Nat} (n : Nat) (p : CapacityPoolType)
  (hOne : ∀ q q', t ∈ s.pools q → t ∈ s.pools q' → q = q')
include hOne

/-- What `addOrUpdateUnlocked` leaves in the pools and in the groups, of a target that is in one
pool at most. -/
theorem addOrUpdateUnlocked_spec :
    (∀ q u, u ∈ (s.addOrUpdateUnlocked t n p).2.pools q ↔ u ∈ s.pools q ∧ u ≠ t ∨ u = t ∧ q = p) ∧
    (∀ q, (s.addOrUpdateUnlocked t n p).2.groupedTargetPools q =
      if q = p then
        (s.groupedTargetPools p).put n (((s.groupedTargetPools p).group n).insert t)
      else if t ∈ s.pools q ∧ s.targetMap.getNodeIDFromTargetID t ≠ 0 then
        (s.groupedTargetPools q).put (s.targetMap.getNodeIDFromTargetID t)
          (((s.groupedTargetPools q).group (s.targetMap.getNodeIDFromTargetID t)).erase t)
      else s.groupedTargetPools q) := by
  generalize hInserted : (s.setPool p ((s.pools p).insert t)).setGroups p
    ((s.groupedTargetPools p).put n (((s.groupedTargetPools p).group n).insert t)) = inserted
  have hPools : ∀ q u, u ∈ inserted.pools q ↔ u ∈ s.pools q ∨ u = t ∧ q = p := by
    intro q u
    rw [← hInserted, setGroups_pools, setPool_pools]
    by_cases hq : q = p
    · subst hq
      rw [if_pos rfl, mem_insert_id]
      simp
    · simp [hq]
  have hGroups : ∀ q, inserted.groupedTargetPools q = if q = p then
      (s.groupedTargetPools p).put n (((s.groupedTargetPools p).group n).insert t)
      else s.groupedTargetPools q := by
    intro q
    rw [← hInserted, setGroups_groupedTargetPools, setPool_groupedTargetPools]
  unfold addOrUpdateUnlocked
  simp only [hInserted]
  split_ifs with hNew
  · have hOneOther : ∀ q q', q ≠ p → q' ≠ p → t ∈ inserted.pools q → t ∈ inserted.pools q' →
        q = q' := by
      intro q q' hq hq' ht ht'
      rw [hPools] at ht ht'
      exact hOne q q' (ht.resolve_right fun h => hq h.2) (ht'.resolve_right fun h => hq' h.2)
    obtain ⟨hPools', hGroups'⟩ := removeFromOthersUnlocked_spec
      (s.targetMap.getNodeIDFromTargetID t) hOneOther
    refine ⟨fun q u => ?_, fun q => ?_⟩
    · rw [hPools', hPools]
      tauto
    · rw [hGroups', hGroups]
      by_cases hq : q = p
      · simp [hq]
      · simp [hq, hPools]
  · -- nothing was new, so the target is in this pool and in no other one
    have hHere : t ∈ s.pools p := by
      rw [Bool.or_eq_true, not_or] at hNew
      exact contains_id_iff.mp (by simpa using hNew.1)
    refine ⟨fun q u => ?_, fun q => ?_⟩
    · rw [hPools]
      by_cases hu : u = t
      · subst hu
        simp only [ne_eq, not_true_eq_false, and_false, false_or, true_and]
        exact ⟨fun h => h.elim (fun ht => hOne q p ht hHere) id, Or.inr⟩
      · simp [hu]
    · rw [hGroups]
      by_cases hq : q = p
      · simp [hq]
      · rw [if_neg hq, if_neg hq, if_neg]
        exact fun h => hq (hOne q p h.1 hHere)

theorem addOrUpdateUnlocked_mem_group_of_ne {u m : Nat} {q : CapacityPoolType} (hut : u ≠ t) :
    u ∈ ((s.addOrUpdateUnlocked t n p).2.groupedTargetPools q).group m ↔
      u ∈ (s.groupedTargetPools q).group m := by
  rw [(addOrUpdateUnlocked_spec n p hOne).2]
  split_ifs with hq hMoved
  · subst hq
    rw [group_put]
    split_ifs with hm
    · rw [mem_insert_id, hm]
      simp [hut]
    · rfl
  · rw [group_put]
    split_ifs with hm
    · rw [mem_erase, hm]
      simp [hut]
    · rfl
  · rfl

end

section Add

variable {s : TargetCapacityPools} (hs : s.Represented) (hNodes : NonzeroNodes s.targetMap)
  (t n : Nat) (p : CapacityPoolType)

include hs hNodes

/-- The condition: a target that the pool has keeps its node, and a target that leaves the group
of another pool leaves some other target there. -/
def AddKeeps (s : TargetCapacityPools) (t n : Nat) (p : CapacityPoolType) : Prop :=
  (t ∈ s.pools p → s.targetMap.find t = none ∨ s.targetMap.find t = some n) ∧
  ∀ q, q ≠ p → t ∈ s.pools q → s.targetMap.find t = none ∨
    ∃ u, u ≠ t ∧ u ∈ s.pools q ∧ s.targetMap.find u = s.targetMap.find t

theorem addOrUpdateUnlocked_represented_iff :
    (s.addOrUpdateUnlocked t n p).2.Represented ↔ s.AddKeeps t n p := by
  obtain ⟨hPools, hGroups⟩ := addOrUpdateUnlocked_spec (t := t) n p
    fun _ _ => hs.one_pool
  have hOthers := fun {u m q} => addOrUpdateUnlocked_mem_group_of_ne (u := u) (m := m) (q := q)
    (t := t) n p fun _ _ => hs.one_pool
  have hFind : ∀ u, (s.addOrUpdateUnlocked t n p).2.targetMap.find u =
      if u = t then some n else s.targetMap.find u := fun u => find_put _ t u n
  generalize (s.addOrUpdateUnlocked t n p).2 = added at hPools hGroups hFind hOthers
  have hPrevious : ∀ {m}, s.targetMap.find t = some m → s.targetMap.getNodeIDFromTargetID t = m :=
    fun hm => (getNodeIDFromTargetID_iff (hNodes t _ hm)).mpr hm
  constructor
  · intro hAdded
    constructor
    · intro ht
      by_contra hOther
      push Not at hOther
      obtain ⟨m, hm⟩ := ne_none_iff_exists'.mp hOther.1
      have hmn : m ≠ n := fun h => hOther.2 (h ▸ hm)
      -- the group of the previous node still has the target
      have hStale : t ∈ (added.groupedTargetPools p).group m := by
        rw [hGroups, if_pos rfl, group_put, if_neg hmn]
        exact hs.mem_group.mpr ⟨ht, hm⟩
      have hNode := (hAdded.mem_group.mp hStale).2
      rw [hFind, if_pos rfl] at hNode
      exact hmn (some.inj hNode).symm
    · intro q hq ht
      by_contra hAlone
      push Not at hAlone
      obtain ⟨m, hm⟩ := ne_none_iff_exists'.mp hAlone.1
      have hLeft : (added.groupedTargetPools q).find m =
          some (((s.groupedTargetPools q).group m).erase t) := by
        rw [hGroups, if_neg hq, if_pos ⟨ht, by rw [hPrevious hm]; exact hNodes t m hm⟩,
          hPrevious hm, find_put_self]
      obtain ⟨u, hu⟩ := hAdded.no_empty_group q m _ hLeft
      obtain ⟨hIn, hut⟩ := mem_erase.mp hu
      obtain ⟨huq, hum⟩ := hs.mem_group.mp hIn
      exact hAlone.2 u hut huq (hum.trans hm.symm)
  · rintro ⟨hSame, hLeaves⟩
    refine ⟨?_, ?_, ?_⟩
    · intro u q q' hu hu'
      rw [hPools] at hu hu'
      rcases hu with ⟨hu, hut⟩ | ⟨rfl, rfl⟩
      · exact hs.one_pool hu (hu'.resolve_right fun h => hut h.1).1
      · exact (hu'.resolve_left fun h => h.2 rfl).2.symm
    · intro u m q
      rw [hPools, hFind, hGroups]
      by_cases hut : u = t
      · subst hut
        by_cases hq : q = p
        · subst hq
          rw [if_pos rfl, group_put]
          by_cases hmn : m = n
          · subst hmn
            simp [mem_insert_id]
          rw [if_neg hmn]
          refine iff_of_false (fun hIn => ?_) (fun h => ?_)
          · obtain ⟨hu, hm⟩ := hs.mem_group.mp hIn
            rcases hSame hu with hNone | hn
            · rw [hm] at hNone
              cases hNone
            · exact hmn (some.inj (hm.symm.trans hn))
          · rw [if_pos rfl] at h
            exact hmn (some.inj h.2).symm
        · rw [if_neg hq]
          refine iff_of_false ?_ (fun h => ?_)
          · split_ifs with hMoved
            · rw [group_put]
              split_ifs with hm
              · simp
              · intro hIn
                have hu := (hs.mem_group.mp hIn).2
                exact hm (hPrevious hu).symm
            · intro hIn
              obtain ⟨hu, hm⟩ := hs.mem_group.mp hIn
              refine hMoved ⟨hu, ?_⟩
              rw [hPrevious hm]
              exact hNodes u m hm
          · exact hq (h.1.resolve_left fun h => h.2 rfl).2
      · rw [← hGroups, hOthers hut, hs.mem_group]
        simp [hut]
    · intro q
      rw [hGroups]
      split_ifs with hq hMoved
      · exact (hs.no_empty_group p).put ⟨t, mem_insert_id.mpr (Or.inr rfl)⟩
      · refine (hs.no_empty_group q).put ?_
        rcases hLeaves q hq hMoved.1 with hNone | ⟨u, hut, huq, hu⟩
        · rw [getNodeIDFromTargetID, hNone] at hMoved
          exact absurd rfl hMoved.2
        obtain ⟨m, hm⟩ : ∃ m, s.targetMap.find t = some m := by
          refine ne_none_iff_exists'.mp fun hNone => ?_
          rw [getNodeIDFromTargetID, hNone] at hMoved
          exact hMoved.2 rfl
        refine ⟨u, mem_erase.mpr ⟨?_, hut⟩⟩
        rw [hPrevious hm]
        exact hs.mem_group.mpr ⟨huq, hu.trans hm⟩
      · exact hs.no_empty_group q

/-- `addIfNotExists` must not give a known target another node. -/
def AddIfNotExistsKeeps (s : TargetCapacityPools) (t n : Nat) : Prop :=
  ∀ q, t ∈ s.pools q → s.targetMap.find t = none ∨ s.targetMap.find t = some n

theorem addIfNotExists_represented_iff (hn : n ≠ 0) :
    (s.addIfNotExists t n p).2.Represented ↔ s.AddIfNotExistsKeeps t n := by
  have hNode : n = s.targetMap.getNodeIDFromTargetID t ↔ s.targetMap.find t = some n := by
    rw [eq_comm]
    exact getNodeIDFromTargetID_iff hn
  have hAdd := fun q => addOrUpdateUnlocked_represented_iff hs hNodes t n q
  unfold addIfNotExists addWithWriteLock needUpdate AddIfNotExistsKeeps
  cases hPool : s.poolOf t with
  | none =>
    have hAbsent := poolOf_eq_none hPool
    simp only [Bool.true_eq_false, if_false, getD_none, hAdd]
    refine iff_of_true ⟨fun ht => ?_, fun q _ ht => ?_⟩ (fun q ht => ?_)
    · exact absurd ht (hAbsent p)
    · exact absurd ht (hAbsent q)
    · exact absurd ht (hAbsent q)
  | some q =>
    have hHere := poolOf_eq_some hPool
    by_cases hSame : s.targetMap.find t = some n
    · rw [if_pos (by simp [hNode.mpr hSame])]
      exact iff_of_true hs fun _ _ => Or.inr hSame
    have hNeed : ¬ decide (n ≠ s.targetMap.getNodeIDFromTargetID t) = false := by
      simpa using fun h => hSame (hNode.mp h)
    rw [if_neg hNeed, if_neg hNeed, getD_some, hAdd]
    constructor
    · rintro ⟨hKeeps, -⟩ q' ht
      exact hKeeps hHere
    · intro hKeeps
      refine ⟨hKeeps q, fun q' hq' ht => ?_⟩
      exact absurd (hs.one_pool ht hHere) hq'

end Add

/-! ## Removing and syncing -/

@[simp] theorem remove_targetMap (t : Nat) (s : TargetCapacityPools) :
    (s.remove t).targetMap = s.targetMap := by
  unfold remove
  split
  · rfl
  dsimp only
  split_ifs
  · rfl
  · split
    · rfl
    · split_ifs <;> rfl

section

variable {s : TargetCapacityPools}

theorem NoEmptyGroup.remove_pools
    (h : ∀ q, (s.groupedTargetPools q).NoEmptyGroup) (t : Nat) (q : CapacityPoolType) :
    ((s.remove t).groupedTargetPools q).NoEmptyGroup := by
  unfold remove
  split
  · exact h q
  dsimp only
  split_ifs
  · exact h q
  split
  · exact h q
  split_ifs
  · exact h q
  · rw [setGroups_groupedTargetPools]
    split_ifs
    · exact (h _).eraseTarget _ t _
    · exact h q

theorem remove_spec {t : Nat} (hOne : ∀ q q', t ∈ s.pools q → t ∈ s.pools q' → q = q')
    (hGroup : ∀ q m, t ∈ (s.groupedTargetPools q).group m ↔
      t ∈ s.pools q ∧ s.targetMap.find t = some m)
    (hNode : ∀ q, t ∈ s.pools q → s.targetMap.find t ≠ some 0) :
    (∀ q u, u ∈ (s.remove t).pools q ↔ u ∈ s.pools q ∧ u ≠ t) ∧
    (∀ q m u, u ∈ ((s.remove t).groupedTargetPools q).group m ↔
      u ∈ (s.groupedTargetPools q).group m ∧ u ≠ t) := by
  unfold TargetCapacityPools.remove
  split
  · rename_i hPool
    have hAbsent := poolOf_eq_none hPool
    constructor
    · intro q u
      refine (and_iff_left_of_imp ?_).symm
      rintro hu rfl
      exact hAbsent q hu
    · intro q m u
      refine (and_iff_left_of_imp ?_).symm
      rintro hu rfl
      exact hAbsent q ((hGroup q m).mp hu).1
  · rename_i p hPool
    have ht := poolOf_eq_some hPool
    have hPools : ∀ q u, u ∈ (s.setPool p ((s.pools p).erase t)).pools q ↔
        u ∈ s.pools q ∧ u ≠ t := by
      intro q u
      rw [setPool_pools]
      split_ifs with hq
      · rw [mem_erase, hq]
      · refine ⟨fun hu => ⟨hu, ?_⟩, fun hu => hu.1⟩
        rintro rfl
        exact hq (hOne q p hu ht)
    dsimp only
    split_ifs with hZero
    · -- a target without a node is in no group
      refine ⟨hPools, fun q m u => ⟨fun hu => ⟨hu, ?_⟩, fun hu => hu.1⟩⟩
      rintro rfl
      have hFind := ((hGroup q m).mp hu).2
      rw [getNodeIDFromTargetID, hFind] at hZero
      exact hNode p ht (hFind.trans (congrArg some hZero))
    have hFind := (getNodeIDFromTargetID_iff hZero).mp rfl
    have hIn := (hGroup p _).mpr ⟨ht, hFind⟩
    generalize s.targetMap.getNodeIDFromTargetID t = n at hFind hIn ⊢
    have hOnly : ∀ q m, t ∈ (s.groupedTargetPools q).group m → q = p ∧ m = n := by
      intro q m hu
      obtain ⟨htq, hm⟩ := (hGroup q m).mp hu
      exact ⟨hOne q p htq ht, some.inj (hm.symm.trans hFind)⟩
    split
    · rename_i hMissing
      rw [group, hMissing] at hIn
      exact absurd hIn (not_mem_empty t)
    rename_i group hFound
    rw [group_of_find hFound] at hIn
    rw [if_neg (by simpa using contains_id_iff.mpr hIn)]
    refine ⟨hPools, fun q m u => ?_⟩
    rw [setGroups_groupedTargetPools]
    split_ifs with hq
    · subst hq
      exact group_eraseTarget hFound hIn (fun m hu => (hOnly q m hu).2) m u
    · refine ⟨fun hu => ⟨hu, ?_⟩, fun hu => hu.1⟩
      rintro rfl
      exact hq (hOnly q m hu).1

theorem remove_groupedTargetPools {t : Nat} (h : s.targetMap.find t = some 0) :
    (s.remove t).groupedTargetPools = s.groupedTargetPools := by
  have hZero : s.targetMap.getNodeIDFromTargetID t = 0 := by
    rw [getNodeIDFromTargetID, h, getD_some]
  unfold TargetCapacityPools.remove
  split
  · rfl
  · dsimp only
    rw [if_pos hZero]
    rfl

theorem Represented.remove (hs : s.Represented)
    (hNodes : NonzeroNodes s.targetMap) (t : Nat) : (s.remove t).Represented := by
  obtain ⟨hPools, hGroups⟩ := remove_spec (t := t) (fun _ _ => hs.one_pool)
    (fun _ _ => hs.mem_group) (fun _ _ hFind => hNodes t 0 hFind rfl)
  refine ⟨?_, ?_, NoEmptyGroup.remove_pools hs.no_empty_group t⟩
  · intro u q q' hu hu'
    exact hs.one_pool ((hPools q u).mp hu).1 ((hPools q' u).mp hu').1
  · intro u m q
    rw [hGroups, hPools, remove_targetMap, hs.mem_group]
    exact and_right_comm

end

theorem groupTargetsByNode_foldl (targetMap : TargetMap) (ts : List Nat)
    {groupedTargets : GroupedTargets} (hEmpty : groupedTargets.NoEmptyGroup) :
    (∀ n u, u ∈ group (ts.foldl (groupTarget targetMap) groupedTargets) n ↔
      u ∈ groupedTargets.group n ∨
        u ∈ ts ∧ n ≠ 0 ∧ targetMap.getNodeIDFromTargetID u = n) ∧
    NoEmptyGroup (ts.foldl (groupTarget targetMap) groupedTargets) := by
  induction ts generalizing groupedTargets with
  | nil =>
    refine ⟨fun n u => ?_, hEmpty⟩
    simp
  | cons t ts ih =>
    have hNext : (groupTarget targetMap groupedTargets t).NoEmptyGroup := by
      unfold groupTarget
      dsimp only
      split_ifs
      · exact hEmpty
      · exact hEmpty.put ⟨t, mem_insert_id.mpr (Or.inr rfl)⟩
    have hHere : ∀ n u, u ∈ (groupTarget targetMap groupedTargets t).group n ↔
        u ∈ groupedTargets.group n ∨ u = t ∧ n ≠ 0 ∧ targetMap.getNodeIDFromTargetID u = n := by
      intro n u
      unfold groupTarget
      dsimp only
      split_ifs with hZero
      · refine ⟨Or.inl, fun h => h.resolve_right ?_⟩
        rintro ⟨rfl, hn, rfl⟩
        exact hn hZero
      rw [group_put]
      split_ifs with hn
      · subst hn
        rw [mem_insert_id]
        refine or_congr_right ⟨?_, fun h => h.1⟩
        rintro rfl
        exact ⟨rfl, hZero, rfl⟩
      · refine ⟨Or.inl, fun h => h.resolve_right ?_⟩
        rintro ⟨rfl, -, hu⟩
        exact hn hu.symm
    obtain ⟨hGroups, hAfter⟩ := ih hNext
    refine ⟨fun n u => ?_, hAfter⟩
    rw [foldl_cons, hGroups, hHere, mem_cons]
    tauto

theorem syncPoolsFromLists_represented {lists : CapacityPoolType → List Nat}
    (hDisjoint : ∀ p q t, t ∈ lists p → t ∈ lists q → p = q) {newTargetMap : TargetMap}
    (hNodes : NonzeroNodes newTargetMap) :
    (syncPoolsFromLists lists newTargetMap).Represented := by
  have hPools : ∀ p t, t ∈ (syncPoolsFromLists lists newTargetMap).pools p ↔ t ∈ lists p := by
    intro p t
    unfold syncPoolsFromLists
    rw [mem_foldl_insert_id]
    simp
  have hNone : NoEmptyGroup empty := by
    intro n targets hFind
    cases hFind
  refine ⟨?_, ?_, ?_⟩
  · intro t p q ht ht'
    exact hDisjoint p q t ((hPools p t).mp ht) ((hPools q t).mp ht')
  · intro t n p
    refine ((groupTargetsByNode_foldl newTargetMap _ hNone).1 n t).trans ?_
    have hEmpty : t ∉ group empty n := not_mem_empty t
    rw [or_iff_right hEmpty]
    refine and_congr_right fun _ => ⟨fun h => (getNodeIDFromTargetID_iff h.1).mp h.2, fun h => ?_⟩
    exact ⟨hNodes t n h, (getNodeIDFromTargetID_iff (hNodes t n h)).mpr h⟩
  · intro p
    exact (groupTargetsByNode_foldl newTargetMap _ hNone).2

end TargetCapacityPools

end Fhgfs.Nodes
