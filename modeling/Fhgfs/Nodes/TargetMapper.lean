import Fhgfs.Nodes.CapacityPoolInvariant
import Fhgfs.Nodes.TargetStateStore

/-!
# The target mapper with its pools and states

`TargetMapper` on the management daemon: the map of targets to nodes, which forwards new and
removed targets to the attached capacity pools and states. A re-map changes the map only, since
the forwarding asks whether the map has grown. The pools group a target by the node that they
were told, and they take a target of the node 0 for one without a node.

`InStep` says that the three stores agree. The steps that keep it are those of `Forwarded`.
-/

namespace Fhgfs.Nodes

open TargetCapacityPools OrderedMap OrderedSet Option List GroupedTargets
open TargetConsistencyState (GOOD)

namespace MgmtdTargetStateStore

def addIfNotExists (targetID : Nat) (state : CombinedTargetState) (now : Time)
    (s : MgmtdTargetStateStore) : MgmtdTargetStateStore :=
  match s.statesMap.find targetID with
  | some _ => s
  | none => s.storeState targetID ⟨state.reachabilityState, state.consistencyState, now⟩

def removeTarget (targetID : Nat) (s : MgmtdTargetStateStore) : MgmtdTargetStateStore :=
  { s with statesMap := s.statesMap.remove targetID }

theorem addIfNotExists_isSome (targetID : Nat) (state : CombinedTargetState) (now : Time)
    (s : MgmtdTargetStateStore) (t : Nat) :
    ((s.addIfNotExists targetID state now).statesMap.find t).isSome ↔
      (s.statesMap.find t).isSome ∨ t = targetID := by
  unfold addIfNotExists
  split
  · rename_i info hFind
    refine ⟨Or.inl, fun h => h.elim id ?_⟩
    rintro rfl
    rw [hFind]
    rfl
  show ((s.statesMap.put targetID _).find t).isSome ↔ _
  rw [find_put]
  split_ifs with hSame
  · exact iff_of_true rfl (Or.inr hSame)
  · exact (or_iff_left hSame).symm

end MgmtdTargetStateStore

/-- The mapper with the objects that are attached to it. -/
structure MgmtdTargetMapper where
  targets : TargetMapper
  capacityPools : TargetCapacityPools
  states : MgmtdTargetStateStore
  mappingsDirty : Bool

namespace MgmtdTargetMapper

def init : MgmtdTargetMapper :=
  ⟨OrderedSet.empty, .init, ⟨OrderedSet.empty, OrderedSet.empty, none, []⟩, false⟩

/-- Also answers whether the target was not mapped before, which the size of the map tells. -/
def mapTarget (targetID nodeID : Nat) (now : Time) (s : MgmtdTargetMapper) :
    Bool × MgmtdTargetMapper :=
  let targets := s.targets.put targetID nodeID
  let isNew := decide (s.targets.elems.length ≠ targets.elems.length)
  (isNew,
    { targets := targets
      capacityPools :=
        if isNew then (s.capacityPools.addIfNotExists targetID nodeID .LOW).2
        else s.capacityPools
      states :=
        if isNew then s.states.addIfNotExists targetID ⟨.POFFLINE, GOOD⟩ now else s.states
      mappingsDirty := true })

/-- A mapped target is erased here and in the attached objects. -/
def eraseTarget (s : MgmtdTargetMapper) (targetID : Nat) : MgmtdTargetMapper :=
  { targets := s.targets.remove targetID
    capacityPools := s.capacityPools.remove targetID
    states := s.states.removeTarget targetID
    mappingsDirty := true }

def unmapTarget (targetID : Nat) (s : MgmtdTargetMapper) : Bool × MgmtdTargetMapper :=
  if s.targets.targetExists targetID then (true, s.eraseTarget targetID) else (false, s)

def getTargetsByNode (nodeID : Nat) (targets : TargetMapper) : List Nat :=
  (targets.elems.filter fun entry => decide (entry.2 = nodeID)).map Prod.fst

/-- The loop moves its iterator on before it erases an element, so it sees every element. -/
def unmapByNodeID (nodeID : Nat) (s : MgmtdTargetMapper) : Bool × MgmtdTargetMapper :=
  let targetIDs := getTargetsByNode nodeID s.targets
  (decide (targetIDs ≠ []), targetIDs.foldl eraseTarget s)

inductive Call
  | mapTarget (targetID nodeID : Nat) (now : Time)
  | unmapTarget (targetID : Nat)
  | unmapByNodeID (nodeID : Nat)
  | addOrUpdate (targetID nodeID : Nat) (poolType : CapacityPoolType)

def step (s : MgmtdTargetMapper) : Call → MgmtdTargetMapper
  | .mapTarget targetID nodeID now => (s.mapTarget targetID nodeID now).2
  | .unmapTarget targetID => (s.unmapTarget targetID).2
  | .unmapByNodeID nodeID => (s.unmapByNodeID nodeID).2
  | .addOrUpdate targetID nodeID poolType =>
    { s with capacityPools := (s.capacityPools.addOrUpdateUnlocked targetID nodeID poolType).2 }

/-! ## What the three stores say -/

/-- The pools and the states have the mapped targets, and a target is in the group of its pool and
of the node that it is mapped to, and in no other group. -/
structure Agree (s : MgmtdTargetMapper) : Prop where
  pools_iff (t : Nat) : (∃ p, t ∈ s.capacityPools.pools p) ↔ (s.targets.find t).isSome
  states_iff (t : Nat) : (s.states.statesMap.find t).isSome ↔ (s.targets.find t).isSome
  mem_group {t n : Nat} {p : CapacityPoolType} :
    t ∈ (s.capacityPools.groupedTargetPools p).group n ↔
      t ∈ s.capacityPools.pools p ∧ s.targets.find t = some n

/-- Beyond this a target is in one pool, and the pools have recorded the node of each mapped
target; of unmapped ones they keep an old node. -/
structure InStep (s : MgmtdTargetMapper) : Prop extends Agree s where
  one_pool {t : Nat} {p q : CapacityPoolType} :
    t ∈ s.capacityPools.pools p → t ∈ s.capacityPools.pools q → p = q
  node_eq {t n : Nat} : s.targets.find t = some n → s.capacityPools.targetMap.find t = some n

/-- A mapped target keeps its node, a target of the node 0 is not removed or moved to another pool,
and the pools are told the node that the target is mapped to. -/
def Forwarded (s : MgmtdTargetMapper) : Call → Prop
  | .mapTarget t n _ => s.targets.find t = none ∨ s.targets.find t = some n
  | .unmapTarget t => s.targets.find t ≠ some 0
  | .unmapByNodeID n => n = 0 → ∀ t, s.targets.find t ≠ some 0
  | .addOrUpdate t n p => s.targets.find t = some n ∧ (n = 0 → t ∈ s.capacityPools.pools p)

def UpdatesMapped (s : MgmtdTargetMapper) : Call → Prop
  | .addOrUpdate t _ _ => s.targets.targetExists t = true
  | _ => True

/-! ## What one step does -/

section Steps

variable {s : MgmtdTargetMapper} {t n : Nat}

theorem length_put_eq_iff (targets : TargetMapper) (t n : Nat) :
    targets.elems.length = (targets.put t n).elems.length ↔ (targets.find t).isSome := by
  rw [(put_perm targets t n).length_eq, length_cons]
  cases hFind : targets.find t with
  | none => simp [remove_of_find hFind]
  | some m => simp [(perm_cons_remove hFind).length_eq]

theorem mapTarget_of_mapped (h : (s.targets.find t).isSome) (now : Time) :
    s.mapTarget t n now =
      (false, { s with targets := s.targets.put t n, mappingsDirty := true }) := by
  have hSame := (length_put_eq_iff s.targets t n).mpr h
  simp [mapTarget, hSame]

theorem mapTarget_of_unmapped (h : s.targets.find t = none) (now : Time) :
    s.mapTarget t n now = (true,
      { targets := s.targets.put t n
        capacityPools := (s.capacityPools.addIfNotExists t n .LOW).2
        states := s.states.addIfNotExists t ⟨.POFFLINE, GOOD⟩ now
        mappingsDirty := true }) := by
  have hGrown : s.targets.elems.length ≠ (s.targets.put t n).elems.length := by
    intro hSame
    rw [length_put_eq_iff, h] at hSame
    cases hSame
  simp [mapTarget, hGrown]

theorem Agree.not_mem (hs : s.Agree) (h : s.targets.find t = none) (p : CapacityPoolType) :
    t ∉ s.capacityPools.pools p := by
  intro ht
  have hMapped := (hs.pools_iff t).mp ⟨p, ht⟩
  rw [h] at hMapped
  cases hMapped

theorem addIfNotExists_of_absent {pools : TargetCapacityPools} (h : ∀ p, t ∉ pools.pools p)
    (p : CapacityPoolType) :
    (pools.addIfNotExists t n p).2 = (pools.addOrUpdateUnlocked t n p).2 := by
  have hNone : pools.poolOf t = none := by
    cases hPool : pools.poolOf t with
    | none => rfl
    | some q => exact absurd (poolOf_eq_some hPool) (h q)
  have hNeed : pools.needUpdate t n = true := by
    rw [needUpdate, hNone]
  rw [addIfNotExists, if_neg (by rw [hNeed]; nofun),
    addWithWriteLock, if_neg (by rw [hNeed]; nofun), hNone, getD_none]

theorem InStep.init : InStep init where
  pools_iff t := by
    constructor
    · rintro ⟨p, ht⟩
      exact absurd ht (not_mem_empty t)
    · nofun
  states_iff t := Iff.rfl
  mem_group {t n p} := by
    constructor
    · intro ht
      exact absurd ht (not_mem_empty t)
    · rintro ⟨ht, -⟩
      exact absurd ht (not_mem_empty t)
  one_pool ht := absurd ht (not_mem_empty _)
  node_eq := nofun

variable {p : CapacityPoolType}

/-- The update of a target that no pool has, or that stays on its node, which is not 0 if it
leaves a pool. -/
theorem addOrUpdateUnlocked_mem_group {pools : TargetCapacityPools} {node node' : Nat → Option Nat}
    (hOne : ∀ {u q q'}, u ∈ pools.pools q → u ∈ pools.pools q' → q = q')
    (hGroup : ∀ {u m q}, u ∈ (pools.groupedTargetPools q).group m ↔
      u ∈ pools.pools q ∧ node u = some m)
    (hStays : ∀ {q}, t ∈ pools.pools q → node t = some n ∧ pools.targetMap.find t = some n ∧
      (q ≠ p → n ≠ 0))
    (hHere : node' t = some n) (hElse : ∀ u, u ≠ t → node' u = node u) {u m : Nat}
    {q : CapacityPoolType} :
    u ∈ ((pools.addOrUpdateUnlocked t n p).2.groupedTargetPools q).group m ↔
      u ∈ (pools.addOrUpdateUnlocked t n p).2.pools q ∧ node' u = some m := by
  obtain ⟨hPools, hGroups⟩ := addOrUpdateUnlocked_spec (t := t) n p (fun _ _ => hOne)
  by_cases hut : u = t
  · subst hut
    rw [hPools, hGroups]
    have hOther : m ≠ n → ∀ q, u ∉ (pools.groupedTargetPools q).group m := by
      intro hm q hu
      obtain ⟨hIn, hNode⟩ := hGroup.mp hu
      exact hm (some.inj (hNode.symm.trans (hStays hIn).1))
    by_cases hq : q = p
    · subst hq
      rw [if_pos rfl, group_put, hHere]
      split_ifs with hm
      · rw [hm]
        exact iff_of_true (mem_insert_id.mpr (Or.inr rfl)) ⟨Or.inr ⟨rfl, rfl⟩, rfl⟩
      · exact iff_of_false (hOther hm q) fun h => hm (some.inj h.2).symm
    have hOut : ¬((u ∈ pools.pools q ∧ u ≠ u ∨ u = u ∧ q = p) ∧ node' u = some m) := by
      rintro ⟨⟨-, hSelf⟩ | ⟨-, hSame⟩, -⟩
      · exact hSelf rfl
      · exact hq hSame
    refine iff_of_false ?_ hOut
    rw [if_neg hq]
    by_cases hu : u ∈ pools.pools q
    · obtain ⟨-, hNode, hZero⟩ := hStays hu
      have hPrevious : pools.targetMap.getNodeIDFromTargetID u = n :=
        (getNodeIDFromTargetID_iff (hZero hq)).mpr hNode
      rw [hPrevious, if_pos ⟨hu, hZero hq⟩, group_put]
      split_ifs with hm
      · exact fun h => (mem_erase.mp h).2 rfl
      · exact hOther hm q
    · rw [if_neg fun h => hu h.1]
      exact fun h => hu (hGroup.mp h).1
  · rw [addOrUpdateUnlocked_mem_group_of_ne n p (fun _ _ => hOne) hut, hGroup, hPools, hElse u hut]
    simp [hut]

theorem InStep.mapTarget (hs : s.InStep) (h : s.targets.find t = none ∨ s.targets.find t = some n)
    (now : Time) : (s.mapTarget t n now).2.InStep := by
  have hSame : s.targets.find t = some n → ∀ u, (s.targets.put t n).find u = s.targets.find u := by
    intro hFind u
    rw [find_put]
    split_ifs with hut
    · rw [hut, hFind]
    · rfl
  rcases h with hNone | hFind
  · rw [mapTarget_of_unmapped hNone]
    have hAbsent := hs.not_mem hNone
    have hPools := (addOrUpdateUnlocked_spec n .LOW
      fun q _ ht => absurd ht (hAbsent q)).1
    have hAdded := addIfNotExists_of_absent (n := n) hAbsent .LOW
    constructor
    · constructor
      · intro u
        rw [hAdded, find_put]
        simp only [hPools]
        split_ifs with hut
        · exact iff_of_true ⟨.LOW, Or.inr ⟨hut, rfl⟩⟩ rfl
        · rw [← hs.pools_iff]
          simp [hut]
      · intro u
        rw [MgmtdTargetStateStore.addIfNotExists_isSome, hs.states_iff, find_put]
        split_ifs with hut <;> simp [hut]
      · intro u m q
        rw [hAdded]
        refine addOrUpdateUnlocked_mem_group hs.one_pool hs.mem_group
          (fun ht => absurd ht (hAbsent _)) (find_put_self _ _ _) fun u hu => ?_
        exact find_put_of_ne _ _ hu
    · intro u q q' hu hu'
      rw [hAdded, hPools] at hu hu'
      rcases hu with ⟨hu, hut⟩ | ⟨rfl, rfl⟩
      · exact hs.one_pool hu (hu'.resolve_right fun h => hut h.1).1
      · exact (hu'.resolve_left fun h => h.2 rfl).2.symm
    · intro u m hu
      rw [hAdded]
      show (s.capacityPools.targetMap.put t n).find u = some m
      rw [find_put] at hu ⊢
      split_ifs at hu ⊢
      · exact hu
      · exact hs.node_eq hu
  · rw [mapTarget_of_mapped (by rw [hFind]; rfl)]
    have hKeeps := hSame hFind
    refine ⟨⟨fun u => ?_, fun u => ?_, fun {u m q} => ?_⟩, hs.one_pool, fun {u m} => ?_⟩
    · rw [hKeeps]
      exact hs.pools_iff u
    · rw [hKeeps]
      exact hs.states_iff u
    · rw [hKeeps]
      exact hs.mem_group
    · rw [hKeeps]
      exact hs.node_eq

theorem InStep.eraseTarget (hs : s.InStep) (h : s.targets.find t ≠ some 0) :
    (s.eraseTarget t).InStep := by
  have hGroup : ∀ q m, t ∈ (s.capacityPools.groupedTargetPools q).group m ↔
      t ∈ s.capacityPools.pools q ∧ s.capacityPools.targetMap.find t = some m := by
    intro q m
    rw [hs.mem_group]
    refine and_congr_right fun ht => ?_
    obtain ⟨k, hk⟩ := isSome_iff_exists.mp ((hs.pools_iff t).mp ⟨q, ht⟩)
    rw [hk, hs.node_eq hk]
  have hNode : ∀ q, t ∈ s.capacityPools.pools q → s.capacityPools.targetMap.find t ≠ some 0 := by
    intro q ht
    obtain ⟨k, hk⟩ := isSome_iff_exists.mp ((hs.pools_iff t).mp ⟨q, ht⟩)
    rwa [hs.node_eq hk, ← hk]
  obtain ⟨hPools, hGroups⟩ := remove_spec (fun _ _ => hs.one_pool) hGroup hNode
  refine ⟨⟨fun u => ?_, fun u => ?_, fun {u m q} => ?_⟩, fun {u q q'} hu hu' => ?_,
    fun {u m} hu => ?_⟩
  · show (∃ p, u ∈ (s.capacityPools.remove t).pools p) ↔ ((s.targets.remove t).find u).isSome
    rw [find_remove]
    simp only [hPools]
    split_ifs with hut
    · simp [hut]
    · rw [← hs.pools_iff]
      simp [hut]
  · show ((s.states.statesMap.remove t).find u).isSome ↔ ((s.targets.remove t).find u).isSome
    rw [find_remove, find_remove]
    split_ifs
    · rfl
    · exact hs.states_iff u
  · show u ∈ ((s.capacityPools.remove t).groupedTargetPools q).group m ↔
      u ∈ (s.capacityPools.remove t).pools q ∧ (s.targets.remove t).find u = some m
    rw [hGroups, hPools, hs.mem_group, find_remove]
    split_ifs with hut
    · simp [hut]
    · simp [hut]
  · exact hs.one_pool ((hPools q u).mp hu).1 ((hPools q' u).mp hu').1
  · show (s.capacityPools.remove t).targetMap.find u = some m
    rw [remove_targetMap]
    apply hs.node_eq
    replace hu : (s.targets.remove t).find u = some m := hu
    rw [find_remove] at hu
    split_ifs at hu
    exact hu

theorem eraseTarget_targets (s : MgmtdTargetMapper) (ts : List Nat) :
    (ts.foldl MgmtdTargetMapper.eraseTarget s).targets = ts.foldl remove s.targets := by
  induction ts generalizing s with
  | nil => rfl
  | cons t ts ih => exact ih (s.eraseTarget t)

theorem InStep.foldl_eraseTarget {ts : List Nat} (hs : s.InStep)
    (h : ∀ t ∈ ts, s.targets.find t ≠ some 0) :
    (ts.foldl MgmtdTargetMapper.eraseTarget s).InStep := by
  induction ts generalizing s with
  | nil => exact hs
  | cons t ts ih =>
    apply ih (hs.eraseTarget (h t mem_cons_self))
    intro u hu
    show (s.targets.remove t).find u ≠ some 0
    rw [find_remove]
    split_ifs
    · nofun
    · exact h u (mem_cons_of_mem t hu)

theorem mem_getTargetsByNode {targets : TargetMapper} :
    t ∈ getTargetsByNode n targets ↔ targets.find t = some n := by
  unfold getTargetsByNode
  rw [OrderedMap.find_eq_some, List.mem_map]
  constructor
  · rintro ⟨⟨u, m⟩, hIn, rfl⟩
    obtain ⟨hElem, hNode⟩ := List.mem_filter.mp hIn
    rw [decide_eq_true_eq] at hNode
    obtain rfl : m = n := hNode
    exact hElem
  · intro hIn
    exact ⟨(t, n), List.mem_filter.mpr ⟨hIn, decide_eq_true rfl⟩, rfl⟩

theorem InStep.addOrUpdate (hs : s.InStep)
    (hFind : s.targets.find t = some n) (hZero : n = 0 → t ∈ s.capacityPools.pools p) :
    (s.step (.addOrUpdate t n p)).InStep := by
  have hPools := (addOrUpdateUnlocked_spec (t := t) n p
    fun _ _ => hs.one_pool).1
  have hStays : ∀ {q}, t ∈ s.capacityPools.pools q → s.targets.find t = some n ∧
      s.capacityPools.targetMap.find t = some n ∧ (q ≠ p → n ≠ 0) := by
    intro q ht
    refine ⟨hFind, hs.node_eq hFind, fun hq hn => hq ?_⟩
    exact hs.one_pool ht (hZero hn)
  refine ⟨⟨fun u => ?_, hs.states_iff, fun {u m q} => ?_⟩, fun {u q q'} hu hu' => ?_,
    fun {u m} hu => ?_⟩
  · show (∃ q, u ∈ (s.capacityPools.addOrUpdateUnlocked t n p).2.pools q) ↔
      (s.targets.find u).isSome
    simp only [hPools]
    by_cases hut : u = t
    · rw [hut, hFind]
      exact iff_of_true ⟨p, Or.inr ⟨rfl, rfl⟩⟩ rfl
    · rw [← hs.pools_iff]
      simp [hut]
  · exact addOrUpdateUnlocked_mem_group hs.one_pool hs.mem_group hStays hFind fun _ _ => rfl
  · rcases (hPools q u).mp hu with ⟨hu, hut⟩ | ⟨rfl, rfl⟩
    · exact hs.one_pool hu (((hPools q' u).mp hu').resolve_right fun h => hut h.1).1
    · exact (((hPools q' u).mp hu').resolve_left fun h => h.2 rfl).2.symm
  · show (s.capacityPools.targetMap.put t n).find u = some m
    rw [find_put]
    split_ifs with hut
    · rw [← hFind, ← hut]
      exact hu
    · exact hs.node_eq hu

theorem InStep.after_step (hs : s.InStep) {call : Call} (h : s.Forwarded call) :
    (s.step call).InStep := by
  cases call with
  | mapTarget t n now => exact hs.mapTarget h now
  | unmapTarget t =>
    show (s.unmapTarget t).2.InStep
    unfold unmapTarget
    split
    · exact hs.eraseTarget h
    · exact hs
  | unmapByNodeID n =>
    apply hs.foldl_eraseTarget
    intro t ht hFind
    have hNode := mem_getTargetsByNode.mp ht
    rw [hFind] at hNode
    exact h (some.inj hNode).symm t hFind
  | addOrUpdate t n p => exact hs.addOrUpdate h.1 h.2

/-! ## Steps after which the stores do not agree -/

theorem eraseTarget_groups (h : s.capacityPools.targetMap.find t = some 0) :
    (s.eraseTarget t).capacityPools.groupedTargetPools = s.capacityPools.groupedTargetPools :=
  remove_groupedTargetPools h

theorem foldl_eraseTarget_groups {ts : List Nat}
    (h : ∀ t ∈ ts, s.capacityPools.targetMap.find t = some 0) :
    (ts.foldl MgmtdTargetMapper.eraseTarget s).capacityPools.groupedTargetPools =
      s.capacityPools.groupedTargetPools := by
  induction ts generalizing s with
  | nil => rfl
  | cons t ts ih =>
    rw [foldl_cons, ih, eraseTarget_groups (h t mem_cons_self)]
    intro u hu
    show (s.capacityPools.remove t).targetMap.find u = some 0
    rw [remove_targetMap]
    exact h u (mem_cons_of_mem t hu)

theorem Agree.find_of_group {s' : MgmtdTargetMapper} (hs' : s'.Agree)
    (h : t ∈ (s'.capacityPools.groupedTargetPools p).group n) : s'.targets.find t = some n :=
  (hs'.mem_group.mp h).2

theorem InStep.exists_group (hs : s.InStep) (h : s.targets.find t = some n) :
    ∃ p, t ∈ s.capacityPools.pools p ∧ t ∈ (s.capacityPools.groupedTargetPools p).group n := by
  obtain ⟨p, ht⟩ := (hs.pools_iff t).mpr (by rw [h]; rfl)
  exact ⟨p, ht, hs.mem_group.mpr ⟨ht, h⟩⟩

theorem InStep.not_agree (hs : s.InStep) {call : Call} (hMapped : s.UpdatesMapped call)
    (h : ¬ s.Forwarded call) : ¬ (s.step call).Agree := by
  intro hAfter
  cases call with
  | mapTarget t n now =>
    obtain ⟨hSome, hOther⟩ := not_or.mp h
    obtain ⟨m, hm⟩ := ne_none_iff_exists'.mp hSome
    obtain ⟨p, -, hGroup⟩ := hs.exists_group hm
    -- the size of the map has not changed, so the pools were not told
    have hStep : s.step (.mapTarget t n now) =
        { s with targets := s.targets.put t n, mappingsDirty := true } := by
      rw [step, mapTarget_of_mapped (by rw [hm]; rfl)]
    rw [hStep] at hAfter
    have hNode := hAfter.find_of_group hGroup
    rw [find_put_self] at hNode
    exact hOther (hm.trans hNode.symm)
  | unmapTarget t =>
    have hZero : s.targets.find t = some 0 := not_not.mp h
    obtain ⟨p, -, hGroup⟩ := hs.exists_group hZero
    have hStep : s.step (.unmapTarget t) = s.eraseTarget t := by
      rw [step, unmapTarget, if_pos (by rw [TargetMapper.targetExists, hZero]; rfl)]
    rw [hStep] at hAfter
    rw [← eraseTarget_groups (hs.node_eq hZero)] at hGroup
    have hNode : (s.targets.remove t).find t = some 0 := hAfter.find_of_group hGroup
    rw [find_remove_self] at hNode
    cases hNode
  | unmapByNodeID n =>
    obtain ⟨rfl, hExists⟩ := Classical.not_imp.mp h
    obtain ⟨t, hNot⟩ := not_forall.mp hExists
    have hZero : s.targets.find t = some 0 := not_not.mp hNot
    obtain ⟨p, -, hGroup⟩ := hs.exists_group hZero
    have hNodes : ∀ u ∈ getTargetsByNode 0 s.targets, s.capacityPools.targetMap.find u = some 0 :=
      fun u hu => hs.node_eq (mem_getTargetsByNode.mp hu)
    rw [← foldl_eraseTarget_groups hNodes] at hGroup
    have hNode := hAfter.find_of_group hGroup
    rw [show (s.step (.unmapByNodeID 0)).targets =
        (getTargetsByNode 0 s.targets).foldl remove s.targets from
      eraseTarget_targets s _, find_foldl_remove,
      if_pos (mem_getTargetsByNode.mpr hZero)] at hNode
    cases hNode
  | addOrUpdate t n p =>
    obtain ⟨hPools, hGroups⟩ := addOrUpdateUnlocked_spec (t := t) n p
      fun _ _ => hs.one_pool
    -- the target is in the group of the given node now
    have hHere : t ∈
        ((s.step (.addOrUpdate t n p)).capacityPools.groupedTargetPools p).group n := by
      show t ∈ ((s.capacityPools.addOrUpdateUnlocked t n p).2.groupedTargetPools p).group n
      rw [hGroups, if_pos rfl, group_put, if_pos rfl]
      exact mem_insert_id.mpr (Or.inr rfl)
    have hFind : s.targets.find t = some n := hAfter.find_of_group hHere
    obtain ⟨rfl, hNotHere⟩ := Classical.not_imp.mp fun hZero => h ⟨hFind, hZero⟩
    obtain ⟨q, hq, hGroup⟩ := hs.exists_group hFind
    have hqp : q ≠ p := fun hSame => hNotHere (hSame ▸ hq)
    have hStays : t ∈
        ((s.step (.addOrUpdate t 0 p)).capacityPools.groupedTargetPools q).group 0 := by
      show t ∈ ((s.capacityPools.addOrUpdateUnlocked t 0 p).2.groupedTargetPools q).group 0
      rw [hGroups, if_neg hqp, if_neg]
      · exact hGroup
      · rintro ⟨-, hNode⟩
        exact hNode (by rw [TargetMap.getNodeIDFromTargetID, hs.node_eq hFind]; rfl)
    have hPool := (hAfter.mem_group.mp hStays).1
    rcases (hPools q t).mp hPool with ⟨-, hSelf⟩ | ⟨-, hSame⟩
    · exact hSelf rfl
    · exact hqp hSame

end Steps

/-! ## Runs -/

/-- The three stores agree in all states of a run if and only if every step is forwarded. -/
theorem agree_throughout_iff {calls : List Call}
    (hMapped : Run.EveryStep step UpdatesMapped init calls) :
    Run.Throughout step Agree init calls ↔ Run.EveryStep step Forwarded init calls :=
  Run.throughout_iff_everyStep (J := InStep) step (fun _ hs => hs.toAgree)
    (fun _ _ hs _ h => hs.after_step h) (fun _ _ hs hMapped h => hs.not_agree hMapped h)
    InStep.init hMapped

/-- A target that is mapped, moved to another pool and removed with its node. -/
theorem agree_throughout_movedPool :
    Run.Throughout step Agree init
      [.mapTarget 7 1 ⟨0, 0⟩, .addOrUpdate 7 1 .NORMAL, .unmapByNodeID 1] := by
  refine (agree_throughout_iff ?_).mpr ?_
  · exact ⟨trivial, rfl, trivial, trivial⟩
  · exact ⟨Or.inl rfl, ⟨rfl, nofun⟩, nofun, trivial⟩

/-- A target that is mapped to another node stays in the group of its old one. -/
theorem not_agree_throughout :
    ¬ ∀ calls, Run.EveryStep step UpdatesMapped init calls →
      Run.Throughout step Agree init calls := by
  intro h
  have hRun := h [.mapTarget 7 1 ⟨0, 0⟩, .mapTarget 7 2 ⟨0, 0⟩] ⟨trivial, trivial, trivial⟩
  have hAgree := hRun.2.2
  have hGroup : 7 ∈ ((((init.step (.mapTarget 7 1 ⟨0, 0⟩)).step
      (.mapTarget 7 2 ⟨0, 0⟩)).capacityPools.groupedTargetPools .LOW).group 1).elems := by
    decide
  have hNode := hAgree.find_of_group hGroup
  revert hNode
  decide

end MgmtdTargetMapper

end Fhgfs.Nodes
