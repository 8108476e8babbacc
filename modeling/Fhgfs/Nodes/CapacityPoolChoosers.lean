import Fhgfs.Nodes.CapacityPoolInvariant

/-!
# Choosing targets from capacity pools

While the representation holds, both choosers answer, and every target they pick is in the pool
it was picked from and recorded at the node of its group. Over runs, the representation and the
choosers are in order exactly if every addition meets its condition.
-/

namespace Fhgfs.Nodes

open List

namespace TargetCapacityPools

section Iterators

variable {α : Type} {collection : List α}

theorem moveIterToRandomElem_lt (h : collection ≠ []) (randGen : RandomReentrant) :
    (moveIterToRandomElem collection randGen).1 < collection.length := by
  have hPos := length_pos_of_ne_nil h
  unfold moveIterToRandomElem
  split_ifs
  · exact hPos
  · have hMod := Nat.mod_lt (randGen 0) (Nat.add_one_pos (collection.length - 1 - 0))
    unfold RandomReentrant.getNextInRange
    omega

theorem moveIterToNextRingElem_lt (h : collection ≠ []) (iter : Nat) :
    moveIterToNextRingElem collection iter < collection.length := by
  have hPos := length_pos_of_ne_nil h
  unfold moveIterToNextRingElem
  split_ifs with hNext
  · exact hNext
  · exact hPos

end Iterators

section Choosers

variable {s : TargetCapacityPools} {p : CapacityPoolType}

/-- The picked target is in its pool and recorded at its node. -/
def ValidPicks (s : TargetCapacityPools) (picks : List Pick) : Prop :=
  ∀ pick ∈ picks, pick.targetID ∈ s.pools pick.poolType ∧
    s.targetMap.find pick.targetID = some pick.nodeID

def ValidGroups (s : TargetCapacityPools) (p : CapacityPoolType)
    (groups : List (Nat × TargetSet)) : Prop :=
  ∀ group ∈ groups, group.2.elems ≠ [] ∧
    ∀ t ∈ group.2.elems, t ∈ s.pools p ∧ s.targetMap.find t = some group.1

theorem Represented.validGroups (hs : s.Represented) (p : CapacityPoolType) :
    s.ValidGroups p (s.groupedTargetPools p).elems := by
  intro group hIn
  have hFind : (s.groupedTargetPools p).find group.1 = some group.2 :=
    OrderedMap.find_eq_some.mpr hIn
  constructor
  · obtain ⟨t, ht⟩ := hs.no_empty_group p group.1 group.2 hFind
    exact ne_nil_of_mem ht
  · intro t ht
    refine hs.mem_group.mp ?_
    rw [GroupedTargets.group_of_find hFind]
    exact ht

variable {picks : List Pick}

theorem ValidPicks.push (h : s.ValidPicks picks) {t n : Nat}
    (ht : t ∈ s.pools p ∧ s.targetMap.find t = some n) : s.ValidPicks (picks ++ [⟨t, n, p⟩]) := by
  intro pick hPick
  rcases mem_append.mp hPick with hOld | hNew
  · exact h pick hOld
  · rw [mem_singleton.mp hNew]
    exact ht

theorem pickFromGroups_valid {groups : List (Nat × TargetSet)} (hGroups : s.ValidGroups p groups)
    (hSome : groups ≠ []) (numTargets : Nat) {groupsIter : Nat}
    (hIter : groupsIter < groups.length) (randGen : RandomReentrant) (hPicks : s.ValidPicks picks) :
    ∃ picks' randGen', pickFromGroups p groups numTargets groupsIter randGen picks =
      some (picks', randGen') ∧ s.ValidPicks picks' := by
  induction numTargets generalizing groupsIter randGen picks with
  | zero => exact ⟨picks, randGen, rfl, hPicks⟩
  | succ numTargets ih =>
    obtain ⟨hNotEmpty, hTargets⟩ := hGroups _ (getElem_mem hIter)
    have hTarget := moveIterToRandomElem_lt hNotEmpty randGen
    unfold pickFromGroups
    rw [getElem?_eq_getElem hIter]
    dsimp only
    rw [getElem?_eq_getElem hTarget]
    exact ih (moveIterToNextRingElem_lt hSome groupsIter) _
      (hPicks.push (hTargets _ (getElem_mem hTarget)))

variable {groupedTargets : GroupedTargets}

theorem chooseTargetsInterdomainNoPref_valid
    (hGroups : s.ValidGroups p groupedTargets.elems) (numTargets : Nat)
    (randGen : RandomReentrant) (hPicks : s.ValidPicks picks) :
    ∃ picks' randGen', chooseTargetsInterdomainNoPref p groupedTargets numTargets randGen picks =
      some (picks', randGen') ∧ s.ValidPicks picks' := by
  unfold chooseTargetsInterdomainNoPref
  dsimp only
  split_ifs with hNone
  · exact ⟨picks, randGen, rfl, hPicks⟩
  · exact pickFromGroups_valid hGroups hNone _ (moveIterToRandomElem_lt hNone randGen) _ hPicks

theorem mem_copyAndStripGroupedTargets {stripNodes : List Nat} {group : Nat × TargetSet}
    (h : group ∈ copyAndStripGroupedTargets groupedTargets stripNodes) :
    group ∈ groupedTargets := by
  induction stripNodes generalizing groupedTargets with
  | nil => exact h
  | cons n stripNodes ih => exact (OrderedMap.mem_remove.mp (ih h)).1

theorem chooseInterdomainFrom_valid (hs : s.Represented) (numTargets minNumRequiredTargets : Nat)
    (poolTypes : List CapacityPoolType) (randGen : RandomReentrant) (hPicks : s.ValidPicks picks) :
    ∃ picks', s.chooseInterdomainFrom numTargets minNumRequiredTargets poolTypes randGen picks =
      some picks' ∧ s.ValidPicks picks' := by
  induction poolTypes generalizing randGen picks with
  | nil => exact ⟨picks, rfl, hPicks⟩
  | cons p poolTypes ih =>
    have hUsable : s.ValidGroups p (copyAndStripGroupedTargets (s.groupedTargetPools p)
        (picks.map Pick.nodeID)).elems := by
      intro group hIn
      exact hs.validGroups p group (mem_copyAndStripGroupedTargets hIn)
    obtain ⟨picks', randGen', hChosen, hPicks'⟩ :=
      chooseTargetsInterdomainNoPref_valid hUsable numTargets randGen hPicks
    unfold chooseInterdomainFrom
    dsimp only
    split_ifs with hNone
    · exact ih randGen hPicks
    · rw [hChosen]
      dsimp only
      split_ifs
      · exact ⟨picks', rfl, hPicks'⟩
      · exact ih randGen' hPicks'

theorem pickFromTargets_valid {n : Nat} {targets : List Nat} (hSome : targets ≠ [])
    (hTargets : ∀ t ∈ targets, t ∈ s.pools p ∧ s.targetMap.find t = some n) (numTargets : Nat)
    {targetsIter : Nat} (hIter : targetsIter < targets.length) (hPicks : s.ValidPicks picks) :
    ∃ picks', pickFromTargets p n targets numTargets targetsIter picks = some picks' ∧
      s.ValidPicks picks' := by
  induction numTargets generalizing targetsIter picks with
  | zero => exact ⟨picks, rfl, hPicks⟩
  | succ numTargets ih =>
    unfold pickFromTargets
    rw [getElem?_eq_getElem hIter]
    exact ih (moveIterToNextRingElem_lt hSome targetsIter)
      (hPicks.push (hTargets _ (getElem_mem hIter)))

theorem chooseTargetsIntradomainNoPref_valid
    (hGroups : s.ValidGroups p groupedTargets.elems) (numTargets : Nat)
    (randGen : RandomReentrant) :
    ∃ picks, chooseTargetsIntradomainNoPref p groupedTargets numTargets randGen = some picks ∧
      s.ValidPicks picks := by
  have hNoPicks : s.ValidPicks [] := fun pick hPick => absurd hPick not_mem_nil
  unfold chooseTargetsIntradomainNoPref
  dsimp only
  split_ifs with hNone
  · exact ⟨[], rfl, hNoPicks⟩
  · have hIter := moveIterToRandomElem_lt hNone randGen
    obtain ⟨hNotEmpty, hTargets⟩ := hGroups _ (getElem_mem hIter)
    rw [getElem?_eq_getElem hIter]
    exact pickFromTargets_valid hNotEmpty hTargets _ (moveIterToRandomElem_lt hNotEmpty _) hNoPicks

/-- Both choosers answer for all arguments, with valid picks only. -/
def ChoosersSafe (s : TargetCapacityPools) : Prop :=
  ∀ numTargets minNumRequiredTargets randGen,
    (∃ picks, s.chooseTargetsInterdomain numTargets minNumRequiredTargets randGen = some picks ∧
      s.ValidPicks picks) ∧
    ∃ picks, s.chooseTargetsIntradomain numTargets randGen = some picks ∧ s.ValidPicks picks

theorem Represented.choosersSafe (hs : s.Represented) : s.ChoosersSafe := by
  intro numTargets minNumRequiredTargets randGen
  have hNoPicks : s.ValidPicks [] := fun pick hPick => absurd hPick not_mem_nil
  constructor
  · exact chooseInterdomainFrom_valid hs numTargets minNumRequiredTargets _ randGen hNoPicks
  · unfold chooseTargetsIntradomain
    split
    · exact ⟨[], rfl, hNoPicks⟩
    · rename_i p _
      exact chooseTargetsIntradomainNoPref_valid (hs.validGroups p) numTargets randGen

end Choosers

/-! ## Runs -/

inductive PoolOp
  | addOrUpdate (targetID nodeID : Nat) (poolType : CapacityPoolType)
  | addIfNotExists (targetID nodeID : Nat) (poolType : CapacityPoolType)
  | remove (targetID : Nat)
  | syncPoolsFromLists (lists : CapacityPoolType → List Nat) (newTargetMap : TargetMap)

/-- Node IDs are not 0 and the lists of a sync are disjoint. -/
def PoolOp.Admitted : PoolOp → Prop
  | .addOrUpdate _ nodeID _ => nodeID ≠ 0
  | .addIfNotExists _ nodeID _ => nodeID ≠ 0
  | .remove _ => True
  | .syncPoolsFromLists lists newTargetMap =>
    (∀ p q t, t ∈ lists p → t ∈ lists q → p = q) ∧ NonzeroNodes newTargetMap

def step (s : TargetCapacityPools) : PoolOp → TargetCapacityPools
  | .addOrUpdate targetID nodeID poolType => (s.addOrUpdateUnlocked targetID nodeID poolType).2
  | .addIfNotExists targetID nodeID poolType => (s.addIfNotExists targetID nodeID poolType).2
  | .remove targetID => s.remove targetID
  | .syncPoolsFromLists lists newTargetMap =>
    TargetCapacityPools.syncPoolsFromLists lists newTargetMap

/-- An addition that the representation survives. -/
def KeepsRepresentation (s : TargetCapacityPools) : PoolOp → Prop
  | .addOrUpdate targetID nodeID poolType => s.AddKeeps targetID nodeID poolType
  | .addIfNotExists targetID nodeID _ => s.AddIfNotExistsKeeps targetID nodeID
  | _ => True

section Runs

variable {s : TargetCapacityPools}

theorem NonzeroNodes.put {targetMap : TargetMap} (h : NonzeroNodes targetMap) (t : Nat) {n : Nat}
    (hn : n ≠ 0) : NonzeroNodes (targetMap.put t n) := by
  intro u m hFind
  rw [OrderedMap.find_put] at hFind
  split_ifs at hFind
  · exact Option.some.inj hFind ▸ hn
  · exact h u m hFind

theorem step_nonzeroNodes (hNodes : NonzeroNodes s.targetMap) {op : PoolOp} (hOp : op.Admitted) :
    NonzeroNodes (s.step op).targetMap := by
  cases op with
  | addOrUpdate t n p => exact hNodes.put t hOp
  | addIfNotExists t n p =>
    unfold step addIfNotExists addWithWriteLock
    dsimp only
    split_ifs
    · exact hNodes
    · exact hNodes.put t hOp
  | remove t =>
    unfold step
    rw [remove_targetMap]
    exact hNodes
  | syncPoolsFromLists lists newTargetMap => exact hOp.2

theorem represented_step_iff (hs : s.Represented) (hNodes : NonzeroNodes s.targetMap)
    {op : PoolOp} (hOp : op.Admitted) : (s.step op).Represented ↔ s.KeepsRepresentation op := by
  cases op with
  | addOrUpdate t n p => exact addOrUpdateUnlocked_represented_iff hs hNodes t n p
  | addIfNotExists t n p => exact addIfNotExists_represented_iff hs hNodes t n p hOp
  | remove t => exact iff_of_true (hs.remove hNodes t) trivial
  | syncPoolsFromLists lists newTargetMap =>
    exact iff_of_true (syncPoolsFromLists_represented hOp.1 hOp.2) trivial

/-- Over every run, the representation holds and the choosers are safe in all states exactly if
every addition meets its condition. -/
theorem represented_throughout_iff {ops : List PoolOp} (hOps : ∀ op ∈ ops, op.Admitted) :
    Run.Throughout step (fun s => s.Represented ∧ s.ChoosersSafe) init ops ↔
      Run.EveryStep step KeepsRepresentation init ops := by
  refine Run.throughout_iff_everyStep step
    (J := fun s => s.Represented ∧ NonzeroNodes s.targetMap) (A := fun _ op => op.Admitted)
    ?_ ?_ ?_ ⟨Represented.init, ?_⟩ (Run.everyStep_of_forall step fun _ => hOps)
  · intro s hJ
    exact ⟨hJ.1, hJ.1.choosersSafe⟩
  · intro s op hJ hOp hKeeps
    exact ⟨(represented_step_iff hJ.1 hJ.2 hOp).mpr hKeeps, step_nonzeroNodes hJ.2 hOp⟩
  · intro s op hJ hOp hKeeps hAfter
    exact hKeeps ((represented_step_iff hJ.1 hJ.2 hOp).mp hAfter.1)
  · intro t n hFind
    cases hFind

end Runs

/-- The only target of a node is moved to another pool. -/
theorem not_represented_throughout :
    ¬ ∀ ops : List PoolOp, (∀ op ∈ ops, op.Admitted) →
      Run.Throughout step (fun s => s.Represented ∧ s.ChoosersSafe) init ops := by
  intro hAll
  have hRun := hAll [.addOrUpdate 1 7 .NORMAL, .addOrUpdate 1 7 .LOW] (by simp [PoolOp.Admitted])
  rw [Run.throughout_iff] at hRun
  -- the emptied group of node 7 is read
  obtain ⟨picks, hChosen, -⟩ := ((hRun 2).2 1 1 id).1
  have hNone : (Run.after step init [.addOrUpdate 1 7 .NORMAL, .addOrUpdate 1 7 .LOW]
      ).chooseTargetsInterdomain 1 1 id = none := by decide
  exact Option.some_ne_none picks (hChosen.symm.trans hNone)

theorem represented_throughout_second_target :
    Run.Throughout step (fun s => s.Represented ∧ s.ChoosersSafe) init
      [.addOrUpdate 1 7 .NORMAL, .addIfNotExists 2 7 .NORMAL, .addOrUpdate 1 8 .LOW] := by
  refine (represented_throughout_iff (by simp [PoolOp.Admitted])).mpr
    ⟨⟨?_, ?_⟩, ?_, ⟨?_, ?_⟩, trivial⟩
  · decide
  · intro q _ ht
    exact absurd ht (OrderedSet.not_mem_empty 1)
  · intro q ht
    cases q <;> exact absurd ht (by decide)
  · decide
  · intro q hq ht
    cases q with
    | NORMAL => exact Or.inr ⟨2, by decide, by decide, by decide⟩
    | LOW => exact absurd rfl hq
    | EMERGENCY => exact absurd ht (by decide)

end TargetCapacityPools

end Fhgfs.Nodes
