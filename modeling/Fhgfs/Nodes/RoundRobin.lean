import Fhgfs.Nodes.StripeSets

/-!
# Round-robin target choice

`chooseStorageNodesNoPrefRoundRobin`, the same code in `TargetCapacityPools` and
`NodeCapacityPools`: the targets behind `lastRoundRobinTarget` in the ring of the pool.
`chooseRoundRobin_fair`: the picks of all calls form one walk around the ring.
-/

namespace Fhgfs.Nodes.TargetSet

open TargetCapacityPools List Option

/-- `lower_bound`, with the number of targets for `end()`. -/
def lowerBound (targets : List Nat) (targetID : Nat) : Nat :=
  targets.findIdx (targetID ≤ ·)

/-- The last `left` rounds of the loop: the iterator moves before its target is added. -/
def pickInRing (targets : List Nat) : Nat → Nat → List Nat → Option (Nat × List Nat)
  | 0, iter, outTargets => some (iter, outTargets)
  | left + 1, iter, outTargets => do
    let next := moveIterToNextRingElem targets iter
    let targetID ← targets[next]?
    pickInRing targets left next (outTargets ++ [targetID])

/-- Where the ring is entered: behind the greatest target is the first one. -/
def roundRobinIter (targets : List Nat) (lastRoundRobinTarget : Nat) : Nat :=
  if lowerBound targets lastRoundRobinTarget = targets.length then 0
  else lowerBound targets lastRoundRobinTarget

/-- `outTargets` and the new `lastRoundRobinTarget`. -/
def chooseStorageNodesNoPrefRoundRobin (activeTargets : TargetSet) (numTargets : Nat)
    (lastRoundRobinTarget : Nat) (outTargets : List Nat) : Option (List Nat × Nat) :=
  let targets := activeTargets.elems
  if targets = [] then some (outTargets, lastRoundRobinTarget)
  else do
    let numTargets := if targets.length < numTargets then targets.length else numTargets
    let (iter, outTargets) ←
      pickInRing targets numTargets (roundRobinIter targets lastRoundRobinTarget) outTargets
    let lastRoundRobinTarget ← targets[iter]?
    some (outTargets, lastRoundRobinTarget)

/-- One call after the other, each with an empty `outTargets`. -/
def chooseRoundRobin (activeTargets : TargetSet) : List Nat → Nat → Option (List (List Nat))
  | [], _ => some []
  | numTargets :: calls, lastRoundRobinTarget => do
    let (outTargets, lastRoundRobinTarget) ←
      activeTargets.chooseStorageNodesNoPrefRoundRobin numTargets lastRoundRobinTarget []
    let rest ← activeTargets.chooseRoundRobin calls lastRoundRobinTarget
    some (outTargets :: rest)

section Walk

variable {targets : List Nat}

theorem pickInRing_spec (hSome : targets ≠ []) (start left k : Nat) (outTargets : List Nat) :
    ∃ picked, pickInRing targets left ((start + k) % targets.length) outTargets =
        some ((start + (k + left)) % targets.length, outTargets ++ picked) ∧
      picked.length = left ∧ WalksRing targets (start + (k + 1)) picked := by
  induction left generalizing k outTargets with
  | zero => exact ⟨[], by rw [append_nil]; rfl, rfl, fun _ hk => absurd hk (Nat.not_lt_zero _)⟩
  | succ left ih =>
    have hLt := Nat.mod_lt (start + (k + 1)) (length_pos_of_ne_nil hSome)
    obtain ⟨picked, hPick, hLength, hWalk⟩ :=
      ih (k + 1) (outTargets ++ [targets[(start + (k + 1)) % targets.length]])
    refine ⟨[targets[(start + (k + 1)) % targets.length]] ++ picked, ?_, ?_,
      WalksRing.append ?_ hWalk⟩
    · simp only [pickInRing, moveIterToNextRingElem_mod hSome, getElem?_eq_getElem hLt,
        bind_eq_bind, bind_some, hPick]
      rw [append_assoc, add_assoc k, add_comm 1 left]
    · rw [length_append, hLength, add_comm]
      rfl
    · intro j hj
      obtain rfl : j = 0 := Nat.lt_one_iff.mp hj
      exact (getElem?_eq_getElem hLt).symm

theorem roundRobinIter_lt (hSome : targets ≠ []) (lastRoundRobinTarget : Nat) :
    roundRobinIter targets lastRoundRobinTarget < targets.length := by
  have hLe : lowerBound targets lastRoundRobinTarget ≤ targets.length := findIdx_le_length
  unfold roundRobinIter
  split_ifs with hEnd
  · exact length_pos_of_ne_nil hSome
  · omega

theorem roundRobinIter_getElem (activeTargets : TargetSet) {i : Nat}
    (hi : i < activeTargets.elems.length) :
    roundRobinIter activeTargets.elems activeTargets.elems[i] = i := by
  have hFound : lowerBound activeTargets.elems activeTargets.elems[i] = i := by
    refine (findIdx_eq hi).mpr ⟨decide_eq_true le_rfl, fun j hj => decide_eq_false ?_⟩
    exact not_le.mpr (pairwise_iff_getElem.mp activeTargets.ascending j i (by omega) hi hj)
  unfold roundRobinIter
  rw [hFound, if_neg (ne_of_lt hi)]

end Walk

section

variable {activeTargets : TargetSet} (hSome : activeTargets.elems ≠ [])
include hSome

/-- One call: it goes on behind the iterator and leaves it at the last target of the call. -/
theorem chooseStorageNodesNoPrefRoundRobin_spec (numTargets lastRoundRobinTarget : Nat) :
    ∃ picked lastRoundRobinTarget', activeTargets.chooseStorageNodesNoPrefRoundRobin numTargets
        lastRoundRobinTarget [] = some (picked, lastRoundRobinTarget') ∧
      picked.length = min numTargets activeTargets.elems.length ∧
      WalksRing activeTargets.elems
        (roundRobinIter activeTargets.elems lastRoundRobinTarget + 1) picked ∧
      roundRobinIter activeTargets.elems lastRoundRobinTarget' =
        (roundRobinIter activeTargets.elems lastRoundRobinTarget + picked.length) %
          activeTargets.elems.length := by
  obtain ⟨start, hStart⟩ :
      ∃ start, roundRobinIter activeTargets.elems lastRoundRobinTarget = start := ⟨_, rfl⟩
  have hLt : start < activeTargets.elems.length := hStart ▸ roundRobinIter_lt hSome _
  have hNum : (if activeTargets.elems.length < numTargets then activeTargets.elems.length
      else numTargets) = min numTargets activeTargets.elems.length := by
    split_ifs <;> omega
  obtain ⟨picked, hPick, hLength, hWalk⟩ :=
    pickInRing_spec hSome start (min numTargets activeTargets.elems.length) 0 []
  obtain ⟨stop, hStop⟩ : ∃ stop, (start + min numTargets activeTargets.elems.length) %
      activeTargets.elems.length = stop := ⟨_, rfl⟩
  have hLast : stop < activeTargets.elems.length :=
    hStop ▸ Nat.mod_lt _ (length_pos_of_ne_nil hSome)
  rw [add_zero, Nat.mod_eq_of_lt hLt, zero_add, hStop, nil_append] at hPick
  refine ⟨picked, activeTargets.elems[stop], ?_, hLength, hStart ▸ hWalk, ?_⟩
  · unfold chooseStorageNodesNoPrefRoundRobin
    simp only [if_neg hSome, hNum, hStart, hPick, bind_eq_bind, bind_some,
      getElem?_eq_getElem hLast]
  · rw [roundRobinIter_getElem, hLength, hStart, hStop]

theorem chooseRoundRobin_walk (calls : List Nat) (lastRoundRobinTarget : Nat) :
    ∃ picks, activeTargets.chooseRoundRobin calls lastRoundRobinTarget = some picks ∧
      picks.map length = calls.map (min · activeTargets.elems.length) ∧
      WalksRing activeTargets.elems
        (roundRobinIter activeTargets.elems lastRoundRobinTarget + 1) picks.flatten ∧
      ∀ outTargets ∈ picks, outTargets.Nodup := by
  induction calls generalizing lastRoundRobinTarget with
  | nil => exact ⟨[], rfl, rfl, fun _ hk => absurd hk (Nat.not_lt_zero _), by simp⟩
  | cons numTargets calls ih =>
    obtain ⟨picked, last', hChoose, hLength, hWalk, hIter⟩ :=
      chooseStorageNodesNoPrefRoundRobin_spec hSome numTargets lastRoundRobinTarget
    obtain ⟨picks, hPicks, hLengths, hRest, hNodup⟩ := ih last'
    refine ⟨picked :: picks, ?_, ?_, ?_, ?_⟩
    · simp only [chooseRoundRobin, hChoose, hPicks, bind_eq_bind, bind_some]
    · rw [map_cons, map_cons, hLength, hLengths]
    · refine hWalk.append (hRest.congr_start ?_)
      rw [hIter, Nat.mod_add_mod, add_right_comm]
    · refine forall_mem_cons.mpr ⟨?_, hNodup⟩
      exact hWalk.nodup activeTargets.nodup_elems (by omega)

end

/-- After any calls two targets differ by at most one in how often they were chosen. -/
theorem chooseRoundRobin_fair (activeTargets : TargetSet) (hSome : activeTargets.elems ≠ [])
    (calls : List Nat) (lastRoundRobinTarget : Nat) :
    ∃ picks, activeTargets.chooseRoundRobin calls lastRoundRobinTarget = some picks ∧
      picks.map List.length = calls.map (min · activeTargets.elems.length) ∧
      (∃ start, WalksRing activeTargets.elems start picks.flatten) ∧
      (∀ t ∈ activeTargets, ∀ u ∈ activeTargets,
        picks.flatten.count t ≤ picks.flatten.count u + 1) ∧
      ∀ outTargets ∈ picks, outTargets.Nodup := by
  obtain ⟨picks, hPicks, hLengths, hWalk, hNodup⟩ :=
    chooseRoundRobin_walk hSome calls lastRoundRobinTarget
  exact ⟨picks, hPicks, hLengths, ⟨_, hWalk⟩,
    fun t _ u hu => hWalk.count_le activeTargets.nodup_elems hu, hNodup⟩

/-- A marker that is no target, and a call for more targets than there are. -/
theorem chooseRoundRobin_fair_threeTargets :
    ∃ picks, chooseRoundRobin (threeTargets .NORMAL) [2, 5, 0, 1] 7 = some picks ∧
      ∀ t ∈ threeTargets .NORMAL, ∀ u ∈ threeTargets .NORMAL,
        picks.flatten.count t ≤ picks.flatten.count u + 1 := by
  obtain ⟨picks, hPicks, -, -, hCount, -⟩ :=
    chooseRoundRobin_fair (threeTargets .NORMAL) (cons_ne_nil _ _) [2, 5, 0, 1] 7
  exact ⟨picks, hPicks, hCount⟩

end Fhgfs.Nodes.TargetSet
