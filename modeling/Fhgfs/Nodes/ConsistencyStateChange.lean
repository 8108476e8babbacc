import Fhgfs.Nodes.TargetStateLoops

/-!
# The change of consistency states as a compare-and-swap

`changeConsistencyStatesFromLists` compares the states of all targets before it stores the first
one, and its documentation promises that a mismatch leaves the states as they are. The comparison
reads the states with an operator that creates the missing ones.

* `checkOldStates_statesMap_iff`: what the comparison leaves as it was.
* `changed_of_match`: the new states, after a comparison without a mismatch.
* `changesAllOrNothing_iff`: the change is all or nothing exactly if no state is missing among the
  compared ones, or there is no mismatch.
-/

namespace Fhgfs.Nodes

open List OrderedMap Option
open TargetConsistencyState (GOOD NEEDS_RESYNC)

namespace MgmtdTargetStateStore

def Switched (o o' : Option MirrorBuddyGroup) : Prop := o' = o ∨ o' = o.map MirrorBuddyGroup.swap

/-- Every listed target has its new state, and the others are as before, up to the order of the
members of their buddy groups. -/
structure Changed (s s' : MgmtdTargetStateStore) (targetIDs : List Nat)
    (newStates : List TargetConsistencyState) : Prop where
  consistency : ∀ listed ∈ targetIDs.zip newStates, s'.consistencyOf listed.1 = some listed.2
  reachability : ∀ t ∈ targetIDs, s'.reachabilityOf t = some .ONLINE
  unlisted : ∀ t ∉ targetIDs, s'.statesMap.find t = s.statesMap.find t
  unlistedResync : ∀ t ∉ targetIDs, t ∈ s'.targetsToResync ↔ t ∈ s.targetsToResync
  groups : ∀ gid, Switched (s.groupOf gid) (s'.groupOf gid)

def ChangesAllOrNothing (s : MgmtdTargetStateStore) (targetIDs : List Nat)
    (oldStates newStates : List TargetConsistencyState) (now : Time) : Prop :=
  let result := s.changeConsistencyStatesFromLists targetIDs oldStates newStates now
  (result.1 = .AGAIN ∧ result.2.statesMap = s.statesMap) ∨
    (result.1 = .SUCCESS ∧ Changed s result.2 targetIDs newStates)

/-- There are states for all targets up to the first mismatch. -/
def ComparedKnown (s : MgmtdTargetStateStore) (changes : List StateChange) : Prop :=
  ∀ t ∈ checkedIDs s.checkedConsistency changes, ∃ info, s.statesMap.find t = some info

/-! ## The comparison -/

variable {s : MgmtdTargetStateStore} {now : Time}

variable (changes : List StateChange)

theorem checkOldStates_statesMap_iff :
    (checkOldStates now changes s).2.statesMap = s.statesMap ↔ s.ComparedKnown changes := by
  constructor
  · intro hSame t ht
    have hFind := find_checkOldStates now s changes t
    rw [hSame, if_pos ht] at hFind
    cases hKnown : s.statesMap.find t with
    | none =>
      rw [hKnown, none_or] at hFind
      cases hFind
    | some info => exact ⟨info, rfl⟩
  · intro hKnown
    refine ext_find fun t => ?_
    rw [find_checkOldStates]
    split_ifs with ht
    · obtain ⟨info, hInfo⟩ := hKnown t ht
      rw [hInfo, some_or]
    · rw [or_none]

theorem checkOldStates_targetsToResync :
    (checkOldStates now changes s).2.targetsToResync = s.targetsToResync := by
  induction changes generalizing s with
  | nil => rfl
  | cons change changes ih =>
    unfold checkOldStates
    dsimp only
    split_ifs
    · exact ih
    · rfl

theorem find_checkOldStates_of_not_mem {changes : List StateChange} {t : Nat}
    (hMatch : OldStatesMatch s.checkedConsistency changes)
    (ht : t ∉ changes.map StateChange.targetID) :
    (checkOldStates now changes s).2.statesMap.find t = s.statesMap.find t := by
  rw [find_checkOldStates, checkedIDs_of_match hMatch, if_neg ht, or_none]

/-! ## The new states -/

/-- The states as the second loop puts them into the map. -/
def newStateOf (now : Time) (change : StateChange) : Nat × TargetStateInfo :=
  (change.targetID, ⟨.ONLINE, change.newState, now⟩)

theorem applyStateChanges_statesMap (s : MgmtdTargetStateStore) :
    (changes.foldl (applyStateChange now) s).statesMap =
      (changes.map (newStateOf now)).foldl (fun m p => m.put p.1 p.2) s.statesMap := by
  induction changes generalizing s with
  | nil => rfl
  | cons change changes ih =>
    rw [foldl_cons, ih, applyStateChange_statesMap]
    rfl

theorem map_fst_newStateOf (now : Time) (changes : List StateChange) :
    (changes.map (newStateOf now)).map Prod.fst = changes.map StateChange.targetID := by
  rw [List.map_map]
  rfl

theorem switchIfPrimaryOffline_targetsToResync (t : Nat) (s : MgmtdTargetStateStore) :
    (s.switchIfPrimaryOffline t).targetsToResync = s.targetsToResync := by
  unfold switchIfPrimaryOffline switchover
  repeat' split
  all_goals rfl

theorem mem_targetsToResync_applyStateChange {t : Nat} {change : StateChange}
    (ht : t ≠ change.targetID) (s : MgmtdTargetStateStore) :
    t ∈ (applyStateChange now s change).targetsToResync ↔ t ∈ s.targetsToResync := by
  have hChange : ∀ info info', t ∈ (s.changeState change.targetID info info').targetsToResync ↔
      t ∈ s.targetsToResync := by
    intro info info'
    unfold changeState targetsToResyncUpdate
    split_ifs
    · simp [OrderedSet.mem_insert_id, ht, storeState]
    · simp [OrderedSet.mem_erase, ht, storeState]
    · rfl
  unfold applyStateChange
  dsimp only
  split_ifs
  · rw [switchIfPrimaryOffline_targetsToResync, hChange]
  · exact hChange _ _

theorem mem_targetsToResync_applyStateChanges {t : Nat} {changes : List StateChange}
    (ht : t ∉ changes.map StateChange.targetID) (s : MgmtdTargetStateStore) :
    t ∈ (changes.foldl (applyStateChange now) s).targetsToResync ↔ t ∈ s.targetsToResync := by
  induction changes generalizing s with
  | nil => rfl
  | cons change changes ih =>
    rw [map_cons, mem_cons, not_or] at ht
    rw [foldl_cons, ih ht.2, mem_targetsToResync_applyStateChange ht.1]

theorem Switched.trans {o₁ o₂ o₃ : Option MirrorBuddyGroup} (h : Switched o₁ o₂)
    (h' : Switched o₂ o₃) : Switched o₁ o₃ := by
  rcases h with rfl | rfl
  · exact h'
  · rcases h' with rfl | rfl
    · exact Or.inr rfl
    · left
      cases o₁ <;> rfl

theorem switched_switchIfPrimaryOffline (t gid : Nat) (s : MgmtdTargetStateStore) :
    Switched (s.groupOf gid) ((s.switchIfPrimaryOffline t).groupOf gid) := by
  have hSwitch : ∀ gid', Switched (s.groupOf gid) ((s.switchover gid').groupOf gid) := by
    intro gid'
    rw [groupOf_switchover]
    split_ifs
    · exact Or.inr rfl
    · exact Or.inl rfl
  unfold switchIfPrimaryOffline
  split
  · exact Or.inl rfl
  dsimp only
  split_ifs
  · exact Or.inl rfl
  · split
    · exact Or.inl rfl
    · split_ifs
      · exact hSwitch _
      · exact Or.inl rfl

theorem switched_applyStateChanges (gid : Nat) (s : MgmtdTargetStateStore) :
    Switched (s.groupOf gid) ((changes.foldl (applyStateChange now) s).groupOf gid) := by
  induction changes generalizing s with
  | nil => exact Or.inl rfl
  | cons change changes ih =>
    have hOne : Switched (s.groupOf gid) ((applyStateChange now s change).groupOf gid) := by
      unfold applyStateChange
      dsimp only
      split_ifs
      · rw [← groupOf_changeState s change.targetID (s.stateOf now change.targetID)
          ⟨.ONLINE, change.newState, now⟩ gid]
        exact switched_switchIfPrimaryOffline _ _ _
      · exact Or.inl (groupOf_changeState s _ _ _ gid)
    exact hOne.trans (ih _)

/-! ## The three lists -/

section Lists

variable {targetIDs : List Nat} {oldStates newStates : List TargetConsistencyState}

section

variable (hOld : oldStates.length = targetIDs.length) (hNew : newStates.length = targetIDs.length)
include hOld hNew

theorem map_targetID_stateChanges :
    (stateChanges targetIDs oldStates newStates).map StateChange.targetID = targetIDs := by
  unfold stateChanges
  rw [map_zipWith]
  apply ext_getElem
  · simp [hOld, hNew]
  · intro i _ _
    simp

theorem exists_stateChange {listed : Nat × TargetConsistencyState}
    (h : listed ∈ targetIDs.zip newStates) :
    ∃ change ∈ stateChanges targetIDs oldStates newStates,
      change.targetID = listed.1 ∧ change.newState = listed.2 := by
  obtain ⟨i, hi, rfl⟩ := getElem_of_mem h
  rw [length_zip] at hi
  refine ⟨⟨targetIDs[i], oldStates[i], newStates[i]⟩, ?_, by simp, by simp⟩
  rw [mem_iff_getElem]
  refine ⟨i, by simp [stateChanges]; omega, by simp [stateChanges]⟩

end

theorem changed_of_match (hIDs : targetIDs.Nodup) (hOld : oldStates.length = targetIDs.length)
    (hNew : newStates.length = targetIDs.length)
    (hMatch : OldStatesMatch s.checkedConsistency (stateChanges targetIDs oldStates newStates)) :
    Changed s (s.changeConsistencyStatesFromLists targetIDs oldStates newStates now).2 targetIDs
      newStates := by
  rw [changeConsistencyStatesFromLists_snd, if_pos hMatch]
  have hListed := map_targetID_stateChanges hOld hNew
  generalize hChanges : stateChanges targetIDs oldStates newStates = changes at hMatch hListed ⊢
  have hKeys := map_fst_newStateOf now changes
  rw [hListed] at hKeys
  have hStored : ∀ change ∈ changes, ((changes.foldl (applyStateChange now)
      (checkOldStates now changes s).2).statesMap.find change.targetID) =
        some ⟨.ONLINE, change.newState, now⟩ := by
    intro change hIn
    rw [applyStateChanges_statesMap]
    exact find_foldl_put_of_mem (hKeys ▸ hIDs)
      (mem_map.mpr ⟨change, hIn, rfl⟩)
  constructor
  · intro listed hIn
    obtain ⟨change, hChange, hID, hState⟩ := exists_stateChange hOld hNew hIn
    rw [hChanges] at hChange
    rw [consistencyOf, ← hID, hStored change hChange, map_some, hState]
  · intro t ht
    rw [← hListed] at ht
    obtain ⟨change, hChange, rfl⟩ := mem_map.mp ht
    rw [reachabilityOf, hStored change hChange, map_some]
  · intro t ht
    rw [applyStateChanges_statesMap, find_foldl_put_of_not_mem (fun hIn => ht (hKeys ▸ hIn)),
      find_checkOldStates_of_not_mem hMatch (hListed ▸ ht)]
  · intro t ht
    rw [mem_targetsToResync_applyStateChanges (hListed ▸ ht), checkOldStates_targetsToResync]
  · intro gid
    have hChecked : (checkOldStates now changes s).2.groupOf gid = s.groupOf gid := by
      rw [groupOf, (checkOldStates_groups now s changes).1, groupOf]
    rw [← hChecked]
    exact switched_applyStateChanges changes gid _

/-- The operation promises that a mismatch leaves the states as they are. It does if there are
states for all targets that it compares. -/
theorem changesAllOrNothing_iff (s : MgmtdTargetStateStore) (now : Time) (hIDs : targetIDs.Nodup)
    (hOld : oldStates.length = targetIDs.length) (hNew : newStates.length = targetIDs.length) :
    s.ChangesAllOrNothing targetIDs oldStates newStates now ↔
      OldStatesMatch s.checkedConsistency (stateChanges targetIDs oldStates newStates) ∨
        s.ComparedKnown (stateChanges targetIDs oldStates newStates) := by
  have hResult : (s.changeConsistencyStatesFromLists targetIDs oldStates newStates now).1 =
      (checkOldStates now (stateChanges targetIDs oldStates newStates) s).1 := by
    unfold changeConsistencyStatesFromLists
    dsimp only
    split
    · rename_i hCheck
      rw [hCheck]
    · rename_i hCheck
      rw [hCheck]
  rw [checkOldStates_fst] at hResult
  unfold ChangesAllOrNothing
  dsimp only
  rw [hResult]
  by_cases hMatch : OldStatesMatch s.checkedConsistency (stateChanges targetIDs oldStates newStates)
  · rw [if_pos hMatch]
    exact iff_of_true (Or.inr ⟨rfl, changed_of_match hIDs hOld hNew hMatch⟩) (Or.inl hMatch)
  rw [if_neg hMatch, changeConsistencyStatesFromLists_snd, if_neg hMatch,
    checkOldStates_statesMap_iff]
  constructor
  · rintro (⟨-, hKnown⟩ | ⟨hSuccess, -⟩)
    · exact Or.inr hKnown
    · cases hSuccess
  · intro h
    exact Or.inl ⟨rfl, h.resolve_left hMatch⟩

end Lists

def noStates : MgmtdTargetStateStore := ⟨.empty, .empty, none, []⟩

/-- All targets are known, and target 8 is not in the state that is expected. -/
theorem changesAllOrNothing_iff_mismatch :
    ([7, 8, 9].foldl (·.storeState · ⟨.ONLINE, GOOD, ⟨0, 0⟩⟩) noStates).ChangesAllOrNothing
      [7, 8, 9] [GOOD, NEEDS_RESYNC, GOOD] [.BAD, GOOD, .BAD] ⟨5, 0⟩ :=
  (changesAllOrNothing_iff _ _ (by decide) rfl rfl).mpr (Or.inr (by
    intro t ht
    change t ∈ [7, 8] at ht
    simp only [mem_cons, not_mem_nil, or_false] at ht
    rcases ht with rfl | rfl <;> exact ⟨_, rfl⟩))

/-- A change of a target without a state is refused, and leaves a state of the target. -/
theorem not_changesAllOrNothing :
    ¬ ∀ (s : MgmtdTargetStateStore) (targetIDs : List Nat)
      (oldStates newStates : List TargetConsistencyState) (now : Time), targetIDs.Nodup →
      oldStates.length = targetIDs.length → newStates.length = targetIDs.length →
        s.ChangesAllOrNothing targetIDs oldStates newStates now := by
  intro h
  rcases h noStates [7] [NEEDS_RESYNC] [GOOD] ⟨5, 0⟩ (by decide) rfl rfl with
    ⟨-, hSame⟩ | ⟨hSuccess, -⟩
  · have hFind := congrArg (find · 7) hSame
    cases hFind
  · cases hSuccess

end MgmtdTargetStateStore

end Fhgfs.Nodes
