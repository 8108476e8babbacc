import Fhgfs.Common.StorageDefinitions
import Fhgfs.Lib.OrderedMap

/-!
# Mirror buddy groups

`MirrorBuddyGroupMapper`: the pairs of targets that mirror each other, by group ID. The ID 0 is
reserved for "no group". A lookup by target walks the groups in the order of their IDs and takes
the first one that has the target.

A mapping request checks its targets and then, under another acquisition of the lock, writes the
group. `checkMapping` and `writeMapping` are these two parts.
-/

namespace Fhgfs.Nodes

def MIRRORBUDDYGROUPMAPPER_MAX_GROUPIDS : Nat := 65534

structure MirrorBuddyGroup where
  firstTargetID : Nat
  secondTargetID : Nat
deriving DecidableEq

abbrev TargetMapper := OrderedMap Nat Nat

namespace TargetMapper

def targetExists (targetMapper : TargetMapper) (targetID : Nat) : Bool :=
  (targetMapper.find targetID).isSome

def getNodeID (targetMapper : TargetMapper) (targetID : Nat) : Nat :=
  (targetMapper.find targetID).getD 0

end TargetMapper

namespace MirrorBuddyGroup

variable (mbg : MirrorBuddyGroup)

def HasMember (targetID : Nat) : Prop :=
  mbg.firstTargetID = targetID ∨ mbg.secondTargetID = targetID

instance (mbg : MirrorBuddyGroup) (targetID : Nat) : Decidable (mbg.HasMember targetID) :=
  inferInstanceAs (Decidable (_ ∨ _))

def swap : MirrorBuddyGroup := ⟨mbg.secondTargetID, mbg.firstTargetID⟩

@[simp] theorem swap_secondTargetID : mbg.swap.secondTargetID = mbg.firstTargetID := rfl

theorem swap_hasMember {mbg : MirrorBuddyGroup} {targetID : Nat} :
    mbg.swap.HasMember targetID ↔ mbg.HasMember targetID := or_comm

end MirrorBuddyGroup

abbrev MirrorBuddyGroupMap := OrderedMap Nat MirrorBuddyGroup

namespace MirrorBuddyGroupMap

variable (mirrorBuddyGroups : MirrorBuddyGroupMap)

/-- The group of a target and whether the target is its primary; `(0, false)` if unmapped. -/
def getBuddyGroupIDUnlocked (targetID : Nat) : Nat × Bool :=
  match mirrorBuddyGroups.elems.find? (fun entry => decide (entry.2.HasMember targetID)) with
  | none => (0, false)
  | some (buddyGroupID, mbg) => (buddyGroupID, decide (mbg.firstTargetID = targetID))

variable (buddyGroupID : Nat)

def getPrimaryTargetIDUnlocked : Nat :=
  match mirrorBuddyGroups.find buddyGroupID with
  | none => 0
  | some mbg => mbg.firstTargetID

def getSecondaryTargetIDUnlocked : Nat :=
  match mirrorBuddyGroups.find buddyGroupID with
  | none => 0
  | some mbg => mbg.secondTargetID

/-- Switch the group's primary and secondary target. -/
def switchover (mirrorBuddyGroups : MirrorBuddyGroupMap) : MirrorBuddyGroupMap :=
  match mirrorBuddyGroups.find buddyGroupID with
  | none => mirrorBuddyGroups
  | some mbg => mirrorBuddyGroups.put buddyGroupID mbg.swap

theorem find_switchover (gid gid' : Nat) :
    (mirrorBuddyGroups.switchover gid).find gid' =
      if gid' = gid then (mirrorBuddyGroups.find gid').map MirrorBuddyGroup.swap
      else mirrorBuddyGroups.find gid' := by
  unfold switchover
  split
  · rename_i hNone
    split_ifs with hSame
    · rw [hSame, hNone, Option.map_none]
    · rfl
  · rename_i mbg hSome
    rw [OrderedMap.find_put]
    split_ifs with hSame
    · rw [hSame, hSome, Option.map_some]
    · rfl

/-! ## Mapping requests -/

def getBuddyGroupID (targetID : Nat) : Nat :=
  match mirrorBuddyGroups.elems.find? (fun entry => decide (entry.2.HasMember targetID)) with
  | none => 0
  | some entry => entry.1

/-- The loop over the IDs from `newGroupID` on; 0 at the end of the range. -/
def nextFreeID (free : Nat → Bool) : Nat → Nat → Nat
  | 0, _ => 0
  | left + 1, newGroupID =>
    if free newGroupID then newGroupID else nextFreeID free left (newGroupID + 1)

variable (targetMapper : TargetMapper)

/-- An ID that neither a group nor a target uses, or 0 if there is none. -/
def generateID (mirrorBuddyGroups : MirrorBuddyGroupMap) : Nat :=
  let usedGroupIDs := mirrorBuddyGroups.elems.map Prod.fst
  let free := fun newGroupID =>
    !(usedGroupIDs.contains newGroupID) && targetMapper.getNodeID newGroupID == 0
  if free 1 then 1 else nextFreeID free (MIRRORBUDDYGROUPMAPPER_MAX_GROUPIDS - 1) 2

structure MapRequest where
  buddyGroupID : Nat
  primaryTargetID : Nat
  secondaryTargetID : Nat
  allowUpdate : Bool
deriving DecidableEq

variable (request : MapRequest)

def checkMapping (mirrorBuddyGroups : MirrorBuddyGroupMap) : FhgfsOpsErr :=
  if request.buddyGroupID ≠ 0 ∧ request.allowUpdate = false ∧
      (mirrorBuddyGroups.find request.buddyGroupID).isSome then .EXISTS
  else if targetMapper.targetExists request.primaryTargetID = false then .UNKNOWNTARGET
  else if targetMapper.targetExists request.secondaryTargetID = false then .UNKNOWNTARGET
  else
    let primaryInGroup := mirrorBuddyGroups.getBuddyGroupID request.primaryTargetID
    let secondaryInGroup := mirrorBuddyGroups.getBuddyGroupID request.secondaryTargetID
    if 0 < primaryInGroup ∧ primaryInGroup ≠ request.buddyGroupID then .INUSE
    else if 0 < secondaryInGroup ∧ secondaryInGroup ≠ request.buddyGroupID then .INUSE
    else .SUCCESS

/-- The ID under which a request is written: a new one for the ID 0. -/
def writtenID (mirrorBuddyGroups : MirrorBuddyGroupMap) : Nat :=
  if request.buddyGroupID = 0 then mirrorBuddyGroups.generateID targetMapper
  else request.buddyGroupID

/-- Add or update the group, under the write lock. -/
def writeMapping (mirrorBuddyGroups : MirrorBuddyGroupMap) : MirrorBuddyGroupMap :=
  mirrorBuddyGroups.put (mirrorBuddyGroups.writtenID targetMapper request)
    ⟨request.primaryTargetID, request.secondaryTargetID⟩

def mapMirrorBuddyGroup
    (mirrorBuddyGroups : MirrorBuddyGroupMap) : FhgfsOpsErr × MirrorBuddyGroupMap :=
  match mirrorBuddyGroups.checkMapping targetMapper request with
  | .SUCCESS => (.SUCCESS, mirrorBuddyGroups.writeMapping targetMapper request)
  | retVal => (retVal, mirrorBuddyGroups)

def unmapMirrorBuddyGroup (buddyGroupID : Nat) (mirrorBuddyGroups : MirrorBuddyGroupMap) :
    Bool × MirrorBuddyGroupMap :=
  ((mirrorBuddyGroups.find buddyGroupID).isSome, mirrorBuddyGroups.remove buddyGroupID)

/-! ## Groups with two members of their own -/

/-- Two different members in each group, and no target in two groups. -/
structure Disjoint (mirrorBuddyGroups : MirrorBuddyGroupMap) : Prop where
  two_members {gid : Nat} {mbg : MirrorBuddyGroup} :
    mirrorBuddyGroups.find gid = some mbg → mbg.firstTargetID ≠ mbg.secondTargetID
  one_group {gid gid' targetID : Nat} {mbg mbg' : MirrorBuddyGroup} :
    mirrorBuddyGroups.find gid = some mbg → mirrorBuddyGroups.find gid' = some mbg' →
      mbg.HasMember targetID → mbg'.HasMember targetID → gid = gid'

theorem Disjoint.switchover {mirrorBuddyGroups : MirrorBuddyGroupMap}
    (h : mirrorBuddyGroups.Disjoint) (gid : Nat) :
    (mirrorBuddyGroups.switchover gid).Disjoint := by
  have hOld : ∀ {gid' mbg'}, (mirrorBuddyGroups.switchover gid).find gid' = some mbg' →
      mirrorBuddyGroups.find gid' = some mbg' ∨ mirrorBuddyGroups.find gid' = some mbg'.swap := by
    intro gid' mbg' hFind
    rw [find_switchover] at hFind
    split_ifs at hFind
    · obtain ⟨mbg, hMbg, rfl⟩ := Option.map_eq_some_iff.mp hFind
      exact Or.inr hMbg
    · exact Or.inl hFind
  refine ⟨?_, ?_⟩
  · intro gid' mbg' hFind
    rcases hOld hFind with hSame | hSwapped
    · exact h.two_members hSame
    · exact (h.two_members hSwapped).symm
  · intro gid₁ gid₂ targetID mbg₁ mbg₂ hFind₁ hFind₂ hMem₁ hMem₂
    rcases hOld hFind₁ with h₁ | h₁ <;> rcases hOld hFind₂ with h₂ | h₂
    · exact h.one_group h₁ h₂ hMem₁ hMem₂
    · exact h.one_group h₁ h₂ hMem₁ (MirrorBuddyGroup.swap_hasMember.mpr hMem₂)
    · exact h.one_group h₁ h₂ (MirrorBuddyGroup.swap_hasMember.mpr hMem₁) hMem₂
    · exact h.one_group h₁ h₂ (MirrorBuddyGroup.swap_hasMember.mpr hMem₁)
        (MirrorBuddyGroup.swap_hasMember.mpr hMem₂)

theorem getBuddyGroupIDUnlocked_cases (targetID : Nat) :
    (∃ gid mbg, mirrorBuddyGroups.find gid = some mbg ∧ mbg.HasMember targetID ∧
      mirrorBuddyGroups.getBuddyGroupIDUnlocked targetID =
        (gid, decide (mbg.firstTargetID = targetID))) ∨
    ((∀ gid mbg, mirrorBuddyGroups.find gid = some mbg → ¬ mbg.HasMember targetID) ∧
      mirrorBuddyGroups.getBuddyGroupIDUnlocked targetID = (0, false)) := by
  unfold getBuddyGroupIDUnlocked
  split
  · rename_i hNone
    refine Or.inr ⟨?_, rfl⟩
    intro gid mbg hFind hMem
    have hNot := List.find?_eq_none.mp hNone (gid, mbg) (OrderedMap.find_eq_some.mp hFind)
    exact hNot (decide_eq_true hMem)
  · rename_i gid mbg hSome
    refine Or.inl ⟨gid, mbg, ?_, ?_, rfl⟩
    · exact OrderedMap.find_eq_some.mpr (List.mem_of_find?_eq_some hSome)
    · simpa using List.find?_some hSome

end MirrorBuddyGroupMap

end Fhgfs.Nodes
