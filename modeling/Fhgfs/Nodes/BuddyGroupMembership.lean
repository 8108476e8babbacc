import Fhgfs.Lib.Run
import Fhgfs.Nodes.MirrorBuddyGroupMapper

/-!
# Concurrent mappings of buddy groups

Mapping requests that are checked and written in two atomic steps, with the steps of other
requests, unmappings and switchovers in between. A written group keeps the mapping in order
exactly if the check would pass for its targets again, the targets differ and the ID is not 0:
the check itself tests neither of the last two, and its answer may be outdated.
-/

namespace Fhgfs.Nodes

open OrderedMap Option
open MirrorBuddyGroupMap (MapRequest)

namespace MirrorBuddyGroupMap

/-- Each mapped group has a nonzero ID and two different members, and no target is in two. -/
structure InOrder (mirrorBuddyGroups : MirrorBuddyGroupMap) : Prop where
  id_ne_zero {gid : Nat} {mbg : MirrorBuddyGroup} : mirrorBuddyGroups.find gid = some mbg → gid ≠ 0
  disjoint : mirrorBuddyGroups.Disjoint

section Lookup

variable {mirrorBuddyGroups : MirrorBuddyGroupMap}

theorem InOrder.empty : InOrder OrderedSet.empty := by
  refine ⟨?_, ?_, ?_⟩
  · intro gid mbg hFind
    cases hFind
  · intro gid mbg hFind
    cases hFind
  · intro gid gid' targetID mbg mbg' hFind
    cases hFind

theorem getBuddyGroupID_eq (mirrorBuddyGroups : MirrorBuddyGroupMap) (targetID : Nat) :
    mirrorBuddyGroups.getBuddyGroupID targetID =
      (mirrorBuddyGroups.getBuddyGroupIDUnlocked targetID).1 := by
  unfold getBuddyGroupID getBuddyGroupIDUnlocked
  generalize mirrorBuddyGroups.elems.find? _ = found
  cases found <;> rfl

section

variable (h : mirrorBuddyGroups.InOrder)
include h

/-- Groups in order answer a lookup by target with "no group" or `gid` exactly if no other
group has the target. -/
theorem InOrder.getBuddyGroupID_iff (targetID gid : Nat) :
    (mirrorBuddyGroups.getBuddyGroupID targetID = 0 ∨
        mirrorBuddyGroups.getBuddyGroupID targetID = gid) ↔
      ∀ gid' mbg, mirrorBuddyGroups.find gid' = some mbg → mbg.HasMember targetID → gid' = gid := by
  rw [getBuddyGroupID_eq]
  rcases mirrorBuddyGroups.getBuddyGroupIDUnlocked_cases targetID with
    ⟨gid₀, mbg₀, hFind₀, hMem₀, hLookup⟩ | ⟨hNone, hLookup⟩
  · rw [hLookup]
    constructor
    · intro hAnswer gid' mbg hFind hMem
      obtain rfl := h.disjoint.one_group hFind hFind₀ hMem hMem₀
      exact hAnswer.resolve_left (h.id_ne_zero hFind₀)
    · intro hAll
      exact Or.inr (hAll gid₀ mbg₀ hFind₀ hMem₀)
  · rw [hLookup]
    refine iff_of_true (Or.inl rfl) ?_
    intro gid' mbg hFind hMem
    exact absurd hMem (hNone gid' mbg hFind)

theorem InOrder.unmap (gid : Nat) : (mirrorBuddyGroups.unmapMirrorBuddyGroup gid).2.InOrder := by
  have hOld : ∀ {gid' mbg}, (mirrorBuddyGroups.remove gid).find gid' = some mbg →
      mirrorBuddyGroups.find gid' = some mbg := by
    intro gid' mbg hFind
    rw [find_remove] at hFind
    split_ifs at hFind
    exact hFind
  refine ⟨?_, ?_, ?_⟩
  · intro gid' mbg hFind
    exact h.id_ne_zero (hOld hFind)
  · intro gid' mbg hFind
    exact h.disjoint.two_members (hOld hFind)
  · intro gid₁ gid₂ targetID mbg₁ mbg₂ hFind₁ hFind₂
    exact h.disjoint.one_group (hOld hFind₁) (hOld hFind₂)

theorem InOrder.switchover (gid : Nat) : (mirrorBuddyGroups.switchover gid).InOrder := by
  refine ⟨?_, h.disjoint.switchover gid⟩
  intro gid' mbg hFind
  rw [find_switchover] at hFind
  split_ifs at hFind
  · obtain ⟨mbg₀, hFind₀, -⟩ := map_eq_some_iff.mp hFind
    exact h.id_ne_zero hFind₀
  · exact h.id_ne_zero hFind

end

/-- A target is free for the group `gid`: no other group has it. -/
def FreeFor (mirrorBuddyGroups : MirrorBuddyGroupMap) (targetID gid : Nat) : Prop :=
  mirrorBuddyGroups.getBuddyGroupID targetID = 0 ∨ mirrorBuddyGroups.getBuddyGroupID targetID = gid

/-- What a write of a group needs. -/
structure Writable (mirrorBuddyGroups : MirrorBuddyGroupMap) (gid : Nat)
    (mbg : MirrorBuddyGroup) : Prop where
  id_ne_zero : gid ≠ 0
  two_members : mbg.firstTargetID ≠ mbg.secondTargetID
  first_free : mirrorBuddyGroups.FreeFor mbg.firstTargetID gid
  second_free : mirrorBuddyGroups.FreeFor mbg.secondTargetID gid

theorem InOrder.put_iff (h : mirrorBuddyGroups.InOrder) (gid : Nat) (mbg : MirrorBuddyGroup) :
    InOrder (mirrorBuddyGroups.put gid mbg) ↔ mirrorBuddyGroups.Writable gid mbg := by
  have hHere : (mirrorBuddyGroups.put gid mbg).find gid = some mbg :=
    find_put_self mirrorBuddyGroups gid mbg
  constructor
  · intro hAfter
    have hFree : ∀ t, mbg.HasMember t → mirrorBuddyGroups.FreeFor t gid := by
      intro t hMem
      refine (h.getBuddyGroupID_iff t gid).mpr ?_
      intro gid' mbg' hFind hMem'
      by_contra hOther
      have hFind' : (mirrorBuddyGroups.put gid mbg).find gid' = some mbg' := by
        rw [find_put_of_ne mirrorBuddyGroups mbg hOther, hFind]
      exact hOther (hAfter.disjoint.one_group hFind' hHere hMem' hMem)
    exact ⟨hAfter.id_ne_zero hHere, hAfter.disjoint.two_members hHere, hFree _ (Or.inl rfl),
      hFree _ (Or.inr rfl)⟩
  · intro hWritable
    -- no other group has a member of the written one
    have hOnly : ∀ {gid' t mbg'}, mirrorBuddyGroups.find gid' = some mbg' →
        mbg'.HasMember t → mbg.HasMember t → gid' = gid := by
      intro gid' t mbg' hFind hMem' hMem
      rcases hMem with rfl | rfl
      · exact (h.getBuddyGroupID_iff _ gid).mp hWritable.first_free gid' mbg' hFind hMem'
      · exact (h.getBuddyGroupID_iff _ gid).mp hWritable.second_free gid' mbg' hFind hMem'
    have hCases : ∀ {gid' mbg'}, (mirrorBuddyGroups.put gid mbg).find gid' = some mbg' →
        gid' = gid ∧ mbg' = mbg ∨ gid' ≠ gid ∧ mirrorBuddyGroups.find gid' = some mbg' := by
      intro gid' mbg' hFind
      rw [find_put] at hFind
      split_ifs at hFind with hSame
      · exact Or.inl ⟨hSame, (some.inj hFind).symm⟩
      · exact Or.inr ⟨hSame, hFind⟩
    refine ⟨?_, ?_, ?_⟩
    · intro gid' mbg' hFind
      rcases hCases hFind with ⟨rfl, -⟩ | ⟨-, hOld⟩
      · exact hWritable.id_ne_zero
      · exact h.id_ne_zero hOld
    · intro gid' mbg' hFind
      rcases hCases hFind with ⟨-, rfl⟩ | ⟨-, hOld⟩
      · exact hWritable.two_members
      · exact h.disjoint.two_members hOld
    · intro gid₁ gid₂ t mbg₁ mbg₂ hFind₁ hFind₂ hMem₁ hMem₂
      rcases hCases hFind₁ with ⟨hSame₁, rfl⟩ | ⟨-, hOld₁⟩
      · rcases hCases hFind₂ with ⟨hSame₂, -⟩ | ⟨-, hOld₂⟩
        · rw [hSame₁, hSame₂]
        · rw [hSame₁, hOnly hOld₂ hMem₂ hMem₁]
      · rcases hCases hFind₂ with ⟨hSame₂, rfl⟩ | ⟨-, hOld₂⟩
        · rw [hSame₂, hOnly hOld₁ hMem₁ hMem₂]
        · exact h.disjoint.one_group hOld₁ hOld₂ hMem₁ hMem₂

theorem freeFor_of_checkMapping {targetMapper : TargetMapper} {request : MapRequest}
    (hCheck : mirrorBuddyGroups.checkMapping targetMapper request = .SUCCESS) :
    mirrorBuddyGroups.FreeFor request.primaryTargetID request.buddyGroupID ∧
      mirrorBuddyGroups.FreeFor request.secondaryTargetID request.buddyGroupID := by
  unfold checkMapping at hCheck
  dsimp only at hCheck
  split_ifs at hCheck with _ _ _ hPrimary hSecondary
  unfold FreeFor
  omega

/-- A call that no other one interrupts keeps the groups in order, if the targets differ and a
new ID can be found. -/
theorem InOrder.mapMirrorBuddyGroup (h : mirrorBuddyGroups.InOrder)
    (targetMapper : TargetMapper) (request : MapRequest)
    (hTwo : request.primaryTargetID ≠ request.secondaryTargetID)
    (hID : mirrorBuddyGroups.writtenID targetMapper request ≠ 0) :
    (mirrorBuddyGroups.mapMirrorBuddyGroup targetMapper request).2.InOrder := by
  unfold MirrorBuddyGroupMap.mapMirrorBuddyGroup
  split
  · rename_i hCheck
    obtain ⟨hFirst, hSecond⟩ := freeFor_of_checkMapping hCheck
    have hWritten : ∀ t, mirrorBuddyGroups.FreeFor t request.buddyGroupID →
        mirrorBuddyGroups.FreeFor t (mirrorBuddyGroups.writtenID targetMapper request) := by
      intro t hFree
      unfold FreeFor writtenID at *
      split_ifs <;> omega
    exact (h.put_iff _ _).mpr ⟨hID, hTwo, hWritten _ hFirst, hWritten _ hSecond⟩
  · exact h

end Lookup

end MirrorBuddyGroupMap

/-! ## Interleaved calls -/

/-- The groups and the calls that passed their check and have not written yet. -/
structure MapperCalls where
  mirrorBuddyGroups : MirrorBuddyGroupMap
  checked : List MapRequest
deriving DecidableEq

/-- A step of some call. A target can be mapped to another node between two steps. -/
inductive MapperStep
  | check (targetMapper : TargetMapper) (request : MapRequest)
  | write (targetMapper : TargetMapper) (call : Nat)
  | unmap (buddyGroupID : Nat)
  | switchover (buddyGroupID : Nat)

namespace MapperCalls

def init : MapperCalls := ⟨OrderedSet.empty, []⟩

def step (s : MapperCalls) : MapperStep → MapperCalls
  | .check targetMapper request =>
    match s.mirrorBuddyGroups.checkMapping targetMapper request with
    | .SUCCESS => { s with checked := s.checked ++ [request] }
    | _ => s
  | .write targetMapper call =>
    match s.checked[call]? with
    | none => s
    | some request =>
      ⟨s.mirrorBuddyGroups.writeMapping targetMapper request, s.checked.eraseIdx call⟩
  | .unmap buddyGroupID =>
    { s with
      mirrorBuddyGroups := (s.mirrorBuddyGroups.unmapMirrorBuddyGroup buddyGroupID).2 }
  | .switchover buddyGroupID =>
    { s with mirrorBuddyGroups := s.mirrorBuddyGroups.switchover buddyGroupID }

/-- A write finds the targets still free for the written ID, which is not 0, and the targets
differ. -/
def KeepsOrder (s : MapperCalls) : MapperStep → Prop
  | .write targetMapper call =>
    ∀ request, s.checked[call]? = some request →
      s.mirrorBuddyGroups.Writable (s.mirrorBuddyGroups.writtenID targetMapper request)
        ⟨request.primaryTargetID, request.secondaryTargetID⟩
  | _ => True

theorem inOrder_step_iff {s : MapperCalls} (h : s.mirrorBuddyGroups.InOrder)
    (i : MapperStep) : (s.step i).mirrorBuddyGroups.InOrder ↔ s.KeepsOrder i := by
  cases i with
  | check targetMapper request =>
    refine iff_of_true ?_ trivial
    unfold step
    dsimp only
    split
    · exact h
    · exact h
  | write targetMapper call =>
    unfold step KeepsOrder
    dsimp only
    cases hCall : s.checked[call]? with
    | none => simpa using h
    | some request =>
      simp only [some.injEq, forall_eq']
      exact h.put_iff _ _
  | unmap buddyGroupID => exact iff_of_true (h.unmap buddyGroupID) trivial
  | switchover buddyGroupID => exact iff_of_true (h.switchover buddyGroupID) trivial

/-- Over every interleaving from the empty map, the groups stay in order exactly if every write
finds its targets free. -/
theorem inOrder_throughout_iff (steps : List MapperStep) :
    Run.Throughout step (fun s => s.mirrorBuddyGroups.InOrder) init steps ↔
      Run.EveryStep step KeepsOrder init steps := by
  refine Run.throughout_iff_everyStep step (J := fun s => s.mirrorBuddyGroups.InOrder)
    (A := fun _ _ => True) ?_ ?_ ?_ MirrorBuddyGroupMap.InOrder.empty
    (Run.everyStep_of_forall step fun _ _ _ => trivial)
  · intro s h
    exact h
  · intro s i h _ hKeeps
    exact (inOrder_step_iff h i).mpr hKeeps
  · intro s i h _ hKeeps hAfter
    exact hKeeps ((inOrder_step_iff h i).mp hAfter)

def NonzeroTargets : MapperStep → Prop
  | .check _ request => request.primaryTargetID ≠ 0 ∧ request.secondaryTargetID ≠ 0
  | _ => True

def threeTargets : TargetMapper :=
  OrderedMap.put (OrderedMap.put (OrderedMap.put OrderedSet.empty 5 1) 6 1) 7 1

/-- A second group, and a request for a third one with a target of the second. -/
theorem mapMirrorBuddyGroup_second :
    let map := MirrorBuddyGroupMap.mapMirrorBuddyGroup (OrderedMap.put threeTargets 8 1)
    (map ⟨0, 8, 9, false⟩
      (map ⟨0, 7, 8, false⟩ (map ⟨0, 5, 6, false⟩ OrderedSet.empty).2).2).2.InOrder :=
  ((MirrorBuddyGroupMap.InOrder.empty.mapMirrorBuddyGroup _ _ (by decide)
    (by decide)).mapMirrorBuddyGroup _ _ (by decide) (by decide)).mapMirrorBuddyGroup _ _
      (by decide) (by decide)

/-- Two requests that share the target 5, both checked before the first one is written. -/
theorem not_inOrder_throughout :
    ¬ ∀ steps, (∀ i ∈ steps, NonzeroTargets i) →
      Run.Throughout step (fun s => s.mirrorBuddyGroups.InOrder) init steps := by
  intro hAll
  have hRun := hAll [.check threeTargets ⟨1, 5, 6, false⟩, .check threeTargets ⟨2, 5, 7, false⟩,
    .write threeTargets 0, .write threeTargets 0] (by simp [NonzeroTargets])
  rw [Run.throughout_iff] at hRun
  have hFive : MirrorBuddyGroup.HasMember ⟨5, 6⟩ 5 := Or.inl rfl
  have hFive' : MirrorBuddyGroup.HasMember ⟨5, 7⟩ 5 := Or.inl rfl
  have hSame : 1 = 2 := (hRun 4).disjoint.one_group (by decide) (by decide) hFive hFive'
  exact absurd hSame (by decide)

end MapperCalls

end Fhgfs.Nodes
