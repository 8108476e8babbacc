import Fhgfs.Lib.Run
import Fhgfs.Nodes.TargetStateLoops
import Fhgfs.Targets.StorageTargets

/-!
# The consistency states over a run

What `decideResync` does to one target, and from it what a run of decisions, other changes and
publications does: which steps leave NEEDS_RESYNC and BAD, and what the management daemon holds
after it accepted the changes.
-/

namespace Fhgfs.Targets

open OrderedMap Option TargetOfflineWait List Run
open Nodes (CombinedTargetState MgmtdTargetStateStore MirrorBuddyGroup MirrorBuddyGroupMap
  TargetConsistencyState TargetReachabilityState Time)
open Nodes.TargetConsistencyState (GOOD NEEDS_RESYNC BAD)
open Nodes.MgmtdTargetStateStore (StateChange)

namespace StorageTargets

/-! ## One target -/

theorem decideState_ne_good {targetData : StorageTargetData} {hasTimeout : Bool}
    {newState : CombinedTargetState}
    (h : targetData.cleanShutdown = false ∨ targetData.consistencyState = NEEDS_RESYNC ∨
      newState.consistencyState = NEEDS_RESYNC ∨ newState.consistencyState = BAD) :
    decideState targetData hasTimeout newState = NEEDS_RESYNC := by
  unfold decideState
  dsimp only
  split_ifs with hTimeout hOld hDirty hOffline
  · rfl
  · rfl
  · rfl
  · tauto
  · tauto

/-- What the loop sees and changes of one target. -/
structure LoopView where
  targetBuddyGroupMap : OrderedMap Nat Nat
  targetData : Option StorageTargetData
  change : Option CombinedTargetState

variable (loop : StorageTargets × TargetStateMap)

def loopView (targetID : Nat) : LoopView :=
  ⟨loop.1.targetBuddyGroupMap, loop.1.storageTargetDataMap.find targetID, loop.2.find targetID⟩

/-- A new state of the target, which is also a change. -/
def LoopView.set (v : LoopView) (consistencyState : TargetConsistencyState) : LoopView :=
  { v with
    targetData := some ⟨consistencyState, true⟩
    change := some (v.change.getD ⟨.ONLINE, consistencyState⟩) }

/-- What `decideResync` does to one target. -/
inductive Decided (statesFromMgmtd : TargetStateMap) (mirrorBuddyGroups : MirrorBuddyGroupMap)
    (targetID : Nat) (v : LoopView) : LoopView → Prop
  | unknown (h : v.targetData = none ∨ statesFromMgmtd.find targetID = none) :
    Decided statesFromMgmtd mirrorBuddyGroups targetID v v
  | unmapped {targetData : StorageTargetData} (hData : v.targetData = some targetData)
    (hUnmapped : localBuddyState v.targetBuddyGroupMap mirrorBuddyGroups targetID = .UNMAPPED) :
    Decided statesFromMgmtd mirrorBuddyGroups targetID v (v.set GOOD)
  | bad {targetData : StorageTargetData} (hData : v.targetData = some targetData)
    (hBad : targetData.consistencyState = BAD) :
    Decided statesFromMgmtd mirrorBuddyGroups targetID v v
  | mapped {targetData : StorageTargetData} {newState : CombinedTargetState} (hasTimeout : Bool)
    (hData : v.targetData = some targetData) (hNotBad : targetData.consistencyState ≠ BAD)
    (hNew : statesFromMgmtd.find targetID = some newState) :
    Decided statesFromMgmtd mirrorBuddyGroups targetID v
      (v.set (decideState targetData hasTimeout newState))

variable {statesFromMgmtd : TargetStateMap} {mirrorBuddyGroups : MirrorBuddyGroupMap}
  {anyTargetHasTimeout : Bool} {now : Nat → Time}

theorem decideTarget_here (targetID : Nat) :
    Decided statesFromMgmtd mirrorBuddyGroups targetID (loopView loop targetID)
      (loopView (decideTarget statesFromMgmtd mirrorBuddyGroups anyTargetHasTimeout now loop
        targetID) targetID) := by
  obtain ⟨s, changes⟩ := loop
  unfold decideTarget
  dsimp only
  cases hData : s.storageTargetDataMap.find targetID with
  | none => exact .unknown (.inl hData)
  | some targetData =>
    cases hNew : statesFromMgmtd.find targetID with
    | none => exact .unknown (.inr hNew)
    | some newState =>
      dsimp only
      split_ifs with hUnmapped hBad
      · have hSet : Decided statesFromMgmtd mirrorBuddyGroups targetID
            (loopView (s, changes) targetID) _ := .unmapped hData hUnmapped
        simpa only [LoopView.set, loopView, setData, find_put_self, find_insert, if_true] using hSet
      · exact .bad hData hBad
      rcases hTimeout : s.targetOfflineWait.checkTimeout anyTargetHasTimeout (now targetID)
        targetID with ⟨hasTimeout, wait⟩
      have hSet : Decided statesFromMgmtd mirrorBuddyGroups targetID
          (loopView (s, changes) targetID) _ := .mapped hasTimeout hData hBad hNew
      simpa only [LoopView.set, loopView, setData, find_put_self, find_insert, if_true] using hSet

theorem decideTarget_frame {targetID other : Nat} (h : other ≠ targetID) :
    loopView (decideTarget statesFromMgmtd mirrorBuddyGroups anyTargetHasTimeout now loop
      targetID) other = loopView loop other := by
  obtain ⟨s, changes⟩ := loop
  unfold decideTarget
  dsimp only
  split
  · split_ifs
    · simp only [loopView, setData, find_put_of_ne _ _ h, find_insert, if_neg h]
    · rfl
    · simp only [loopView, setData, find_put_of_ne _ _ h, find_insert, if_neg h]
  · rfl

theorem decideResync_spec (s : StorageTargets) (statesFromMgmtd : TargetStateMap)
    (mirrorBuddyGroups : MirrorBuddyGroupMap) (now : Nat → Time) (targetID : Nat) :
    Decided statesFromMgmtd mirrorBuddyGroups targetID (loopView (s, OrderedSet.empty) targetID)
      (loopView (s.decideResync statesFromMgmtd mirrorBuddyGroups now) targetID) := by
  have hHere (loop : StorageTargets × TargetStateMap) (targetID : Nat) :
      Decided statesFromMgmtd mirrorBuddyGroups targetID (loopView loop targetID)
        (loopView (decideTarget statesFromMgmtd mirrorBuddyGroups
          s.targetOfflineWait.anyTargetHasTimeout now loop targetID) targetID) :=
    decideTarget_here loop targetID
  obtain ⟨hIn, hOut⟩ := Run.after_component hHere (fun _ _ _ h => decideTarget_frame _ h)
    (OrderedMap.nodup_keys s.storageTargetDataMap) (s, OrderedSet.empty) targetID
  by_cases hLocal : targetID ∈ s.storageTargetDataMap.elems.map Prod.fst
  · exact hIn hLocal
  have hNone : s.storageTargetDataMap.find targetID = none := by
    rw [OrderedMap.mem_keys, not_exists] at hLocal
    exact eq_none_iff_forall_ne_some.mpr hLocal
  have hSame := hOut hLocal
  unfold Run.after at hSame
  unfold decideResync
  rw [hSame]
  exact .unknown (.inl hNone)

end StorageTargets

namespace TargetStateSync

open StorageTargets (Decided LoopView loopView decideState decideState_ne_good decideResync_spec)

variable {s : TargetStateSync} {targetID : Nat}

/-! ## One step -/

theorem dataOf_setState {other : Nat} (h : other ≠ targetID) (state : TargetConsistencyState)
    (now : Time) (delivery : Delivery) (mgmtdNow : Time) :
    (s.setState other state now delivery mgmtdNow).dataOf targetID = s.dataOf targetID := by
  unfold setState
  split
  · rfl
  have hPut := find_put_of_ne s.storageTargets.storageTargetDataMap
    { ‹StorageTargetData› with consistencyState := state } (Ne.symm h)
  split_ifs
  · exact hPut
  · exact hPut

theorem dataOf_publish (now : Nat → Time) (delivery : Delivery) (mgmtdNow : Time) :
    (s.publishLocalTargetStateChanges now delivery mgmtdNow).2.dataOf targetID =
      s.dataOf targetID := by
  cases delivery <;> rfl

/-- Whether the target belongs to a buddy group when its state is decided. -/
def MappedIn (s : TargetStateSync) (mirrorBuddyGroups : MirrorBuddyGroupMap) (targetID : Nat) :
    Prop :=
  localBuddyState s.storageTargets.targetBuddyGroupMap mirrorBuddyGroups targetID ≠ .UNMAPPED

theorem decideResync_cases (report : List ReportedState)
    {mirrorBuddyGroups : MirrorBuddyGroupMap} (now : Nat → Time)
    (hMapped : s.MappedIn mirrorBuddyGroups targetID) :
    (s.decideResync report mirrorBuddyGroups now).dataOf targetID = s.dataOf targetID ∧
      (s.dataOf targetID = none ∨ (fillTargetStateMap report).find targetID = none ∨
        s.consistencyOf targetID = some BAD) ∨
    ∃ targetData newState hasTimeout, s.dataOf targetID = some targetData ∧
      targetData.consistencyState ≠ BAD ∧
      (fillTargetStateMap report).find targetID = some newState ∧
      (s.decideResync report mirrorBuddyGroups now).dataOf targetID =
        some ⟨decideState targetData hasTimeout newState, true⟩ ∧
      (s.storageTargets.decideResync (fillTargetStateMap report) mirrorBuddyGroups now).2.find
        targetID = some ⟨.ONLINE, decideState targetData hasTimeout newState⟩ := by
  have hDecided := decideResync_spec s.storageTargets (fillTargetStateMap report)
    mirrorBuddyGroups now targetID
  have hAfter : (s.decideResync report mirrorBuddyGroups now).dataOf targetID =
      (loopView (s.storageTargets.decideResync (fillTargetStateMap report) mirrorBuddyGroups now)
        targetID).targetData := rfl
  have hChange : (s.storageTargets.decideResync (fillTargetStateMap report) mirrorBuddyGroups
      now).2.find targetID = (loopView (s.storageTargets.decideResync
        (fillTargetStateMap report) mirrorBuddyGroups now) targetID).change := rfl
  rw [hAfter, hChange]
  generalize loopView (s.storageTargets.decideResync (fillTargetStateMap report)
    mirrorBuddyGroups now) targetID = v' at hDecided ⊢
  cases hDecided with
  | unknown h => exact .inl ⟨rfl, or_assoc.mp (.inl h)⟩
  | unmapped hData hUnmapped => exact absurd hUnmapped hMapped
  | bad hData hBad =>
    refine .inl ⟨rfl, .inr (.inr ?_)⟩
    have hHere : s.dataOf targetID = some _ := hData
    rw [consistencyOf, hHere, map_some, hBad]
  | mapped hasTimeout hData hNotBad hNew =>
    exact .inr ⟨_, _, hasTimeout, hData, hNotBad, hNew, rfl, rfl⟩

/-- A step that neither sets the state of the target nor finds it unmapped. -/
def Undisturbed (targetID : Nat) (s : TargetStateSync) : SyncOp → Prop
  | .setState other _ _ _ _ => other ≠ targetID
  | .decideResync _ mirrorBuddyGroups _ => s.MappedIn mirrorBuddyGroups targetID
  | _ => True

variable {op : SyncOp}

theorem dataOf_step (h : Undisturbed targetID s op) :
    (s.step op).dataOf targetID = s.dataOf targetID ∨
      ∃ targetData newState hasTimeout, s.dataOf targetID = some targetData ∧
        targetData.consistencyState ≠ BAD ∧
        (s.step op).dataOf targetID = some ⟨decideState targetData hasTimeout newState, true⟩ := by
  cases op with
  | setState other state now delivery mgmtdNow => exact .inl (dataOf_setState h _ _ _ _)
  | syncBuddyGroupMap buddyGroups => exact .inl rfl
  | decideResync report mirrorBuddyGroups now =>
    rcases decideResync_cases report now h with
      ⟨hSame, -⟩ | ⟨targetData, newState, hasTimeout, hData, hNotBad, -, hAfter, -⟩
    · exact .inl hSame
    · exact .inr ⟨targetData, newState, hasTimeout, hData, hNotBad, hAfter⟩
  | publishLocalTargetStateChanges now delivery mgmtdNow =>
    exact .inl (dataOf_publish now delivery mgmtdNow)
  | mgmtdChanges mgmtd => exact .inl rfl

variable {state : TargetConsistencyState}

theorem consistencyOf_step (h : Undisturbed targetID s op)
    (hState : state = NEEDS_RESYNC ∨ state = BAD)
    (hBefore : s.consistencyOf targetID = some state) :
    (s.step op).consistencyOf targetID = some state := by
  unfold consistencyOf at hBefore ⊢
  rcases dataOf_step h with hSame | ⟨targetData, newState, hasTimeout, hData, hNotBad, hAfter⟩
  · rw [hSame, hBefore]
  rw [hData, map_some] at hBefore
  have hHere := some.inj hBefore
  rcases hState with rfl | rfl
  · rw [hAfter, decideState_ne_good (.inr (.inl hHere)), map_some]
  · exact absurd hHere hNotBad

/-- A target that was not cleanly shut down, until something else says that it is GOOD. -/
def Unclean (targetID : Nat) (s : TargetStateSync) : Prop :=
  ∃ targetData, s.dataOf targetID = some targetData ∧
    (targetData.cleanShutdown = false ∨ targetData.consistencyState = NEEDS_RESYNC ∨
      targetData.consistencyState = BAD)

theorem unclean_step (h : Undisturbed targetID s op)
    (hUnclean : Unclean targetID s) : Unclean targetID (s.step op) := by
  obtain ⟨targetData, hData, hState⟩ := hUnclean
  rcases dataOf_step h with hSame | ⟨targetData', newState, hasTimeout, hData', hNotBad, hAfter⟩
  · exact ⟨targetData, hSame.trans hData, hState⟩
  obtain rfl : targetData' = targetData := some.inj (hData'.symm.trans hData)
  refine ⟨_, hAfter, .inr (.inl ?_)⟩
  rcases hState with hDirty | hResync | hBad
  · exact decideState_ne_good (.inl hDirty)
  · exact decideState_ne_good (.inr (.inl hResync))
  · exact absurd hBad hNotBad

/-- A decision on a reported local target that leaves it GOOD. -/
def SetsGood (targetID : Nat) (s : TargetStateSync) : SyncOp → Prop
  | .decideResync report mirrorBuddyGroups now =>
    (fillTargetStateMap report).find targetID ≠ none ∧
      (s.decideResync report mirrorBuddyGroups now).consistencyOf targetID = some GOOD
  | _ => False

/-- A target that is mapped in a decision, and was not cleanly shut down or is reported as
NEEDS_RESYNC or BAD. -/
def Suspect (targetID : Nat) (s : TargetStateSync) : SyncOp → Prop
  | .decideResync report mirrorBuddyGroups _ =>
    s.MappedIn mirrorBuddyGroups targetID ∧
      (Unclean targetID s ∨ ∃ newState,
        (fillTargetStateMap report).find targetID = some newState ∧
        (newState.consistencyState = NEEDS_RESYNC ∨ newState.consistencyState = BAD))
  | _ => False

theorem not_setsGood_of_suspect (h : Suspect targetID s op) : ¬ SetsGood targetID s op := by
  cases op with
  | decideResync report mirrorBuddyGroups now =>
    obtain ⟨hMapped, hSuspect⟩ := h
    rintro ⟨hReported, hGood⟩
    rcases decideResync_cases report now hMapped with
      ⟨hSame, hNone | hNone | hBad⟩ |
      ⟨targetData, newState, hasTimeout, hData, hNotBad, hNew, hAfter, -⟩
    · rw [consistencyOf, hSame, hNone] at hGood
      cases hGood
    · exact hReported hNone
    · rw [consistencyOf, hSame, ← consistencyOf, hBad] at hGood
      exact absurd (some.inj hGood) (by decide)
    have hResync : decideState targetData hasTimeout newState = NEEDS_RESYNC := by
      rcases hSuspect with ⟨targetData', hData', hState⟩ | ⟨newState', hNew', hState⟩
      · obtain rfl : targetData' = targetData := some.inj (hData'.symm.trans hData)
        rcases hState with hDirty | hResync | hBad
        · exact decideState_ne_good (.inl hDirty)
        · exact decideState_ne_good (.inr (.inl hResync))
        · exact absurd hBad hNotBad
      · obtain rfl : newState' = newState := some.inj (hNew'.symm.trans hNew)
        exact decideState_ne_good (.inr (.inr hState))
    rw [consistencyOf, hAfter, hResync] at hGood
    exact absurd (some.inj hGood) (by decide)
  | _ => exact h.elim

theorem not_setsGood_of_unclean (hUnclean : Unclean targetID s)
    (h : Undisturbed targetID s op) : ¬ SetsGood targetID s op := by
  cases op with
  | decideResync report mirrorBuddyGroups now =>
    have hSuspect : Suspect targetID s (.decideResync report mirrorBuddyGroups now) :=
      ⟨h, .inl hUnclean⟩
    exact not_setsGood_of_suspect hSuspect
  | _ => exact id

/-! ## Publication -/

theorem targetHasTimeout_fst (wait : TargetOfflineWait) (now : Time) (targetID : Nat) :
    (wait.targetHasTimeout now targetID).1 = (wait.targetTimerMap.find targetID).any fun start =>
      decide (now.elapsedSinceMS start < wait.waitTimeoutMS) := by
  unfold targetHasTimeout
  cases wait.targetTimerMap.find targetID with
  | none => rfl
  | some start =>
    dsimp only
    rw [any_some]
    split_ifs with hActive
    · exact (decide_eq_true hActive).symm
    · exact (decide_eq_false hActive).symm

theorem checkTimeout_checkTimeout {wait : TargetOfflineWait} {any : Bool} {now : Time}
    (now' : Time) (other : Nat) (h : (wait.checkTimeout any now targetID).1 = false) :
    ((wait.checkTimeout any now' other).2.checkTimeout any now targetID).1 = false := by
  unfold checkTimeout at h ⊢
  split_ifs at h ⊢ with hAny
  · rw [targetHasTimeout_fst] at h ⊢
    unfold targetHasTimeout
    split
    · exact h
    split_ifs
    · exact h
    dsimp only
    rw [find_remove]
    split_ifs
    · rfl
    · exact h
  · rfl

open Nodes.MgmtdTargetStateStore (reportsOf reportsOf_cons)

theorem reportsOf_localStateChanges {storage : StorageTargets} {any : Bool} {now : Nat → Time}
    (hLocal : storage.isLocalTarget targetID = true) {wait : TargetOfflineWait}
    (hTimeout : (wait.checkTimeout any (now targetID) targetID).1 = false)
    (changes : List StateChange) :
    reportsOf StateChange.report (storage.localStateChanges any now changes wait).1 targetID =
      reportsOf StateChange.report changes targetID := by
  induction changes generalizing wait with
  | nil => rfl
  | cons change changes ih =>
    have hNext := ih (checkTimeout_checkTimeout (now change.targetID) change.targetID hTimeout)
    unfold StorageTargets.localStateChanges
    rw [reportsOf_cons]
    by_cases hHere : change.targetID = targetID
    · have hReport : (StateChange.report change).1 = targetID := hHere
      rw [if_pos hReport, hHere, if_pos hLocal]
      rw [hHere] at hNext
      dsimp only
      rw [hTimeout, if_neg Bool.false_ne_true, reportsOf_cons, if_pos hReport, hNext]
    have hReport : (StateChange.report change).1 ≠ targetID := hHere
    rw [if_neg hReport]
    split_ifs with hOther
    · dsimp only
      split_ifs with hWait
      · exact hNext
      · rw [reportsOf_cons, if_neg hReport, hNext]
    · exact ih hTimeout

theorem stateChanges_map (changes : List StateChange) :
    MgmtdTargetStateStore.stateChanges (changes.map StateChange.targetID)
      (changes.map StateChange.oldState) (changes.map StateChange.newState) = changes := by
  induction changes with
  | nil => rfl
  | cons change changes ih =>
    unfold MgmtdTargetStateStore.stateChanges at ih ⊢
    simp only [map_cons, zip_cons_cons, zipWith_cons_cons, ih]

variable {mgmtdNow : Time}

theorem consistencyOf_accepted {mgmtd mgmtd' : MgmtdTargetStateStore} {changes : List StateChange}
    (h : mgmtd.changeConsistencyStatesFromLists (changes.map StateChange.targetID)
      (changes.map StateChange.oldState) (changes.map StateChange.newState) mgmtdNow =
      (.SUCCESS, mgmtd'))
    (hState : (reportsOf StateChange.report changes targetID).getLast? = some state) :
    mgmtd'.consistencyOf targetID = some state := by
  unfold MgmtdTargetStateStore.changeConsistencyStatesFromLists at h
  rw [stateChanges_map] at h
  rcases hCheck : MgmtdTargetStateStore.checkOldStates mgmtdNow changes mgmtd with ⟨res, checked⟩
  simp only [hCheck] at h
  split at h
  next hSuccess =>
    obtain ⟨-, rfl⟩ := Prod.mk.inj h
    rw [MgmtdTargetStateStore.consistencyOf_applyStateChanges, hState, some_or]
  next hFailed _ => exact absurd (Prod.mk.inj h).1 hFailed

theorem decideResync_changes (report : List ReportedState)
    (mirrorBuddyGroups : MirrorBuddyGroupMap) (now : Nat → Time) :
    (s.decideResync report mirrorBuddyGroups now).changes = report.map fun entry =>
      ⟨entry.targetID, entry.consistencyState,
        (((s.storageTargets.decideResync (fillTargetStateMap report) mirrorBuddyGroups
          now).2.find entry.targetID).map CombinedTargetState.consistencyState).getD
            entry.consistencyState⟩ := by
  unfold decideResync updateTargetStateLists
  dsimp only
  rw [zipWith_map_right, zipWith_self]
  refine map_congr_left fun entry _ => ?_
  cases (s.storageTargets.decideResync (fillTargetStateMap report) mirrorBuddyGroups now).2.find
    entry.targetID <;> rfl

variable {report : List ReportedState}

theorem exists_entry_of_find (h : (fillTargetStateMap report).find targetID ≠ none) :
    ∃ entry ∈ report, entry.targetID = targetID := by
  obtain ⟨state, hState⟩ := ne_none_iff_exists'.mp h
  have hIn := find_eq_some.mp hState
  have hMap : fillTargetStateMap report = (report.map fun entry => (entry.targetID,
      CombinedTargetState.mk entry.reachabilityState entry.consistencyState)).foldl
        OrderedSet.insert OrderedSet.empty := by
    rw [foldl_map]
    rfl
  rw [hMap] at hIn
  rcases OrderedSet.mem_foldl_insert hIn with hEmpty | hEntry
  · exact absurd hEmpty (OrderedSet.not_mem_empty _)
  · obtain ⟨entry, hEntry, hSame⟩ := mem_map.mp hEntry
    exact ⟨entry, hEntry, congrArg Prod.fst hSame⟩

/-- All that waits to be published for a target after a decision that changed it is its new
state. -/
theorem reportsOf_decideResync
    {mirrorBuddyGroups : MirrorBuddyGroupMap} {now : Nat → Time} {state : CombinedTargetState}
    (hReported : (fillTargetStateMap report).find targetID ≠ none)
    (hChange : (s.storageTargets.decideResync (fillTargetStateMap report) mirrorBuddyGroups
      now).2.find targetID = some state) :
    (reportsOf StateChange.report (s.decideResync report mirrorBuddyGroups now).changes
      targetID).getLast? = some state.consistencyState := by
  rw [decideResync_changes]
  have hAll : ∀ c ∈ reportsOf StateChange.report (s.decideResync report mirrorBuddyGroups
      now).changes targetID, c = state.consistencyState := by
    intro c hc
    rw [decideResync_changes] at hc
    obtain ⟨change, hIn, hReport⟩ := mem_filterMap.mp hc
    obtain ⟨entry, -, rfl⟩ := mem_map.mp hIn
    split_ifs at hReport with hHere
    have hHere : entry.targetID = targetID := hHere
    rw [← some.inj hReport]
    simp only [StateChange.report, hHere, hChange, map_some, getD_some]
  rw [decideResync_changes] at hAll
  cases hLast : (reportsOf StateChange.report (report.map fun entry => StateChange.mk
      entry.targetID entry.consistencyState _) targetID).getLast? with
  | none =>
    obtain ⟨entry, hIn, hEntry⟩ := exists_entry_of_find hReported
    have hNone := filterMap_eq_nil_iff.mp (getLast?_eq_none_iff.mp hLast) _
      (mem_map.mpr ⟨entry, hIn, rfl⟩)
    exact absurd hNone (by simp [StateChange.report, hEntry])
  | some c => rw [hAll c (mem_of_getLast? hLast)]

/-! ## Runs -/

/-- A step that is no decision keeps the changes that wait to be published. -/
def NoDecision : SyncOp → Prop
  | .decideResync _ _ _ => False
  | _ => True

theorem changes_setState (other : Nat) (state : TargetConsistencyState) (now : Time)
    (delivery : Delivery) (mgmtdNow : Time) :
    (s.setState other state now delivery mgmtdNow).changes = s.changes := by
  unfold setState
  split
  · rfl
  · dsimp only
    split_ifs <;> rfl

theorem changes_step (h : NoDecision op) : (s.step op).changes = s.changes := by
  cases op with
  | setState other state now delivery mgmtdNow =>
    exact changes_setState other state now delivery mgmtdNow
  | syncBuddyGroupMap buddyGroups => rfl
  | decideResync report mirrorBuddyGroups now => exact h.elim
  | publishLocalTargetStateChanges now delivery mgmtdNow =>
    cases delivery <;> rfl
  | mgmtdChanges mgmtd => rfl

variable {ops : List SyncOp}

theorem changes_after (h : ∀ op ∈ ops, NoDecision op)
    (s : TargetStateSync) : (after step s ops).changes = s.changes :=
  after_invariant step (I := fun s' => s'.changes = s.changes)
    (A := fun _ op => NoDecision op) (fun _ _ hSame hOp => (changes_step hOp).trans hSame) rfl
    (everyStep_of_forall step fun _ op hOp => h op hOp)

theorem isLocal_setState (hLocal : (s.dataOf targetID).isSome) (other : Nat)
    (state : TargetConsistencyState) (now : Time) (delivery : Delivery) (mgmtdNow : Time) :
    ((s.setState other state now delivery mgmtdNow).dataOf targetID).isSome := by
  by_cases hOther : other = targetID
  · subst hOther
    unfold setState
    split
    · exact hLocal
    have hPut := find_put_self s.storageTargets.storageTargetDataMap other
      { ‹StorageTargetData› with consistencyState := state }
    refine isSome_iff_exists.mpr
      ⟨{ ‹StorageTargetData› with consistencyState := state }, ?_⟩
    split_ifs
    · exact hPut
    · exact hPut
  · rwa [dataOf_setState hOther state now delivery mgmtdNow]

theorem isLocal_step (h : NoDecision op) (hLocal : (s.dataOf targetID).isSome) :
    ((s.step op).dataOf targetID).isSome := by
  cases op with
  | setState other state now delivery mgmtdNow =>
    exact isLocal_setState hLocal other state now delivery mgmtdNow
  | syncBuddyGroupMap buddyGroups => exact hLocal
  | decideResync report mirrorBuddyGroups now => exact h.elim
  | publishLocalTargetStateChanges now delivery mgmtdNow =>
    have hSame : (s.step (.publishLocalTargetStateChanges now delivery mgmtdNow)).dataOf
        targetID = s.dataOf targetID := dataOf_publish now delivery mgmtdNow
    exact hSame ▸ hLocal
  | mgmtdChanges mgmtd => exact hLocal

theorem isLocal_after (h : ∀ op ∈ ops, NoDecision op) (hLocal : (s.dataOf targetID).isSome) :
    ((after step s ops).dataOf targetID).isSome :=
  after_invariant step (I := fun s' => (s'.dataOf targetID).isSome)
    (A := fun _ op => NoDecision op) (fun _ _ hHere hOp => isLocal_step hOp hHere) hLocal
    (everyStep_of_forall step fun _ op hOp => h op hOp)

def HasTimeout (s : TargetStateSync) (now : Nat → Time) (targetID : Nat) : Prop :=
  (s.storageTargets.targetOfflineWait.targetHasTimeout (now targetID) targetID).1 = true

theorem checkTimeout_of_not_hasTimeout {now : Nat → Time} (h : ¬ s.HasTimeout now targetID)
    (any : Bool) : (s.storageTargets.targetOfflineWait.checkTimeout any (now targetID)
      targetID).1 = false := by
  unfold checkTimeout
  split_ifs
  · exact eq_false_of_ne_true h
  · rfl

/-- What the daemon holds after it accepted the changes, for a local target without a
time-out. -/
theorem consistencyOf_published {s' : TargetStateSync} {now : Nat → Time}
    (hLocal : (s.dataOf targetID).isSome) (hTimeout : ¬ s.HasTimeout now targetID)
    (hChanges : (reportsOf StateChange.report s.changes targetID).getLast? = some state)
    (h : s.publishLocalTargetStateChanges now .delivered mgmtdNow = (true, s')) :
    s'.mgmtd.consistencyOf targetID = some state := by
  have hIsLocal : s.storageTargets.isLocalTarget targetID = true := hLocal
  have hReports := reportsOf_localStateChanges hIsLocal
    (checkTimeout_of_not_hasTimeout hTimeout
      s.storageTargets.targetOfflineWait.anyTargetHasTimeout) s.changes
  unfold publishLocalTargetStateChanges at h
  rcases hSent : s.storageTargets.localStateChanges
    s.storageTargets.targetOfflineWait.anyTargetHasTimeout now s.changes
    s.storageTargets.targetOfflineWait with ⟨changes, wait⟩
  rw [hSent] at hReports
  simp only [hSent] at h
  rcases hAnswer : s.mgmtd.changeConsistencyStatesFromLists (changes.map StateChange.targetID)
    (changes.map StateChange.oldState) (changes.map StateChange.newState) mgmtdNow
    with ⟨res, mgmtd⟩
  simp only [hAnswer] at h
  obtain ⟨hRes, rfl⟩ := Prod.mk.inj h
  obtain rfl : res = .SUCCESS := of_decide_eq_true hRes
  exact consistencyOf_accepted hAnswer (hReports ▸ hChanges)

/-- After a decision and an accepted publication of its changes, the daemon holds the state that
the decision has left. -/
theorem consistencyOf_decided {s' : TargetStateSync}
    {mirrorBuddyGroups : MirrorBuddyGroupMap} {now publishNow : Nat → Time}
    (hLocal : (s.dataOf targetID).isSome) (hMapped : s.MappedIn mirrorBuddyGroups targetID)
    (hReported : (fillTargetStateMap report).find targetID ≠ none)
    (hNotBad : s.consistencyOf targetID ≠ some BAD) (hOps : ∀ op ∈ ops, NoDecision op)
    (hTimeout : ¬ (after step (s.decideResync report mirrorBuddyGroups now) ops).HasTimeout
      publishNow targetID) (h : (after step (s.decideResync report mirrorBuddyGroups now)
      ops).publishLocalTargetStateChanges publishNow .delivered mgmtdNow = (true, s')) :
    s'.mgmtd.consistencyOf targetID =
      (s.decideResync report mirrorBuddyGroups now).consistencyOf targetID := by
  rcases decideResync_cases report now hMapped with
    ⟨-, hNone | hNone | hBad⟩ |
    ⟨targetData, newState, hasTimeout, hData, -, -, hAfter, hChange⟩
  · rw [hNone] at hLocal
    cases hLocal
  · exact absurd hNone hReported
  · exact absurd hBad hNotBad
  rw [consistencyOf, hAfter, map_some]
  have hLocal' : ((s.decideResync report mirrorBuddyGroups now).dataOf targetID).isSome := by
    rw [hAfter]
    rfl
  refine consistencyOf_published (isLocal_after hOps hLocal') hTimeout ?_ h
  rw [changes_after hOps, reportsOf_decideResync hReported hChange]

/-- Every run of the server. A suspect target is never set to GOOD by a decision, and neither is
one that was unclean before. NEEDS_RESYNC and BAD are left only by `setState` or a decision on an
unmapped target. After an accepted publication the daemon holds the state that the last decision
has left, but for BAD. -/
theorem consistencyStates_of_run (s : TargetStateSync) (ops : List SyncOp) (targetID : Nat) :
    Run.EveryStep step (fun s op => Suspect targetID s op → ¬ SetsGood targetID s op) s ops ∧
    (Unclean targetID s → Run.EveryStep step (Undisturbed targetID) s ops →
      Run.EveryStep step (fun s op => ¬ SetsGood targetID s op) s ops) ∧
    (∀ state, state = NEEDS_RESYNC ∨ state = BAD → s.consistencyOf targetID = some state →
      Run.EveryStep step (Undisturbed targetID) s ops →
      (Run.after step s ops).consistencyOf targetID = some state) ∧
    ∀ report mirrorBuddyGroups now later publishNow mgmtdNow s',
      let before := Run.after step s ops
      let decided := before.decideResync report mirrorBuddyGroups now
      let waiting := after step decided later
      (before.dataOf targetID).isSome → before.MappedIn mirrorBuddyGroups targetID →
      (fillTargetStateMap report).find targetID ≠ none →
      before.consistencyOf targetID ≠ some BAD →
      (∀ op ∈ later, NoDecision op) → ¬ waiting.HasTimeout publishNow targetID →
      waiting.publishLocalTargetStateChanges publishNow .delivered mgmtdNow = (true, s') →
      s'.mgmtd.consistencyOf targetID = decided.consistencyOf targetID := by
  refine ⟨?_, ?_, ?_, ?_⟩
  · exact everyStep_of_forall step fun _ _ _ hSuspect => not_setsGood_of_suspect hSuspect
  · intro hUnclean hOps
    exact everyStep_imp step (fun _ _ hHere hOp => unclean_step hOp hHere)
      (fun _ _ hHere hOp => not_setsGood_of_unclean hHere hOp) hUnclean hOps
  · intro state hState hBefore hOps
    exact after_invariant step (I := fun s => s.consistencyOf targetID = some state)
      (fun _ _ hHere hOp => consistencyOf_step hOp hState hHere) hBefore hOps
  · intro report mirrorBuddyGroups now later publishNow mgmtdNow s' before decided waiting
      hLocal hMapped hReported hNotBad hLater hTimeout hPublish
    exact consistencyOf_decided hLocal hMapped hReported hNotBad hLater hTimeout hPublish

/-- One local target, and what the daemon holds of it. -/
def oneTarget (state mgmtdState : TargetConsistencyState) : TargetStateSync where
  storageTargets :=
    { storageTargetDataMap := OrderedMap.put OrderedSet.empty 1 ⟨state, true⟩
      targetBuddyGroupMap := OrderedMap.put OrderedSet.empty 1 7
      targetOfflineWait := ⟨1000, OrderedSet.empty⟩ }
  changes := []
  mgmtd :=
    { statesMap := OrderedMap.put OrderedSet.empty 1 ⟨.ONLINE, mgmtdState, ⟨0, 0⟩⟩
      targetsToResync := OrderedSet.empty
      buddyGroups := none
      switchovers := [] }

/-- A decision about the target as the secondary of group 7, or without that group. -/
def decideOne (mirrorBuddyGroups : MirrorBuddyGroupMap) : SyncOp :=
  .decideResync [⟨1, .ONLINE, NEEDS_RESYNC⟩] mirrorBuddyGroups fun _ => ⟨0, 0⟩

/-- A run that unmaps the target, and then a decision and its publication. -/
theorem consistencyStates_of_run_published :
    let before := Run.after step (oneTarget GOOD NEEDS_RESYNC) [decideOne OrderedSet.empty]
    let decided := before.step (decideOne (put OrderedSet.empty 7 ⟨2, 1⟩))
    let (_, s') := decided.publishLocalTargetStateChanges (fun _ => ⟨0, 0⟩) .delivered ⟨0, 0⟩
    s'.mgmtd.consistencyOf 1 = decided.consistencyOf 1 :=
  (consistencyStates_of_run (oneTarget GOOD NEEDS_RESYNC) [decideOne _] 1).2.2.2
    [⟨1, .ONLINE, NEEDS_RESYNC⟩] (put OrderedSet.empty 7 ⟨2, 1⟩) (fun _ => ⟨0, 0⟩) []
    (fun _ => ⟨0, 0⟩) ⟨0, 0⟩ _ rfl (by unfold MappedIn; decide) (by decide) (by decide) nofun
    (by unfold HasTimeout; decide) rfl

/-- NEEDS_RESYNC is left by unmapping, and the daemon does not learn of BAD. -/
theorem not_consistencyStates :
    ((oneTarget NEEDS_RESYNC NEEDS_RESYNC).consistencyOf 1 = some NEEDS_RESYNC ∧
      ((oneTarget NEEDS_RESYNC NEEDS_RESYNC).step (decideOne OrderedSet.empty)).consistencyOf 1 =
        some GOOD) ∧
    let decided := (oneTarget BAD NEEDS_RESYNC).step
      (decideOne (put OrderedSet.empty 7 ⟨2, 1⟩))
    let (published, s') :=
      decided.publishLocalTargetStateChanges (fun _ => ⟨0, 0⟩) .delivered ⟨0, 0⟩
    published = true ∧ s'.mgmtd.consistencyOf 1 = some NEEDS_RESYNC ∧
      decided.consistencyOf 1 = some BAD := by
  decide

end TargetStateSync

end Fhgfs.Targets
