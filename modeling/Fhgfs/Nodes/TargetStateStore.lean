import Fhgfs.Nodes.MirrorBuddyGroupMapper

/-!
# Target states of the management daemon

`MgmtdTargetStateStore`: the reachability and consistency of every known target, together with
the buddy groups whose members it switches. The three operations that change states are loops:
over a list of reports, over a list of checked updates, and over all states with their last
report time.

* `setConsistencyStatesFromLists` stores reported states.
* `changeConsistencyStatesFromLists` stores them if the old states match, and switches the
  buddies when a target comes online.
* `autoOfflineTargets` marks targets without a report, and switches the buddies of the new
  offline ones.

`switchovers` records every switchover with the state of the promoted target; the code has no
such record.
-/

namespace Fhgfs.Nodes

/-- `struct timespec`. -/
structure Time where
  tv_sec : Int
  tv_nsec : Int
deriving DecidableEq

def Time.elapsedSinceMS (now earlierT : Time) : Nat :=
  (((now.tv_sec - earlierT.tv_sec) * 1000 + (now.tv_nsec - earlierT.tv_nsec).tdiv 1000000)
    % 2 ^ 32).toNat

inductive TargetReachabilityState
  | ONLINE
  | POFFLINE
  | OFFLINE
deriving DecidableEq

/-- A message carries these as bytes, and the store casts any byte. -/
abbrev TargetConsistencyState := UInt8

namespace TargetConsistencyState

def GOOD : TargetConsistencyState := 0
def NEEDS_RESYNC : TargetConsistencyState := 1
def BAD : TargetConsistencyState := 2

end TargetConsistencyState

open TargetConsistencyState (GOOD NEEDS_RESYNC)

structure CombinedTargetState where
  reachabilityState : TargetReachabilityState
  consistencyState : TargetConsistencyState
deriving DecidableEq

structure TargetStateInfo where
  reachabilityState : TargetReachabilityState
  consistencyState : TargetConsistencyState
  lastChangedTime : Time
deriving DecidableEq

/-- A switchover and the state of the target that became the primary. -/
structure Switchover where
  buddyGroupID : Nat
  promotedTargetID : Nat
  promotedState : Option TargetStateInfo
deriving DecidableEq

/-- The store and the mapper its operations are given; the mapper is `none` for a NULL pointer. -/
structure MgmtdTargetStateStore where
  statesMap : OrderedMap Nat TargetStateInfo
  targetsToResync : OrderedSet (fun targetID : Nat => targetID)
  buddyGroups : Option MirrorBuddyGroupMap
  switchovers : List Switchover
deriving DecidableEq

namespace MgmtdTargetStateStore

variable (now : Time)

/-- `statesMap[targetID]`, where a missing entry starts OFFLINE and GOOD. -/
def stateOf (s : MgmtdTargetStateStore) (targetID : Nat) : TargetStateInfo :=
  (s.statesMap.find targetID).getD ⟨.OFFLINE, GOOD, now⟩

def storeState (targetID : Nat) (targetState : TargetStateInfo) (s : MgmtdTargetStateStore) :
    MgmtdTargetStateStore :=
  { s with statesMap := s.statesMap.put targetID targetState }

def targetsToResyncUpdate (consistencyState : TargetConsistencyState) (targetID : Nat)
    (s : MgmtdTargetStateStore) : MgmtdTargetStateStore :=
  { s with
    targetsToResync :=
      if consistencyState = NEEDS_RESYNC then s.targetsToResync.insert targetID
      else s.targetsToResync.erase targetID }

/-- Store the state of a target, and note whether it has to be resynced if the state is new. -/
def changeState (targetID : Nat) (targetState newState : TargetStateInfo)
    (s : MgmtdTargetStateStore) : MgmtdTargetStateStore :=
  if targetState.reachabilityState ≠ newState.reachabilityState ∨
      targetState.consistencyState ≠ newState.consistencyState then
    (s.storeState targetID newState).targetsToResyncUpdate newState.consistencyState targetID
  else s.storeState targetID newState

def switchover (buddyGroupID : Nat) (s : MgmtdTargetStateStore) : MgmtdTargetStateStore :=
  match s.buddyGroups with
  | none => s
  | some buddyGroups =>
    let promotedTargetID := buddyGroups.getSecondaryTargetIDUnlocked buddyGroupID
    { s with
      buddyGroups := some (buddyGroups.switchover buddyGroupID)
      switchovers := s.switchovers ++
        [⟨buddyGroupID, promotedTargetID, s.statesMap.find promotedTargetID⟩] }

/-! ## Set reported states -/

/-- The body of the loop in `setConsistencyStatesFromLists`. -/
def applyStateReport (setOnline : Bool) (now : Time) (s : MgmtdTargetStateStore)
    (report : Nat × TargetConsistencyState) : MgmtdTargetStateStore :=
  let targetState := s.stateOf now report.1
  let newReachabilityState := if setOnline then .ONLINE else targetState.reachabilityState
  let lastChangedTime := if setOnline then now else targetState.lastChangedTime
  s.changeState report.1 targetState ⟨newReachabilityState, report.2, lastChangedTime⟩

variable (targetIDs : List Nat)

def setConsistencyStatesFromLists
    (consistencyStates : List TargetConsistencyState) (setOnline : Bool) (now : Time)
    (s : MgmtdTargetStateStore) : MgmtdTargetStateStore :=
  (targetIDs.zip consistencyStates).foldl (applyStateReport setOnline now) s

/-! ## Change checked states -/

/-- A target with its expected and its new state. -/
structure StateChange where
  targetID : Nat
  oldState : TargetConsistencyState
  newState : TargetConsistencyState
deriving DecidableEq

/-- The three lists side by side, up to the end of the shortest. -/
def stateChanges (oldStates newStates : List TargetConsistencyState) : List StateChange :=
  List.zipWith (fun targetID (old, new) => ⟨targetID, old, new⟩) targetIDs
    (oldStates.zip newStates)

/-- The first loop: the reads create missing entries, and it ends at the first mismatch. -/
def checkOldStates (now : Time) :
    List StateChange → MgmtdTargetStateStore → FhgfsOpsErr × MgmtdTargetStateStore
  | [], s => (.SUCCESS, s)
  | change :: changes, s =>
    let targetState := s.stateOf now change.targetID
    let s' := s.storeState change.targetID targetState
    if targetState.consistencyState = change.oldState then checkOldStates now changes s'
    else (.AGAIN, s')

/-- If a secondary target comes back online and the primary is offline, switch buddies. -/
def switchIfPrimaryOffline (targetID : Nat) (s : MgmtdTargetStateStore) : MgmtdTargetStateStore :=
  match s.buddyGroups with
  | none => s
  | some buddyGroups =>
    let (buddyGroupID, isPrimary) := buddyGroups.getBuddyGroupIDUnlocked targetID
    if isPrimary = true ∨ buddyGroupID = 0 then s
    else
      match s.statesMap.find (buddyGroups.getPrimaryTargetIDUnlocked buddyGroupID) with
      | none => s
      | some primaryTargetState =>
        if primaryTargetState.reachabilityState = .OFFLINE then s.switchover buddyGroupID
        else s

def applyStateChange (s : MgmtdTargetStateStore) (change : StateChange) : MgmtdTargetStateStore :=
  let targetState := s.stateOf now change.targetID
  let targetComingOnline := targetState.reachabilityState ≠ .ONLINE
  let updated := s.changeState change.targetID targetState ⟨.ONLINE, change.newState, now⟩
  if targetComingOnline ∧ change.newState = GOOD then
    updated.switchIfPrimaryOffline change.targetID
  else updated

def changeConsistencyStatesFromLists
    (oldStates newStates : List TargetConsistencyState) (now : Time)
    (s : MgmtdTargetStateStore) : FhgfsOpsErr × MgmtdTargetStateStore :=
  let changes := stateChanges targetIDs oldStates newStates
  match checkOldStates now changes s with
  | (.SUCCESS, checked) => (.SUCCESS, changes.foldl (applyStateChange now) checked)
  | (res, checked) => (res, checked)

/-! ## Time-outs -/

/-- The state of a target after a look at the time of its last report. -/
def offlineState (pofflineTimeoutMS offlineTimeoutMS : Nat) (nowTime : Time)
    (targetStateInfo : TargetStateInfo) : TargetStateInfo :=
  let timeSinceLastUpdateMS := nowTime.elapsedSinceMS targetStateInfo.lastChangedTime
  if offlineTimeoutMS < timeSinceLastUpdateMS then
    { targetStateInfo with reachabilityState := .OFFLINE }
  else if pofflineTimeoutMS < timeSinceLastUpdateMS then
    { targetStateInfo with reachabilityState := .POFFLINE }
  else targetStateInfo

/-- The targets that a look at the times sets to OFFLINE, in the order of their IDs. -/
def offlinedTargets (offlineTimeoutMS : Nat) (nowTime : Time)
    (statesMap : OrderedMap Nat TargetStateInfo) : List Nat :=
  (statesMap.elems.filter fun entry => decide
    (offlineTimeoutMS < nowTime.elapsedSinceMS entry.2.lastChangedTime ∧
      entry.2.reachabilityState ≠ .OFFLINE)).map Prod.fst

/-- Switch buddies if the target is a primary and its secondary is online and good. -/
def switchIfSecondaryGood (s : MgmtdTargetStateStore) (targetID : Nat) : MgmtdTargetStateStore :=
  match s.buddyGroups with
  | none => s
  | some buddyGroups =>
    let (buddyGroupID, isPrimary) := buddyGroups.getBuddyGroupIDUnlocked targetID
    if isPrimary = false then s
    else
      match s.statesMap.find (buddyGroups.getSecondaryTargetIDUnlocked buddyGroupID) with
      | none => s
      | some secondaryTargetState =>
        if secondaryTargetState.reachabilityState ≠ .ONLINE ∨
            secondaryTargetState.consistencyState ≠ GOOD then s
        else s.switchover buddyGroupID

/-- Also answers whether any reachability state was changed. -/
def autoOfflineTargets (pofflineTimeoutMS offlineTimeoutMS : Nat) (nowTime : Time)
    (s : MgmtdTargetStateStore) : Bool × MgmtdTargetStateStore :=
  let statesMap := s.statesMap.mapVal (offlineState pofflineTimeoutMS offlineTimeoutMS nowTime)
  let offlined := offlinedTargets offlineTimeoutMS nowTime s.statesMap
  (decide (statesMap ≠ s.statesMap),
    offlined.foldl switchIfSecondaryGood { s with statesMap := statesMap })

/-! ## States and groups -/

def reachabilityOf (s : MgmtdTargetStateStore) (targetID : Nat) : Option TargetReachabilityState :=
  (s.statesMap.find targetID).map TargetStateInfo.reachabilityState

def consistencyOf (s : MgmtdTargetStateStore) (targetID : Nat) : Option TargetConsistencyState :=
  (s.statesMap.find targetID).map TargetStateInfo.consistencyState

def groupOf (s : MgmtdTargetStateStore) (gid : Nat) : Option MirrorBuddyGroup :=
  s.buddyGroups.bind fun buddyGroups => buddyGroups.find gid

section

variable (s : MgmtdTargetStateStore) (targetID : Nat)

theorem stateOf_reachabilityState :
    (s.stateOf now targetID).reachabilityState = (s.reachabilityOf targetID).getD .OFFLINE := by
  unfold stateOf reachabilityOf
  cases s.statesMap.find targetID <;> rfl

theorem stateOf_consistencyState :
    (s.stateOf now targetID).consistencyState = (s.consistencyOf targetID).getD GOOD := by
  unfold stateOf consistencyOf
  cases s.statesMap.find targetID <;> rfl

end

section Updates

variable (s : MgmtdTargetStateStore) (targetID : Nat) (info info' : TargetStateInfo) (gid : Nat)

theorem changeState_statesMap : (s.changeState targetID info info').statesMap =
    s.statesMap.put targetID info' := by
  unfold changeState
  split <;> rfl

@[simp] theorem changeState_buddyGroups :
    (s.changeState targetID info info').buddyGroups = s.buddyGroups := by
  unfold changeState
  split <;> rfl

@[simp] theorem changeState_switchovers :
    (s.changeState targetID info info').switchovers = s.switchovers := by
  unfold changeState
  split <;> rfl

@[simp] theorem groupOf_changeState :
    (s.changeState targetID info info').groupOf gid = s.groupOf gid := by
  unfold groupOf
  rw [changeState_buddyGroups]

theorem reachabilityOf_changeState (t : Nat) :
    (s.changeState targetID info info').reachabilityOf t =
      if targetID = t then some info'.reachabilityState else s.reachabilityOf t := by
  unfold reachabilityOf
  rw [changeState_statesMap, OrderedMap.find_put]
  by_cases hHere : targetID = t
  · rw [if_pos hHere.symm, if_pos hHere, Option.map_some]
  · rw [if_neg (Ne.symm hHere), if_neg hHere]

theorem consistencyOf_changeState (t : Nat) :
    (s.changeState targetID info info').consistencyOf t =
      if targetID = t then some info'.consistencyState else s.consistencyOf t := by
  unfold consistencyOf
  rw [changeState_statesMap, OrderedMap.find_put]
  by_cases hHere : targetID = t
  · rw [if_pos hHere.symm, if_pos hHere, Option.map_some]
  · rw [if_neg (Ne.symm hHere), if_neg hHere]

@[simp] theorem statesMap_switchover : (s.switchover gid).statesMap = s.statesMap := by
  unfold switchover
  split <;> rfl

theorem groupOf_switchover (gid' : Nat) : (s.switchover gid).groupOf gid' =
    if gid' = gid then (s.groupOf gid').map MirrorBuddyGroup.swap else s.groupOf gid' := by
  unfold switchover groupOf
  split
  · rename_i hNone
    rw [hNone]
    split_ifs <;> rfl
  · rename_i buddyGroups hSome
    rw [hSome]
    exact MirrorBuddyGroupMap.find_switchover buddyGroups gid gid'

end Updates

end MgmtdTargetStateStore

end Fhgfs.Nodes
