import Fhgfs.Nodes.TargetStateStore

/-!
# Consistency states of local targets

`StorageTargets` on a storage server and the part of `InternodeSyncer` that keeps the states in
step with the management daemon: `decideResync` sets the local states from the reported ones,
`updateTargetStateLists` takes over its changes and `publishLocalTargetStateChanges` sends them
with the reported states, for the daemon to compare.
-/

namespace Fhgfs.Targets

open Nodes (CombinedTargetState MgmtdTargetStateStore MirrorBuddyGroup MirrorBuddyGroupMap
  TargetConsistencyState TargetReachabilityState Time)
open Nodes.TargetConsistencyState (GOOD NEEDS_RESYNC BAD)
open Nodes.MgmtdTargetStateStore (StateChange)

/-! ## Buddy groups -/

inductive MirrorBuddyState
  | PRIMARY
  | SECONDARY
  | UNMAPPED
deriving DecidableEq

def getBuddyState (mirrorBuddyGroups : MirrorBuddyGroupMap) (targetID buddyGroupID : Nat) :
    MirrorBuddyState :=
  match mirrorBuddyGroups.find buddyGroupID with
  | none => .UNMAPPED
  | some mbg =>
    if targetID = mbg.firstTargetID then .PRIMARY
    else if targetID = mbg.secondTargetID then .SECONDARY
    else .UNMAPPED

/-- The state in the group that the server keeps for the target. -/
def localBuddyState (targetBuddyGroupMap : OrderedMap Nat Nat)
    (mirrorBuddyGroups : MirrorBuddyGroupMap) (targetID : Nat) : MirrorBuddyState :=
  match targetBuddyGroupMap.find targetID with
  | none => .UNMAPPED
  | some buddyGroupID => getBuddyState mirrorBuddyGroups targetID buddyGroupID

/-! ## Time-outs -/

/-- The targets that are not to be reported until they are surely offline, with the start of
their timers. -/
structure TargetOfflineWait where
  waitTimeoutMS : Nat
  targetTimerMap : OrderedMap Nat Time
deriving DecidableEq

namespace TargetOfflineWait

variable (wait : TargetOfflineWait)

def anyTargetHasTimeout : Bool :=
  decide (wait.targetTimerMap.elems ≠ [])

def targetHasTimeout (now : Time) (targetID : Nat) : Bool × TargetOfflineWait :=
  match wait.targetTimerMap.find targetID with
  | none => (false, wait)
  | some start =>
    if now.elapsedSinceMS start < wait.waitTimeoutMS then (true, wait)
    else (false, { wait with targetTimerMap := wait.targetTimerMap.remove targetID })

/-- `targetHasTimeout` behind an earlier look at all timers. -/
def checkTimeout (anyTargetHasTimeout : Bool) (now : Time)
    (targetID : Nat) : Bool × TargetOfflineWait :=
  if anyTargetHasTimeout then wait.targetHasTimeout now targetID else (false, wait)

end TargetOfflineWait

/-! ## Local targets -/

/-- `cleanShutdown` is false for a target that was not cleanly shut down, until its state is
decided for the first time. -/
structure StorageTargetData where
  consistencyState : TargetConsistencyState
  cleanShutdown : Bool
deriving DecidableEq

structure StorageTargets where
  storageTargetDataMap : OrderedMap Nat StorageTargetData
  targetBuddyGroupMap : OrderedMap Nat Nat
  targetOfflineWait : TargetOfflineWait
deriving DecidableEq

abbrev TargetStateMap := OrderedMap Nat CombinedTargetState

/-- One position of the three lists that the daemon reports. -/
structure ReportedState where
  targetID : Nat
  reachabilityState : TargetReachabilityState
  consistencyState : TargetConsistencyState
deriving DecidableEq

/-- The first of several entries for a target counts. -/
def fillTargetStateMap (report : List ReportedState) : TargetStateMap :=
  report.foldl (fun stateMap entry => stateMap.insert
    (entry.targetID, ⟨entry.reachabilityState, entry.consistencyState⟩)) OrderedSet.empty

def updateTargetStateLists (stateMap : TargetStateMap) (report : List ReportedState) :
    List ReportedState :=
  report.map fun entry =>
    match stateMap.find entry.targetID with
    | none => entry
    | some state => ⟨entry.targetID, state.reachabilityState, state.consistencyState⟩

namespace StorageTargets

variable (s : StorageTargets)

def setData (targetID : Nat) (targetData : StorageTargetData) : StorageTargets :=
  { s with storageTargetDataMap := s.storageTargetDataMap.put targetID targetData }

def isLocalTarget (targetID : Nat) : Bool :=
  (s.storageTargetDataMap.find targetID).isSome

/-- The members of the groups, the first group of a target. -/
def syncBuddyGroupMap (buddyGroups : List (Nat × MirrorBuddyGroup)) : StorageTargets :=
  { s with
    targetBuddyGroupMap := buddyGroups.foldl (fun map (buddyGroupID, mbg) =>
      (map.insert (mbg.firstTargetID, buddyGroupID)).insert (mbg.secondTargetID, buddyGroupID))
      OrderedSet.empty }

/-- The new state of a mapped target that is not BAD. -/
def decideState (targetData : StorageTargetData) (hasTimeout : Bool)
    (newStateFromMgmtd : CombinedTargetState) : TargetConsistencyState :=
  let isResyncing := newStateFromMgmtd.consistencyState = NEEDS_RESYNC
  let isBad := newStateFromMgmtd.consistencyState = BAD
  if hasTimeout then NEEDS_RESYNC
  else if targetData.consistencyState = NEEDS_RESYNC then NEEDS_RESYNC
  else if targetData.cleanShutdown = false ∨ isResyncing ∨ isBad then NEEDS_RESYNC
  -- a target that is offline for the daemon knows better
  else if newStateFromMgmtd.reachabilityState = .OFFLINE ∨
      newStateFromMgmtd.reachabilityState = .POFFLINE then GOOD
  else newStateFromMgmtd.consistencyState

/-- The body of the loop in `decideResync`. Targets without a reported state and BAD targets are
left alone. -/
def decideTarget (statesFromMgmtd : TargetStateMap) (mirrorBuddyGroups : MirrorBuddyGroupMap)
    (anyTargetHasTimeout : Bool) (now : Nat → Time) (loop : StorageTargets × TargetStateMap)
    (targetID : Nat) : StorageTargets × TargetStateMap :=
  let (s, outLocalStateChanges) := loop
  match s.storageTargetDataMap.find targetID, statesFromMgmtd.find targetID with
  | some targetData, some newStateFromMgmtd =>
    if localBuddyState s.targetBuddyGroupMap mirrorBuddyGroups targetID = .UNMAPPED then
      (s.setData targetID ⟨GOOD, true⟩, outLocalStateChanges.insert (targetID, ⟨.ONLINE, GOOD⟩))
    else if targetData.consistencyState = BAD then loop
    else
      let (hasTimeout, targetOfflineWait) :=
        s.targetOfflineWait.checkTimeout anyTargetHasTimeout (now targetID) targetID
      let consistencyState := decideState targetData hasTimeout newStateFromMgmtd
      ({ s.setData targetID ⟨consistencyState, true⟩ with targetOfflineWait := targetOfflineWait },
        outLocalStateChanges.insert (targetID, ⟨.ONLINE, consistencyState⟩))
  | _, _ => loop

/-- `now` is the time at which the loop looks at a target. -/
def decideResync (statesFromMgmtd : TargetStateMap)
    (mirrorBuddyGroups : MirrorBuddyGroupMap) (now : Nat → Time) :
    StorageTargets × TargetStateMap :=
  (s.storageTargetDataMap.elems.map Prod.fst).foldl
    (decideTarget statesFromMgmtd mirrorBuddyGroups s.targetOfflineWait.anyTargetHasTimeout now)
    (s, OrderedSet.empty)

/-- The loop of `publishLocalTargetStateChanges`: local targets without a time-out. -/
def localStateChanges (s : StorageTargets) (someTargetHasOfflineTimeout : Bool)
    (now : Nat → Time) : List StateChange → TargetOfflineWait →
    List StateChange × TargetOfflineWait
  | [], targetOfflineWait => ([], targetOfflineWait)
  | change :: changes, targetOfflineWait =>
    if s.isLocalTarget change.targetID then
      let (hasTimeout, targetOfflineWait) := targetOfflineWait.checkTimeout
        someTargetHasOfflineTimeout (now change.targetID) change.targetID
      let (rest, targetOfflineWait) :=
        localStateChanges s someTargetHasOfflineTimeout now changes targetOfflineWait
      (if hasTimeout then rest else change :: rest, targetOfflineWait)
    else localStateChanges s someTargetHasOfflineTimeout now changes targetOfflineWait

end StorageTargets

/-! ## The storage server and the management daemon -/

/-- What becomes of a request to the management daemon. -/
inductive Delivery
  | noMgmtNode
  | requestLost
  | responseLost
  | delivered
deriving DecidableEq

def Delivery.arrives : Delivery → Bool
  | .noMgmtNode | .requestLost => false
  | .responseLost | .delivered => true

/-- The changes are those that wait for `publishLocalTargetStateChanges`. -/
structure TargetStateSync where
  storageTargets : StorageTargets
  changes : List StateChange
  mgmtd : MgmtdTargetStateStore
deriving DecidableEq

inductive SyncOp
  | setState (targetID : Nat) (state : TargetConsistencyState) (now : Time)
      (delivery : Delivery) (mgmtdNow : Time)
  | syncBuddyGroupMap (buddyGroups : List (Nat × MirrorBuddyGroup))
  | decideResync (report : List ReportedState) (mirrorBuddyGroups : MirrorBuddyGroupMap)
      (now : Nat → Time)
  | publishLocalTargetStateChanges (now : Nat → Time) (delivery : Delivery) (mgmtdNow : Time)
  | mgmtdChanges (mgmtd : MgmtdTargetStateStore)

namespace TargetStateSync

variable (s : TargetStateSync)

variable (targetID : Nat)

/-- Also publishes the state, but only of a target with a time-out. -/
def handleTargetStateChange
    (newState : TargetConsistencyState) (now : Time) (delivery : Delivery) (mgmtdNow : Time) :
    TargetStateSync :=
  let wait := s.storageTargets.targetOfflineWait
  let (hasTimeout, wait) := wait.checkTimeout wait.anyTargetHasTimeout now targetID
  { s with
    storageTargets := { s.storageTargets with targetOfflineWait := wait }
    mgmtd :=
      if hasTimeout = true ∧ delivery.arrives = true then
        s.mgmtd.setConsistencyStatesFromLists [targetID] [newState] true mgmtdNow
      else s.mgmtd }

def setState (state : TargetConsistencyState) (now : Time)
    (delivery : Delivery) (mgmtdNow : Time) : TargetStateSync :=
  match s.storageTargets.storageTargetDataMap.find targetID with
  | none => s
  | some target =>
    let changed := { s with
      storageTargets :=
        s.storageTargets.setData targetID { target with consistencyState := state } }
    if target.consistencyState ≠ state then
      changed.handleTargetStateChange targetID state now delivery mgmtdNow
    else changed

/-- A round of `updateTargetStatesAndBuddyGroups` up to the publication. -/
def decideResync (s : TargetStateSync) (report : List ReportedState)
    (mirrorBuddyGroups : MirrorBuddyGroupMap) (now : Nat → Time) : TargetStateSync :=
  let (storageTargets, localTargetChangedStates) :=
    s.storageTargets.decideResync (fillTargetStateMap report) mirrorBuddyGroups now
  { s with
    storageTargets := storageTargets
    changes := List.zipWith (fun old new => ⟨old.targetID, old.consistencyState,
      new.consistencyState⟩) report (updateTargetStateLists localTargetChangedStates report) }

/-- Without a management node the answer is a success. -/
def publishLocalTargetStateChanges (now : Nat → Time)
    (delivery : Delivery) (mgmtdNow : Time) : Bool × TargetStateSync :=
  let wait := s.storageTargets.targetOfflineWait
  let (changes, wait) :=
    s.storageTargets.localStateChanges wait.anyTargetHasTimeout now s.changes wait
  let s := { s with storageTargets := { s.storageTargets with targetOfflineWait := wait } }
  let (res, mgmtd) := s.mgmtd.changeConsistencyStatesFromLists
    (changes.map StateChange.targetID) (changes.map StateChange.oldState)
    (changes.map StateChange.newState) mgmtdNow
  match delivery with
  | .noMgmtNode => (true, s)
  | .requestLost => (false, s)
  | .responseLost => (false, { s with mgmtd := mgmtd })
  | .delivered => (decide (res = .SUCCESS), { s with mgmtd := mgmtd })

def step : SyncOp → TargetStateSync
  | .setState targetID state now delivery mgmtdNow =>
    s.setState targetID state now delivery mgmtdNow
  | .syncBuddyGroupMap buddyGroups =>
    { s with storageTargets := s.storageTargets.syncBuddyGroupMap buddyGroups }
  | .decideResync report mirrorBuddyGroups now => s.decideResync report mirrorBuddyGroups now
  | .publishLocalTargetStateChanges now delivery mgmtdNow =>
    (s.publishLocalTargetStateChanges now delivery mgmtdNow).2
  | .mgmtdChanges mgmtd => { s with mgmtd := mgmtd }

def dataOf : Option StorageTargetData :=
  s.storageTargets.storageTargetDataMap.find targetID

def consistencyOf : Option TargetConsistencyState :=
  (s.dataOf targetID).map StorageTargetData.consistencyState

end TargetStateSync

end Fhgfs.Targets
