import Fhgfs.Lib.OrderedMap

/-!
# Capacity pools of targets

`TargetCapacityPools`: the targets by their free space, once in flat sets and once grouped by
their nodes, and the map from targets to nodes that the groups are made from. The choosers for
targets of different nodes and of one node walk the groups from a random position; reading a
position behind the last element is undefined in the code and `none` here.
-/

namespace Fhgfs.Nodes

open Function

inductive CapacityPoolType
  | NORMAL
  | LOW
  | EMERGENCY
deriving DecidableEq

/-- The pool types in the order of the loops over all pools. -/
def CapacityPoolType.all : List CapacityPoolType := [.NORMAL, .LOW, .EMERGENCY]

theorem CapacityPoolType.mem_all (p : CapacityPoolType) : p ∈ CapacityPoolType.all := by
  cases p <;> decide

abbrev TargetSet := OrderedSet (fun targetID : Nat => targetID)

abbrev GroupedTargets := OrderedMap Nat TargetSet

abbrev TargetMap := OrderedMap Nat Nat

def TargetMap.getNodeIDFromTargetID (targetMap : TargetMap) (targetID : Nat) : Nat :=
  (targetMap.find targetID).getD 0

/-- `groupedTargets[nodeID]`, where a missing group is empty. -/
def GroupedTargets.group (groupedTargets : GroupedTargets) (nodeID : Nat) : TargetSet :=
  (groupedTargets.find nodeID).getD OrderedSet.empty

/-- Erase a target from the group of its node, and the node if this was its last target. -/
def GroupedTargets.eraseTarget (groupedTargets : GroupedTargets) (nodeID : Nat)
    (targets : TargetSet) (targetID : Nat) : GroupedTargets :=
  if (targets.erase targetID).elems = [] then groupedTargets.remove nodeID
  else groupedTargets.put nodeID (targets.erase targetID)

structure TargetCapacityPools where
  pools : CapacityPoolType → TargetSet
  groupedTargetPools : CapacityPoolType → GroupedTargets
  targetMap : TargetMap

namespace TargetCapacityPools

def init : TargetCapacityPools :=
  ⟨fun _ => OrderedSet.empty, fun _ => OrderedSet.empty, OrderedSet.empty⟩

def setPool (poolType : CapacityPoolType) (pool : TargetSet) (s : TargetCapacityPools) :
    TargetCapacityPools :=
  { s with pools := Function.update s.pools poolType pool }

def setGroups (poolType : CapacityPoolType) (groupedTargets : GroupedTargets)
    (s : TargetCapacityPools) : TargetCapacityPools :=
  { s with
    groupedTargetPools := Function.update s.groupedTargetPools poolType groupedTargets }

section Updates

variable (s : TargetCapacityPools) (p q : CapacityPoolType) (pool : TargetSet)
  (groupedTargets : GroupedTargets)

theorem setPool_pools : (s.setPool p pool).pools q = if q = p then pool else s.pools q := by
  split_ifs with hq
  · subst hq
    exact update_self _ _ _
  · exact update_of_ne hq _ _

theorem setGroups_groupedTargetPools : (s.setGroups p groupedTargets).groupedTargetPools q =
    if q = p then groupedTargets else s.groupedTargetPools q := by
  split_ifs with hq
  · subst hq
    exact update_self _ _ _
  · exact update_of_ne hq _ _

@[simp] theorem setPool_groupedTargetPools :
    (s.setPool p pool).groupedTargetPools = s.groupedTargetPools := rfl

@[simp] theorem setGroups_pools : (s.setGroups p groupedTargets).pools = s.pools := rfl

end Updates

/-! ## Updates -/

/-- Remove the target from the first pool that has it, leaving out `keepPool`, and from its
group there if it had a node. -/
def removeFromOthersUnlocked (targetID previousNodeID : Nat) (keepPool : CapacityPoolType)
    (s : TargetCapacityPools) : TargetCapacityPools :=
  match CapacityPoolType.all.find? fun poolType =>
      decide (poolType ≠ keepPool) && (s.pools poolType).contains targetID with
  | none => s
  | some poolType =>
    let erased := s.setPool poolType ((s.pools poolType).erase targetID)
    if previousNodeID = 0 then erased
    else
      let groupedTargets := s.groupedTargetPools poolType
      erased.setGroups poolType
        (groupedTargets.put previousNodeID ((groupedTargets.group previousNodeID).erase targetID))

variable (targetID nodeID : Nat)

variable (poolType : CapacityPoolType)

/-- Also answers whether the target was new, or moved to another pool or node. -/
def addOrUpdateUnlocked (s : TargetCapacityPools) : Bool × TargetCapacityPools :=
  let pool := s.pools poolType
  let groupedTargets := s.groupedTargetPools poolType
  let isNewInsertion :=
    !(pool.contains targetID) || !((groupedTargets.group nodeID).contains targetID)
  let inserted := (s.setPool poolType (pool.insert targetID)).setGroups poolType
    (groupedTargets.put nodeID ((groupedTargets.group nodeID).insert targetID))
  let moved :=
    if isNewInsertion then
      inserted.removeFromOthersUnlocked targetID
        (s.targetMap.getNodeIDFromTargetID targetID) poolType
    else inserted
  (isNewInsertion, { moved with targetMap := s.targetMap.put targetID nodeID })

def poolOf (s : TargetCapacityPools) (targetID : Nat) : Option CapacityPoolType :=
  CapacityPoolType.all.find? fun poolType => (s.pools poolType).contains targetID

/-- The check of `addIfNotExists`: the target is in no pool, or has another node. -/
def needUpdate (s : TargetCapacityPools) (targetID nodeID : Nat) : Bool :=
  match s.poolOf targetID with
  | none => true
  | some _ => decide (nodeID ≠ s.targetMap.getNodeIDFromTargetID targetID)

/-- The slow path of `addIfNotExists`, which keeps the pool of a known target. -/
def addWithWriteLock (s : TargetCapacityPools) : Bool × TargetCapacityPools :=
  if s.needUpdate targetID nodeID = false then (false, s)
  else
    (true, (s.addOrUpdateUnlocked targetID nodeID ((s.poolOf targetID).getD poolType)).2)

/-- The quick path only reads. The slow path checks again, so a step of another operation between
the two makes it a call on the later state. -/
def addIfNotExists (s : TargetCapacityPools) : Bool × TargetCapacityPools :=
  if s.needUpdate targetID nodeID = false then (false, s)
  else s.addWithWriteLock targetID nodeID poolType

/-- The target map keeps the entry of a removed target. -/
def remove (targetID : Nat) (s : TargetCapacityPools) : TargetCapacityPools :=
  match s.poolOf targetID with
  | none => s
  | some poolType =>
    let erased := s.setPool poolType ((s.pools poolType).erase targetID)
    let nodeID := s.targetMap.getNodeIDFromTargetID targetID
    let groupedTargets := s.groupedTargetPools poolType
    if nodeID = 0 then erased
    else
      match groupedTargets.find nodeID with
      | none => erased
      | some group =>
        if group.contains targetID = false then erased
        else erased.setGroups poolType (groupedTargets.eraseTarget nodeID group targetID)

/-- The body of the loop in `groupTargetsByNode`. -/
def groupTarget (targetMap : TargetMap) (groupedTargets : GroupedTargets) (targetID : Nat) :
    GroupedTargets :=
  let nodeID := targetMap.getNodeIDFromTargetID targetID
  if nodeID = 0 then groupedTargets
  else groupedTargets.put nodeID ((groupedTargets.group nodeID).insert targetID)

def groupTargetsByNode (pool : TargetSet) (targetMap : TargetMap) : GroupedTargets :=
  pool.elems.foldl (groupTarget targetMap) OrderedSet.empty

def syncPoolsFromLists (lists : CapacityPoolType → List Nat) (newTargetMap : TargetMap) :
    TargetCapacityPools :=
  let newPools := fun poolType => (lists poolType).foldl OrderedSet.insert OrderedSet.empty
  { pools := newPools
    groupedTargetPools := fun poolType => groupTargetsByNode (newPools poolType) newTargetMap
    targetMap := newTargetMap }

/-! ## Choosers -/

/-- A random generator, as the numbers it gives from now on. -/
abbrev RandomReentrant := Nat → Nat

def RandomReentrant.getNextInRange (randGen : RandomReentrant) (min max : Nat) :
    Nat × RandomReentrant :=
  (min + randGen 0 % (max - min + 1), fun i => randGen (i + 1))

/-- A position in a collection; a collection of one element needs no random number. -/
def moveIterToRandomElem {α : Type} (collection : List α) (randGen : RandomReentrant) :
    Nat × RandomReentrant :=
  if collection.length < 2 then (0, randGen)
  else randGen.getNextInRange 0 (collection.length - 1)

def moveIterToNextRingElem {α : Type} (collection : List α) (iter : Nat) : Nat :=
  if iter + 1 < collection.length then iter + 1 else 0

/-- A chosen target with the node and the pool whose group it was picked from. The code keeps the
targets in `outTargets` and the nodes in `usedNodes`. -/
structure Pick where
  targetID : Nat
  nodeID : Nat
  poolType : CapacityPoolType
deriving DecidableEq

/-- One random target from each of the next `numTargets` groups. -/
def pickFromGroups (poolType : CapacityPoolType) (groups : List (Nat × TargetSet)) :
    Nat → Nat → RandomReentrant → List Pick → Option (List Pick × RandomReentrant)
  | 0, _, randGen, picks => some (picks, randGen)
  | numTargets + 1, groupsIter, randGen, picks =>
    match groups[groupsIter]? with
    | none => none
    | some (nodeID, targets) =>
      let (targetsIter, randGen) := moveIterToRandomElem targets.elems randGen
      match targets.elems[targetsIter]? with
      | none => none
      | some targetID =>
        pickFromGroups poolType groups numTargets (moveIterToNextRingElem groups groupsIter)
          randGen (picks ++ [⟨targetID, nodeID, poolType⟩])

def chooseTargetsInterdomainNoPref
    (groupedTargets : GroupedTargets) (numTargets : Nat) (randGen : RandomReentrant)
    (picks : List Pick) : Option (List Pick × RandomReentrant) :=
  let groups := groupedTargets.elems
  if groups = [] then some (picks, randGen)
  else
    let (groupsIter, randGen) := moveIterToRandomElem groups randGen
    pickFromGroups poolType groups (min numTargets groups.length) groupsIter randGen picks

def pickFromTargets (poolType : CapacityPoolType) (nodeID : Nat) (targets : List Nat) :
    Nat → Nat → List Pick → Option (List Pick)
  | 0, _, picks => some picks
  | numTargets + 1, targetsIter, picks =>
    match targets[targetsIter]? with
    | none => none
    | some targetID =>
      pickFromTargets poolType nodeID targets numTargets
        (moveIterToNextRingElem targets targetsIter)
        (picks ++ [⟨targetID, nodeID, poolType⟩])

/-- The first target is picked even if none is wanted. -/
def chooseTargetsIntradomainNoPref
    (groupedTargets : GroupedTargets) (numTargets : Nat) (randGen : RandomReentrant) :
    Option (List Pick) :=
  let groups := groupedTargets.elems
  if groups = [] then some []
  else
    let (groupsIter, randGen) := moveIterToRandomElem groups randGen
    match groups[groupsIter]? with
    | none => none
    | some (nodeID, targets) =>
      let numTargets := min numTargets targets.elems.length
      let (targetsIter, _) := moveIterToRandomElem targets.elems randGen
      pickFromTargets poolType nodeID targets.elems (max numTargets 1) targetsIter []

/-- The groups without those of the nodes in `stripNodes`. -/
def copyAndStripGroupedTargets (groupedTargets : GroupedTargets) (stripNodes : List Nat) :
    GroupedTargets :=
  stripNodes.foldl OrderedMap.remove groupedTargets

def chooseInterdomainFrom (s : TargetCapacityPools) (numTargets minNumRequiredTargets : Nat) :
    List CapacityPoolType → RandomReentrant → List Pick → Option (List Pick)
  | [], _, picks => some picks
  | poolType :: poolTypes, randGen, picks =>
    let groupedTargets := s.groupedTargetPools poolType
    if groupedTargets.elems = [] then
      s.chooseInterdomainFrom numTargets minNumRequiredTargets poolTypes randGen picks
    else
      let usable := copyAndStripGroupedTargets groupedTargets (picks.map Pick.nodeID)
      match chooseTargetsInterdomainNoPref poolType usable numTargets randGen picks with
      | none => none
      | some (picks, randGen) =>
        if minNumRequiredTargets ≤ picks.length then some picks
        else s.chooseInterdomainFrom numTargets minNumRequiredTargets poolTypes randGen picks

def chooseTargetsInterdomain (numTargets minNumRequiredTargets : Nat)
    (randGen : RandomReentrant) (s : TargetCapacityPools) : Option (List Pick) :=
  s.chooseInterdomainFrom numTargets minNumRequiredTargets CapacityPoolType.all randGen []

def chooseTargetsIntradomain (numTargets : Nat) (randGen : RandomReentrant)
    (s : TargetCapacityPools) : Option (List Pick) :=
  match CapacityPoolType.all.find? fun poolType =>
      decide ((s.groupedTargetPools poolType).elems ≠ []) with
  | none => some []
  | some poolType =>
    chooseTargetsIntradomainNoPref poolType (s.groupedTargetPools poolType) numTargets randGen

end TargetCapacityPools

end Fhgfs.Nodes
