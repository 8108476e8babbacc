import Fhgfs.Common.MapTk
import Fhgfs.Common.ObjectReferencer

/-!
# Store of server nodes

`NodeStoreServers`: the active nodes by their numeric IDs, and the deleted ones that are still
referenced by their pointers. The local node belongs to the application; it is not in the maps,
and the loops over all nodes insert it for their duration.
-/

namespace Fhgfs.Nodes

/-- A node at its address. `info` is what an update takes over: version, ports, network
interfaces and features. -/
structure Node (ι : Type) where
  ptr : Nat
  numID : Nat
  stringID : Text
  info : ι
deriving DecidableEq

variable {ι : Type}

/-- What a caller knows of a node that it references. -/
def Node.handle (node : Node ι) : Nat × Nat := (node.numID, node.ptr)

abbrev NodeReferencer (ι : Type) := ObjectReferencer (Node ι)

abbrev NodeMap (ι : Type) := OrderedMap Nat (NodeReferencer ι)

abbrev NodePtrMap (ι : Type) := OrderedMap Nat (NodeReferencer ι)

def NODESTORE_MAX_NODENUMIDS : Nat := 65535 - 1

/-- `freed` are the nodes that the store has deleted as objects, in this order. -/
structure NodeStoreServers (ι : Type) where
  localNode : Option (Node ι)
  activeNodes : NodeMap ι
  deletedNodes : NodePtrMap ι
  freed : List Nat

namespace NodeStoreServers

def init (localNode : Option (Node ι)) : NodeStoreServers ι :=
  ⟨localNode, OrderedSet.empty, OrderedSet.empty, []⟩

variable (s : NodeStoreServers ι)

def isLocal (numID : Nat) : Bool :=
  s.localNode.any fun node => decide (numID = node.numID)

def setActive (activeNodes : NodeMap ι) : NodeStoreServers ι :=
  { s with activeNodes := activeNodes }

def delete (ptr : Nat) : NodeStoreServers ι :=
  { s with freed := s.freed ++ [ptr] }

variable (m : NodeMap ι)

@[simp] theorem setActive_activeNodes : (s.setActive m).activeNodes = m := rfl
@[simp] theorem setActive_localNode : (s.setActive m).localNode = s.localNode := rfl
@[simp] theorem setActive_setActive (m m' : NodeMap ι) :
    (s.setActive m).setActive m' = s.setActive m' := rfl
@[simp] theorem delete_activeNodes (p : Nat) : (s.delete p).activeNodes = s.activeNodes := rfl
@[simp] theorem delete_deletedNodes (p : Nat) : (s.delete p).deletedNodes = s.deletedNodes := rfl
/-! ## Adding nodes -/

/-- The numeric ID of the local or an active node with this string ID, 0 if there is none. -/
def retrieveNumIDFromStringID (nodeID : Text) : Nat :=
  match s.localNode with
  | some node =>
    if nodeID = node.stringID then node.numID else activeNumID s.activeNodes nodeID
  | none => activeNumID s.activeNodes nodeID
where
  activeNumID (activeNodes : NodeMap ι) (nodeID : Text) : Nat :=
    match activeNodes.elems.find? fun p => decide (p.2.referencedObject.stringID = nodeID) with
    | some p => p.2.referencedObject.numID
    | none => 0

def checkNodeNumIDCollision (numID : Nat) : Bool :=
  s.isLocal numID || (s.activeNodes.find numID).isSome ||
    s.deletedNodes.elems.any fun p => decide (numID = p.2.referencedObject.numID)

/-- The loop ends when the 16-bit counter overflows to 0. -/
def generateNodeNumID (nodeID : Text) : Nat :=
  let previousNumID := s.retrieveNumIDFromStringID nodeID
  if previousNumID ≠ 0 then previousNumID
  else if NODESTORE_MAX_NODENUMIDS ≤ s.activeNodes.elems.length + s.deletedNodes.elems.length then 0
  else
    ((List.range' 1 65535).find? fun newNumID => !(s.checkNodeNumIDCollision newNumID)).getD 0

/-- `addOrUpdateNodeUnlocked` from where the node has its numeric ID. -/
def addOrUpdateWithNumID (node : Node ι) (numID : Nat) (s : NodeStoreServers ι) :
    (Bool × Nat) × NodeStoreServers ι :=
  match s.activeNodes.find numID with
  | some refer =>
    let nodeNonRef := refer.referencedObject
    if nodeNonRef.stringID ≠ node.stringID then ((false, 0), s.delete node.ptr)
    else
      let updated := { refer with referencedObject := { nodeNonRef with info := node.info } }
      ((false, numID), (s.setActive (s.activeNodes.put numID updated)).delete node.ptr)
  | none =>
    let existingNumID := s.retrieveNumIDFromStringID node.stringID
    if existingNumID ≠ 0 ∧ existingNumID ≠ numID then
      ((false, existingNumID), s.delete node.ptr)
    else
      let refer := ObjectReferencer.new { node with numID := numID }
      ((true, numID), s.setActive (s.activeNodes.put numID refer))

/-- Answers whether the node was inserted, and `outNodeNumID`. -/
def addOrUpdateNodeUnlocked (node : Node ι) (s : NodeStoreServers ι) :
    (Bool × Nat) × NodeStoreServers ι :=
  if s.isLocal node.numID then ((false, node.numID), s.delete node.ptr)
  else
    let numID := if node.numID = 0 then s.generateNodeNumID node.stringID else node.numID
    if numID = 0 then ((false, 0), s.delete node.ptr) else s.addOrUpdateWithNumID node numID

/-! ## References -/

/-- `reference` of the node at this position of the active nodes. -/
def referenceActive (numID : Nat) (refer : NodeReferencer ι) : NodeStoreServers ι :=
  s.setActive (s.activeNodes.put numID refer.reference)

def referenceNode (id : Nat) : Option (Node ι) × NodeStoreServers ι :=
  match s.localNode with
  | some node => if id = node.numID then (some node, s) else activeNode
  | none => activeNode
where
  activeNode : Option (Node ι) × NodeStoreServers ι :=
    match s.activeNodes.find id with
    | some refer => (some refer.referencedObject, s.referenceActive id refer)
    | none => (none, s)

/-- `activeNodes.insert` of the local node, which leaves an entry with its numeric ID alone. -/
def insertLocal : NodeStoreServers ι :=
  match s.localNode with
  | none => s
  | some node =>
    if (s.activeNodes.find node.numID).isSome then s
    else s.setActive (s.activeNodes.put node.numID (ObjectReferencer.new node))

/-- `activeNodes.erase` of the numeric ID of the local node. -/
def eraseLocal : NodeStoreServers ι :=
  match s.localNode with
  | none => s
  | some node => s.setActive (s.activeNodes.remove node.numID)

/-- Reference the node at a position of the active nodes, if there is one. -/
def referenceAt (pos : Option (Nat × NodeReferencer ι)) : Option (Node ι) × NodeStoreServers ι :=
  match pos with
  | none => (none, s)
  | some (numID, refer) => (some refer.referencedObject, s.referenceActive numID refer)

def referenceFirstNode : Option (Node ι) × NodeStoreServers ι :=
  let inserted := s.insertLocal
  let (node, referenced) := inserted.referenceAt inserted.activeNodes.elems.head?
  (node, referenced.eraseLocal)

/-- The entry that the code inserts for an unknown ID only marks the position before the next
node. -/
def referenceNextNode (id : Nat) : Option (Node ι) × NodeStoreServers ι :=
  let insertLocalNode := s.localNode.any fun node => decide (id ≤ node.numID)
  let inserted := if insertLocalNode then s.insertLocal else s
  let (node, referenced) :=
    inserted.referenceAt (inserted.activeNodes.elems.find? fun p => decide (id < p.1))
  (node, if insertLocalNode then referenced.eraseLocal else referenced)

/-- Looks for the pointer in the deleted nodes first, because its numeric ID may be in use
again. -/
def releaseNode (node : Nat × Nat) : NodeStoreServers ι :=
  match s.deletedNodes.find node.2 with
  | some refer =>
    if refer.release.refCount = 0 then
      ({ s with deletedNodes := s.deletedNodes.remove node.2 }).delete node.2
    else { s with deletedNodes := s.deletedNodes.put node.2 refer.release }
  | none =>
    match s.activeNodes.find node.1 with
    | some refer => s.setActive (s.activeNodes.put node.1 refer.release)
    | none => s

def deleteNode (id : Nat) : Bool × NodeStoreServers ι :=
  match s.activeNodes.find id with
  | none => (false, s)
  | some refer =>
    let node := refer.referencedObject
    if refer.refCount ≠ 0 then
      (true, { s with
        deletedNodes := s.deletedNodes.put node.ptr refer
        activeNodes := s.activeNodes.remove id })
    else (true, (s.setActive (s.activeNodes.remove id)).delete node.ptr)

/-! ## Synchronization -/

/-- What phase 1 of `syncNodes` finds. `unchanged` are the nodes of the master list that it
deletes as objects. -/
structure SyncPlan (ι : Type) where
  outAddedNumIDs : List Nat
  outRemovedNumIDs : List Nat
  addLaterNodes : List (Node ι)
  unchanged : List Nat

/-- The loop over the active numeric IDs and the master list, and the two loops behind it. Each
step moves on in at least one of them. -/
def identifyChanges (isLocal : Nat → Bool) (updateExisting : Bool) :
    Nat → List Nat → List (Node ι) → SyncPlan ι → SyncPlan ι
  | 0, _, _, plan => plan
  | _ + 1, [], [], plan => plan
  | steps + 1, [], node :: masterList, plan =>
    identifyChanges isLocal updateExisting steps [] masterList
      { plan with
        outAddedNumIDs := plan.outAddedNumIDs ++ [node.numID]
        addLaterNodes := plan.addLaterNodes ++ [node] }
  | steps + 1, currentActive :: active, [], plan =>
    identifyChanges isLocal updateExisting steps active []
      (if isLocal currentActive then plan
        else { plan with outRemovedNumIDs := plan.outRemovedNumIDs ++ [currentActive] })
  | steps + 1, currentActive :: active, node :: masterList, plan =>
    if node.numID < currentActive then
      identifyChanges isLocal updateExisting steps (currentActive :: active) masterList
        { plan with
          outAddedNumIDs := plan.outAddedNumIDs ++ [node.numID]
          addLaterNodes := plan.addLaterNodes ++ [node] }
    else if currentActive < node.numID then
      identifyChanges isLocal updateExisting steps active (node :: masterList)
        (if isLocal currentActive then plan
          else { plan with outRemovedNumIDs := plan.outRemovedNumIDs ++ [currentActive] })
    else
      identifyChanges isLocal updateExisting steps active masterList
        (if updateExisting then { plan with addLaterNodes := plan.addLaterNodes ++ [node] }
          else { plan with unchanged := plan.unchanged ++ [node.ptr] })

/-- Answers `outAddedNumIDs` and `outRemovedNumIDs`. Without a local node its numeric ID is 0,
which no node has. -/
def syncNodes (masterList : List (Node ι)) (updateExisting : Bool) (s : NodeStoreServers ι) :
    (List Nat × List Nat) × NodeStoreServers ι :=
  let inserted := s.insertLocal
  let active := inserted.activeNodes.elems.map Prod.fst
  let localNodeNumID := (s.localNode.map Node.numID).getD 0
  let plan := identifyChanges (fun id => decide (localNodeNumID = id)) updateExisting
    (active.length + masterList.length) active masterList ⟨[], [], [], []⟩
  let identified := plan.unchanged.foldl delete inserted.eraseLocal
  let removed := plan.outRemovedNumIDs.foldl (fun s id => (s.deleteNode id).2) identified
  let added := plan.addLaterNodes.foldl (fun s node => (s.addOrUpdateNodeUnlocked node).2) removed
  ((plan.outAddedNumIDs, plan.outRemovedNumIDs), added)

end NodeStoreServers

end Fhgfs.Nodes
