import Fhgfs.Nodes.NodeStoreSync

/-!
# Runs of the node store

A run calls the operations of `NodeStoreServers` one after another. It knows the references that
were given out and not released, and the nodes that were handed to the store. A pointer stands
for one object, also after the object is freed.
-/

namespace Fhgfs.Nodes

variable {ι : Type}

inductive NodeStoreOp (ι : Type) where
  | addOrUpdateNode (node : Node ι)
  | referenceNode (id : Nat)
  | referenceFirstNode
  | referenceNextNode (id : Nat)
  | releaseNode (node : Nat × Nat)
  | deleteNode (id : Nat)
  | syncNodes (masterList : List (Node ι)) (updateExisting : Bool)

structure NodeStoreRun (ι : Type) where
  store : NodeStoreServers ι
  handles : List (Nat × Nat)
  given : List Nat

namespace NodeStoreRun

open NodeStoreServers (FreeStringID AsksForOwnID Fresh Kept)
open NodeStoreServers.Kept (taken)

def init (localNode : Option (Node ι)) : NodeStoreRun ι :=
  ⟨NodeStoreServers.init localNode, [], []⟩

def take (r : NodeStoreRun ι) (result : Option (Node ι) × NodeStoreServers ι) : NodeStoreRun ι :=
  { r with store := result.2, handles := r.handles ++ taken result.1 }

def step (r : NodeStoreRun ι) : NodeStoreOp ι → NodeStoreRun ι
  | .addOrUpdateNode node =>
    { r with
      store := (r.store.addOrUpdateNodeUnlocked node).2
      given := r.given ++ [node.ptr] }
  | .referenceNode id => r.take (r.store.referenceNode id)
  | .referenceFirstNode => r.take r.store.referenceFirstNode
  | .referenceNextNode id => r.take (r.store.referenceNextNode id)
  | .releaseNode node =>
    { r with store := r.store.releaseNode node, handles := r.handles.erase node }
  | .deleteNode id => { r with store := (r.store.deleteNode id).2 }
  | .syncNodes masterList updateExisting =>
    { r with
      store := (r.store.syncNodes masterList updateExisting).2
      given := r.given ++ masterList.map Node.ptr }

/-- Callers hand over fresh nodes, which do not ask for a numeric ID in the name of the local
node, release what they hold, and synchronize with an ordered list. -/
def Admitted (r : NodeStoreRun ι) : NodeStoreOp ι → Prop
  | .addOrUpdateNode node => r.store.Fresh {p | p ∈ r.given} [node]
  | .releaseNode node => node ∈ r.handles
  | .syncNodes masterList _ => r.store.Fresh {p | p ∈ r.given} masterList ∧
      (masterList.map Node.numID).Pairwise (· < ·)
  | _ => True

instance (s : NodeStoreServers ι) (given : List Nat) (nodes : List (Node ι)) :
    Decidable (s.Fresh {p | p ∈ given} nodes) :=
  decidable_of_iff
    ((∀ node ∈ nodes, node.numID = 0 → ∀ l ∈ s.localNode, l.stringID ≠ node.stringID) ∧
      (∀ node ∈ nodes, node.ptr ∉ given ∧ ∀ l ∈ s.localNode, l.ptr ≠ node.ptr) ∧
      (nodes.map Node.ptr).Nodup)
    ⟨fun ⟨hAsks, hNew, hDistinct⟩ => ⟨hAsks, hNew, hDistinct⟩, fun h => ⟨h.asks, h.new, h.distinct⟩⟩

instance (r : NodeStoreRun ι) : (op : NodeStoreOp ι) → Decidable (r.Admitted op)
  | .addOrUpdateNode node =>
    inferInstanceAs (Decidable (r.store.Fresh {p | p ∈ r.given} [node]))
  | .releaseNode node => inferInstanceAs (Decidable (node ∈ r.handles))
  | .syncNodes masterList _ => inferInstanceAs (Decidable (
      r.store.Fresh {p | p ∈ r.given} masterList ∧
        (masterList.map Node.numID).Pairwise (· < ·)))
  | .referenceNode _ | .referenceFirstNode | .referenceNextNode _ | .deleteNode _ =>
    .isTrue trivial

/-- What holds between two operations. -/
structure Consistent (r : NodeStoreRun ι) : Prop where
  numIDs : ∀ n n' refer refer', r.store.activeNodes.find n = some refer →
    r.store.activeNodes.find n' = some refer' →
    refer.referencedObject.numID = refer'.referencedObject.numID → n = n'
  stringIDs : ∀ n n' refer refer', r.store.activeNodes.find n = some refer →
    r.store.activeNodes.find n' = some refer' →
    refer.referencedObject.stringID = refer'.referencedObject.stringID → n = n'
  notBoth : ∀ n refer, r.store.activeNodes.find n = some refer →
    r.store.deletedNodes.find refer.referencedObject.ptr = none
  activeCount : ∀ n refer, r.store.activeNodes.find n = some refer →
    refer.refCount = handlesTo r.handles refer.referencedObject.ptr
  deletedCount : ∀ p refer, r.store.deletedNodes.find p = some refer →
    refer.refCount = handlesTo r.handles p ∧ 0 < refer.refCount
  freed : ∀ p ∈ r.given, (∀ n refer, r.store.activeNodes.find n = some refer →
    refer.referencedObject.ptr ≠ p) → (p ∈ r.store.freed ↔ handlesTo r.handles p = 0)
  live : ∀ n refer, r.store.activeNodes.find n = some refer →
    refer.referencedObject.ptr ∉ r.store.freed
  freedOnce : r.store.freed.Nodup
  synced : ∀ masterList updateExisting, r.Admitted (.syncNodes masterList updateExisting) →
    r.store.Differences masterList (r.store.syncNodes masterList updateExisting).1 ∧
    ((∀ m ∈ masterList, m.numID ≠ 0) →
      r.store.Synced masterList (r.store.syncNodes masterList updateExisting).2)

section Invariant

variable {r : NodeStoreRun ι}

def Inv (r : NodeStoreRun ι) : Prop := r.store.Kept r.handles {p | p ∈ r.given}

theorem Inv.init {localNode : Option (Node ι)} (hLocal : ∀ l ∈ localNode, l.numID ≠ 0) :
    (NodeStoreRun.init localNode).Inv := by
  unfold Inv NodeStoreRun.init NodeStoreServers.init
  refine ⟨⟨?_, ?_, fun l hl => ⟨hLocal l hl, rfl, ?_⟩⟩, ?_, ?_, ?_⟩
  · simp
  · simp
  · simp
  · constructor <;> simp
  · simp
  · simp

theorem Inv.step (h : r.Inv) {op : NodeStoreOp ι} (hOp : r.Admitted op) : (r.step op).Inv := by
  cases op with
  | addOrUpdateNode node =>
    have hNext := Kept.addFresh h hOp
    have hGiven : insert node.ptr {p | p ∈ r.given} = {p | p ∈ r.given ++ [node.ptr]} := by
      ext p
      simp [or_comm]
    rwa [hGiven] at hNext
  | referenceNode id => exact Kept.referenceNode h id
  | referenceFirstNode => exact Kept.referenceFirstNode h
  | referenceNextNode id => exact Kept.referenceNextNode h id
  | releaseNode node => exact Kept.releaseNode h hOp
  | deleteNode id => exact Kept.deleteNode h id
  | syncNodes masterList updateExisting =>
    have hNext := Kept.syncNodes h hOp.1 hOp.2 updateExisting
    have hGiven : {p | p ∈ r.given} ∪ {p | p ∈ masterList.map Node.ptr} =
        {p | p ∈ r.given ++ masterList.map Node.ptr} := by
      ext p
      rw [Set.mem_union, Set.mem_ofPred_eq, Set.mem_ofPred_eq, Set.mem_ofPred_eq, List.mem_append]
    rwa [hGiven] at hNext

theorem Inv.consistent (h : r.Inv) : r.Consistent where
  numIDs := fun n n' refer refer' hFind hFind' hSame => by
    rw [← (h.named.numID n refer hFind).1, ← (h.named.numID n' refer' hFind').1, hSame]
  stringIDs := h.named.stringID
  notBoth := fun n refer hFind => by
    cases hDeleted : r.store.deletedNodes.find refer.referencedObject.ptr with
    | none => rfl
    | some refer' => exact absurd rfl (h.lifetimes.apart n refer _ refer' hFind hDeleted)
  activeCount := h.lifetimes.active_count
  deletedCount := fun p refer hFind =>
    ⟨h.lifetimes.retired_count p refer hFind, h.lifetimes.retired_used p refer hFind⟩
  freed := fun p hp hGone => h.lifetimes.mem_freed_iff hp hGone
  live := fun n refer hFind hFreed =>
    ((h.lifetimes.freed_iff _).mp hFreed).2.1 n refer hFind rfl
  freedOnce := h.lifetimes.freed_once
  synced := fun masterList updateExisting hOp =>
    ⟨NodeStoreServers.syncNodes_differences h.named hOp.2, fun hNonzero =>
      Kept.synced h hOp.1 hOp.2 hNonzero updateExisting⟩

end Invariant

/-- Every state that a run reaches is consistent. -/
theorem consistent_of_reachable {localNode : Option (Node ι)}
    (hLocal : ∀ l ∈ localNode, l.numID ≠ 0) {r : NodeStoreRun ι}
    (h : Run.Reachable step (· = init localNode) Admitted r) : r.Consistent := by
  have hInv : r.Inv := by
    refine h.invariant (I := Inv) ?_ ?_
    · rintro s rfl
      exact Inv.init hLocal
    · intro s op hs hOp
      exact hs.step hOp
  exact hInv.consistent

theorem consistent_of_reachable_deleted :
    Consistent (Run.after step (init (some ⟨0, 1, ['l'], ()⟩))
      [.addOrUpdateNode ⟨1, 3, ['a'], ()⟩, .referenceNode 3, .deleteNode 3,
        .addOrUpdateNode ⟨2, 0, ['a'], ()⟩, .syncNodes [⟨3, 1, ['l'], ()⟩, ⟨4, 5, ['c'], ()⟩] true,
        .releaseNode (3, 1)]) := by
  have hStart : Run.Reachable step (· = init (some ⟨0, 1, ['l'], ()⟩)) Admitted
    (init (some ⟨0, 1, ['l'], ()⟩)) := .start rfl
  exact consistent_of_reachable (by decide) (hStart.after (by decide))

/-- The store keeps the string IDs that it knows: it rejects a node with one of them, and the
synchronization reports the node as added. -/
theorem not_syncNodes_active : ¬ ∀ r : NodeStoreRun Unit,
    Run.Reachable step (· = init none) Admitted r → ∀ masterList updateExisting,
      r.Admitted (.syncNodes masterList updateExisting) → ∀ n,
        ((r.store.syncNodes masterList updateExisting).2.activeNodes.find n).isSome = true ↔
          n ∈ masterList.map Node.numID := by
  intro hAll
  have hStart : Run.Reachable step (· = init none) Admitted (init (none : Option (Node Unit))) :=
    .start rfl
  have hReached : Run.Reachable step (· = init none) Admitted
      (Run.after step (init none) [.addOrUpdateNode ⟨1, 3, ['x'], ()⟩]) :=
    hStart.after (by decide)
  have hActive := hAll _ hReached [⟨2, 3, ['y'], ()⟩, ⟨3, 5, ['x'], ()⟩] false (by decide) 5
  exact absurd hActive (by decide)

end NodeStoreRun

end Fhgfs.Nodes
