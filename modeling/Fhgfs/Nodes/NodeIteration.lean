import Fhgfs.Lib.Run
import Fhgfs.Nodes.NodeStoreServers

/-!
# Iterations over the nodes

A thread iterates with `referenceFirstNode` and `referenceNextNode` and remembers only the numeric
ID of the last node. Between its steps other threads add, update, delete and release nodes.

* `referenceFirstNode_first`, `referenceNextNode_first`: what one step gets, with the local node
  among the active ones.
* `iteration_correct`: no node that stays is missed or returned again.
-/

namespace Fhgfs.Nodes

open OrderedMap

variable {ι : Type} {n k : Nat}

/-- The least number with the property, if there is one. -/
def FirstOf (P : Nat → Prop) : Option Nat → Prop
  | none => ∀ n, ¬ P n
  | some first => P first ∧ ∀ n, P n → first ≤ n

theorem FirstOf.congr {P Q : Nat → Prop} (hSame : ∀ n, P n ↔ Q n) {first : Option Nat}
    (h : FirstOf P first) : FirstOf Q first := by
  obtain rfl : P = Q := funext fun n => propext (hSame n)
  exact h

namespace NodeMap

variable {m : NodeMap ι} {refer : NodeReferencer ι}

def numIDs (m : NodeMap ι) : List Nat := m.elems.map Prod.fst

/-- Every node has the numeric ID that it is stored under. -/
def Keyed (m : NodeMap ι) : Prop := ∀ p ∈ m, p.2.referencedObject.numID = p.1

theorem Keyed.put (h : Keyed m) (hRefer : refer.referencedObject.numID = k) :
    Keyed (m.put k refer) := by
  intro p hp
  rcases mem_put.mp hp with hOld | rfl
  · exact h p hOld.1
  · exact hRefer

theorem Keyed.remove (h : Keyed m) (k : Nat) : Keyed (m.remove k) :=
  fun p hp => h p (mem_remove.mp hp).1

theorem Keyed.find (h : Keyed m) (hFind : m.find k = some refer) :
    refer.referencedObject.numID = k :=
  h (k, refer) (find_eq_some.mp hFind)

theorem mem_numIDs_put : n ∈ numIDs (m.put k refer) ↔ n = k ∨ n ∈ numIDs m := by
  simp only [numIDs, mem_keys, find_put]
  split_ifs with hSame <;> simp [hSame]

theorem mem_numIDs_remove : n ∈ numIDs (m.remove k) ↔ n ≠ k ∧ n ∈ numIDs m := by
  simp only [numIDs, mem_keys, find_remove]
  split_ifs with hSame <;> simp [hSame]

theorem firstOf_find? (m : NodeMap ι) (q : Nat → Bool) :
    FirstOf (fun n => n ∈ numIDs m ∧ q n = true) ((m.elems.find? fun p => q p.1).map Prod.fst) := by
  cases hFind : m.elems.find? fun p => q p.1 with
  | none =>
    rintro n ⟨hIn, hn⟩
    obtain ⟨p, hp, rfl⟩ := List.mem_map.mp hIn
    exact List.find?_eq_none.mp hFind p hp hn
  | some p =>
    obtain ⟨hq, before, after, hElems, hBefore⟩ := List.find?_eq_some_iff_append.mp hFind
    refine ⟨⟨List.mem_map_of_mem (List.mem_of_find?_eq_some hFind), hq⟩, ?_⟩
    rintro n ⟨hIn, hn⟩
    obtain ⟨p', hp', rfl⟩ := List.mem_map.mp hIn
    have hAscending := m.ascending
    rw [hElems] at hp' hAscending
    rcases List.mem_append.mp hp' with hEarlier | hHere
    · exact absurd hn (by simpa using hBefore p' hEarlier)
    · rcases List.mem_cons.mp hHere with rfl | hLater
      · exact le_rfl
      · exact (List.rel_of_pairwise_cons (List.pairwise_append.mp hAscending).2.1 hLater).le

end NodeMap

namespace NodeStoreServers

open NodeMap (Keyed mem_numIDs_put mem_numIDs_remove)

variable {s : NodeStoreServers ι}

def numIDs (s : NodeStoreServers ι) : List Nat := NodeMap.numIDs s.insertLocal.activeNodes

theorem mem_numIDs : n ∈ s.numIDs ↔ s.isLocal n = true ∨ n ∈ NodeMap.numIDs s.activeNodes := by
  unfold numIDs insertLocal isLocal
  cases s.localNode with
  | none => simp
  | some l =>
    simp only [Option.any_some, decide_eq_true_eq]
    split_ifs with hFound
    · refine (or_iff_right_of_imp ?_).symm
      rintro rfl
      exact mem_keys.mpr (Option.isSome_iff_exists.mp hFound)
    · exact mem_numIDs_put

theorem mem_numIDs_insertLocal : n ∈ s.insertLocal.numIDs ↔ n ∈ s.numIDs := by
  have hLocal : s.insertLocal.isLocal n = s.isLocal n := by
    unfold insertLocal isLocal
    split
    · rfl
    · split_ifs <;> rfl
  rw [mem_numIDs, hLocal]
  exact or_iff_right_of_imp fun h => mem_numIDs.mpr (Or.inl h)

theorem mem_numIDs_eraseLocal : n ∈ s.eraseLocal.numIDs ↔ n ∈ s.numIDs := by
  rw [mem_numIDs, mem_numIDs]
  unfold eraseLocal
  split
  · rfl
  · rename_i l hLocal
    rw [setActive_activeNodes, mem_numIDs_remove]
    simp only [isLocal, setActive_localNode, hLocal, Option.any_some, decide_eq_true_eq]
    tauto

theorem keyed_insertLocal (h : Keyed s.activeNodes) : Keyed s.insertLocal.activeNodes := by
  unfold insertLocal
  split
  · exact h
  · split_ifs
    · exact h
    · exact h.put rfl

theorem keyed_eraseLocal (h : Keyed s.activeNodes) : Keyed s.eraseLocal.activeNodes := by
  unfold eraseLocal
  split
  · exact h
  · exact h.remove _

/-- A step of an iteration gets the first node with the property, and no node comes or goes. -/
structure GetsFirst (s : NodeStoreServers ι) (P : Nat → Prop)
    (result : Option (Node ι) × NodeStoreServers ι) : Prop where
  first : FirstOf P (result.1.map Node.numID)
  keyed : Keyed result.2.activeNodes
  same : ∀ n, n ∈ result.2.numIDs ↔ n ∈ s.numIDs

theorem referenceAt_first (h : Keyed s.activeNodes) (q : Nat → Bool) :
    s.GetsFirst (fun n => n ∈ NodeMap.numIDs s.activeNodes ∧ q n = true)
      (s.referenceAt (s.activeNodes.elems.find? fun p => q p.1)) := by
  have hFirst := NodeMap.firstOf_find? s.activeNodes q
  cases hFind : s.activeNodes.elems.find? fun p => q p.1 with
  | none =>
    rw [hFind] at hFirst
    exact ⟨hFirst, h, fun _ => Iff.rfl⟩
  | some p =>
    rw [hFind] at hFirst
    have hNumID := h p (List.mem_of_find?_eq_some hFind)
    refine ⟨?_, h.put hNumID, fun n => ?_⟩
    · show FirstOf _ (some p.2.referencedObject.numID)
      rwa [hNumID]
    · rw [mem_numIDs, mem_numIDs]
      refine or_congr Iff.rfl (mem_numIDs_put.trans (or_iff_right_of_imp ?_))
      rintro rfl
      exact hFirst.1.1

theorem GetsFirst.withLocal {P : Nat → Prop} {result : Option (Node ι) × NodeStoreServers ι}
    (h : s.insertLocal.GetsFirst P result) : s.GetsFirst P (result.1, result.2.eraseLocal) where
  first := h.first
  keyed := keyed_eraseLocal h.keyed
  same n := mem_numIDs_eraseLocal.trans ((h.same n).trans mem_numIDs_insertLocal)

variable (h : Keyed s.activeNodes)
include h

theorem referenceFirstNode_first : s.GetsFirst (· ∈ s.numIDs) s.referenceFirstNode := by
  have hHead : s.insertLocal.activeNodes.elems.head? =
      s.insertLocal.activeNodes.elems.find? fun _ => true := by
    cases s.insertLocal.activeNodes.elems <;> rfl
  have hFirst := (referenceAt_first (keyed_insertLocal h) fun _ => true).withLocal
  rw [← hHead] at hFirst
  exact ⟨hFirst.first.congr fun _ => and_iff_left rfl, hFirst.keyed, hFirst.same⟩

theorem referenceNextNode_first (id : Nat) :
    s.GetsFirst (fun n => n ∈ s.numIDs ∧ id < n) (s.referenceNextNode id) := by
  have hAbove : ∀ n, decide (id < n) = true ↔ id < n := fun _ => decide_eq_true_iff
  unfold referenceNextNode
  by_cases hLocal : s.localNode.any (fun node => decide (id ≤ node.numID)) = true
  · have hFirst := (referenceAt_first (keyed_insertLocal h) fun n => decide (id < n)).withLocal
    simp only [hLocal, if_true]
    exact ⟨hFirst.first.congr fun n => and_congr Iff.rfl (hAbove n), hFirst.keyed, hFirst.same⟩
  have hFirst := referenceAt_first h fun n => decide (id < n)
  simp only [hLocal, Bool.false_eq_true, if_false]
  refine ⟨hFirst.first.congr fun n => ?_, hFirst.keyed, hFirst.same⟩
  rw [hAbove, mem_numIDs, or_and_right]
  -- the local node is not behind the position
  refine (or_iff_right ?_).symm
  rintro ⟨hIs, hLt⟩
  unfold isLocal at hIs
  cases hNode : s.localNode with
  | none => simp [hNode] at hIs
  | some l =>
    simp only [hNode, Option.any_some, decide_eq_true_eq] at hIs hLocal
    omega

theorem keyed_addOrUpdateNodeUnlocked (node : Node ι) :
    Keyed (s.addOrUpdateNodeUnlocked node).2.activeNodes := by
  unfold addOrUpdateNodeUnlocked
  dsimp only
  generalize (if node.numID = 0 then s.generateNodeNumID node.stringID else node.numID) = numID
  unfold addOrUpdateWithNumID
  split_ifs
  · exact h
  · exact h
  cases hFind : s.activeNodes.find numID with
  | some refer =>
    have hNumID := h.find hFind
    dsimp only
    split_ifs
    · exact h
    · exact h.put hNumID
  | none =>
    dsimp only
    split_ifs
    · exact h
    · exact h.put rfl

theorem keyed_deleteNode (id : Nat) : Keyed (s.deleteNode id).2.activeNodes := by
  unfold deleteNode
  split
  · exact h
  · dsimp only
    split_ifs <;> exact h.remove id

theorem keyed_releaseNode (node : Nat × Nat) : Keyed (s.releaseNode node).activeNodes := by
  unfold releaseNode
  split
  · split_ifs <;> exact h
  · split
    · rename_i refer hFind
      have hNumID := h.find hFind
      exact h.put hNumID
    · exact h

end NodeStoreServers

open NodeStoreServers (keyed_addOrUpdateNodeUnlocked keyed_deleteNode keyed_releaseNode)

/-- The store and what the iterating thread got, by numeric IDs. -/
structure NodeIteration (ι : Type) where
  store : NodeStoreServers ι
  returned : List Nat
  ended : Bool

inductive NodeIterationCall (ι : Type)
  | addOrUpdateNode (node : Node ι)
  | deleteNode (id : Nat)
  | releaseNode (node : Nat × Nat)
  /-- By the iterating thread. -/
  | next

def NodeIterationCall.isNext : NodeIterationCall ι → Bool
  | next => true
  | _ => false

namespace NodeIteration

open Run

def start (store : NodeStoreServers ι) : NodeIteration ι := ⟨store, [], false⟩

def reference (s : NodeIteration ι) : Option (Node ι) × NodeStoreServers ι :=
  match s.returned.getLast? with
  | none => s.store.referenceFirstNode
  | some id => s.store.referenceNextNode id

def step (s : NodeIteration ι) : NodeIterationCall ι → NodeIteration ι
  | .addOrUpdateNode node => { s with store := (s.store.addOrUpdateNodeUnlocked node).2 }
  | .deleteNode id => { s with store := (s.store.deleteNode id).2 }
  | .releaseNode node => { s with store := s.store.releaseNode node }
  | .next =>
    if s.ended then s
    else
      match s.reference.1 with
      | none => ⟨s.reference.2, s.returned, true⟩
      | some node => ⟨s.reference.2, s.returned ++ [node.numID], false⟩

/-- The numeric IDs that the iteration has not passed. -/
def Above (s : NodeIteration ι) (n : Nat) : Prop := ∀ id ∈ s.returned, id < n

instance (s : NodeIteration ι) : DecidablePred s.Above :=
  fun n => inferInstanceAs (Decidable (∀ id ∈ s.returned, id < n))

/-- The call adds no node that the iteration has not passed. -/
def NoneAbove (s : NodeIteration ι) (call : NodeIterationCall ι) : Prop :=
  ∀ n, s.Above n → n ∈ (s.step call).store.numIDs → n ∈ s.store.numIDs

structure Inv (s : NodeIteration ι) : Prop where
  keyed : NodeMap.Keyed s.store.activeNodes
  ascending : s.returned.Pairwise (· < ·)

variable {s : NodeIteration ι}

theorem Inv.above_iff (h : s.Inv) (hLast : s.returned.getLast? = some k) : s.Above n ↔ k < n := by
  obtain ⟨before, hReturned⟩ := List.getLast?_eq_some_iff.mp hLast
  have hAscending := h.ascending
  unfold Above
  rw [hReturned] at hAscending ⊢
  refine ⟨fun hAbove => hAbove k (by simp), fun hLt id hid => ?_⟩
  rcases List.mem_append.mp hid with hBefore | hHere
  · exact ((List.pairwise_append.mp hAscending).2.2 id hBefore k (by simp)).trans hLt
  · rwa [List.mem_singleton.mp hHere]

theorem Inv.reference (h : s.Inv) :
    s.store.GetsFirst (fun n => n ∈ s.store.numIDs ∧ s.Above n) s.reference := by
  unfold NodeIteration.reference
  cases hLast : s.returned.getLast? with
  | none =>
    have hFirst := NodeStoreServers.referenceFirstNode_first h.keyed
    refine ⟨hFirst.first.congr fun n => (and_iff_left ?_).symm, hFirst.keyed, hFirst.same⟩
    rw [Above, List.getLast?_eq_none_iff.mp hLast]
    simp
  | some id =>
    have hFirst := NodeStoreServers.referenceNextNode_first h.keyed id
    exact ⟨hFirst.first.congr fun n => and_congr Iff.rfl (h.above_iff hLast).symm, hFirst.keyed,
      hFirst.same⟩

theorem inv_step (h : s.Inv) (call : NodeIterationCall ι) : (s.step call).Inv := by
  cases call with
  | addOrUpdateNode node => exact ⟨keyed_addOrUpdateNodeUnlocked h.keyed node, h.ascending⟩
  | deleteNode id => exact ⟨keyed_deleteNode h.keyed id, h.ascending⟩
  | releaseNode node => exact ⟨keyed_releaseNode h.keyed node, h.ascending⟩
  | next =>
    have hFirst := h.reference
    unfold step
    dsimp only
    split_ifs
    · exact h
    split
    · exact ⟨hFirst.keyed, h.ascending⟩
    rename_i node hNode
    refine ⟨hFirst.keyed, List.pairwise_append.mpr ⟨h.ascending, by simp, ?_⟩⟩
    rintro id hid k hk
    have hGot := hFirst.first
    rw [hNode] at hGot
    rw [List.mem_singleton.mp hk]
    exact hGot.1.2 id hid

theorem inv_after (h : s.Inv) (calls : List (NodeIterationCall ι)) : (after step s calls).Inv :=
  after_invariant (A := fun _ _ => True) step (fun _ call hs _ => inv_step hs call) h
    (everyStep_of_forall step fun _ _ _ => trivial)

/-- What was passed and stayed was returned, and at the end all was passed. -/
def Visited (s : NodeIteration ι) (n : Nat) : Prop :=
  n ∈ s.returned ∨ s.Above n ∧ s.ended = false

theorem visited_step (h : s.Inv) (hIn : n ∈ s.store.numIDs) (hVisited : s.Visited n)
    (call : NodeIterationCall ι) : (s.step call).Visited n := by
  cases call with
  | addOrUpdateNode node => exact hVisited
  | deleteNode id => exact hVisited
  | releaseNode node => exact hVisited
  | next =>
    have hFirst := h.reference.first
    unfold step
    dsimp only
    split_ifs
    · exact hVisited
    split
    · rename_i hNone
      rw [hNone] at hFirst
      exact Or.inl (hVisited.resolve_right fun hAbove => hFirst n ⟨hIn, hAbove.1⟩)
    rename_i node hNode
    rw [hNode] at hFirst
    rcases hVisited with hReturned | ⟨hAbove, -⟩
    · exact Or.inl (List.mem_append_left _ hReturned)
    rcases (hFirst.2 n ⟨hIn, hAbove⟩).eq_or_lt with rfl | hLt
    · exact Or.inl (List.mem_append_right _ (List.mem_singleton_self _))
    · refine Or.inr ⟨fun id hid => ?_, rfl⟩
      rcases List.mem_append.mp hid with hBefore | hHere
      · exact hAbove id hBefore
      · rwa [List.mem_singleton.mp hHere]

theorem visited_after (h : s.Inv) (hVisited : s.Visited n) {calls : List (NodeIterationCall ι)}
    (hIn : Throughout step (fun s => n ∈ s.store.numIDs) s calls) :
    (after step s calls).Visited n := by
  induction calls generalizing s with
  | nil => exact hVisited
  | cons call calls ih => exact ih (inv_step h call) (visited_step h hIn.1 hVisited call) hIn.2

theorem ended_after (hEnded : s.ended = true) (calls : List (NodeIterationCall ι)) :
    (after step s calls).ended = true := by
  induction calls generalizing s with
  | nil => exact hEnded
  | cons call calls ih =>
    apply ih
    cases call with
    | next => simp [step, hEnded]
    | _ => exact hEnded

theorem ends_of_noneAbove (h : s.Inv) {left : List Nat}
    (hLeft : ∀ n ∈ s.store.numIDs, s.Above n → n ∈ left)
    {calls : List (NodeIterationCall ι)} (hNone : EveryStep step NoneAbove s calls)
    (hMany : left.length < calls.countP NodeIterationCall.isNext) :
    (after step s calls).ended = true := by
  induction calls generalizing s left with
  | nil => exact absurd hMany (Nat.not_lt_zero _)
  | cons call calls ih =>
    cases call with
    | next =>
      rw [List.countP_cons_of_pos rfl] at hMany
      have hFirst := h.reference
      have hNext := inv_step h .next
      have hRest := hNone.2
      rw [after_cons]
      unfold step at hNext hRest ⊢
      split_ifs at hNext hRest ⊢ with hEnded
      · exact ended_after hEnded calls
      cases hNode : s.reference.1 with
      | none => exact ended_after rfl calls
      | some node =>
        have hGot := hFirst.first
        simp only [hNode] at hGot hNext hRest ⊢
        have hHere := hLeft _ hGot.1.1 hGot.1.2
        have hErased : ∀ n ∈ s.reference.2.numIDs,
            (⟨s.reference.2, s.returned ++ [node.numID], false⟩ : NodeIteration ι).Above n →
              n ∈ left.erase node.numID := by
          intro n hIn hAbove
          have hNe : n ≠ node.numID :=
            (hAbove node.numID (List.mem_append_right _ (List.mem_singleton_self _))).ne'
          exact (List.mem_erase_of_ne hNe).mpr (hLeft n ((hFirst.same n).mp hIn)
            fun id hid => hAbove id (List.mem_append_left _ hid))
        refine ih hNext hErased hRest ?_
        rw [List.length_erase_of_mem hHere]
        have := List.length_pos_of_mem hHere
        omega
    | _ =>
      exact ih (inv_step h _) (fun n hIn hAbove => hLeft n (hNone.1 n hAbove hIn) hAbove) hNone.2
        hMany

/-- In every run, from a store that any calls have reached: the numeric IDs ascend, a node that is
there all the time is returned once, and without new nodes behind the position the iteration ends
after as many steps as there are nodes behind it, and one. -/
theorem iteration_correct (localNode : Option (Node ι))
    (before calls : List (NodeIterationCall ι)) :
    let s := start (after step (start (.init localNode)) before).store
    (after step s calls).returned.Pairwise (· < ·) ∧
    (∀ n, Throughout step (fun s => n ∈ s.store.numIDs) s calls →
      (after step s calls).ended = true → (after step s calls).returned.count n = 1) ∧
    ∀ later, EveryStep step NoneAbove (after step s calls) later →
      ((after step s calls).store.numIDs.filter (after step s calls).Above).length <
        later.countP NodeIterationCall.isNext →
      (after step s (calls ++ later)).ended = true := by
  intro s
  have hInit : (start (.init localNode : NodeStoreServers ι)).Inv :=
    ⟨fun p hp => absurd hp (OrderedSet.not_mem_empty p), List.Pairwise.nil⟩
  have hStart : s.Inv := ⟨(inv_after hInit before).keyed, List.Pairwise.nil⟩
  have hAfter := inv_after hStart calls
  refine ⟨hAfter.ascending, fun n hIn hEnded => ?_, fun later hNone hMany => ?_⟩
  · have hVisited := visited_after hStart (n := n) (Or.inr ⟨by simp [Above, s, start], rfl⟩) hIn
    refine List.count_eq_one_of_mem (hAfter.ascending.imp ne_of_lt)
      (hVisited.resolve_right fun hNot => ?_)
    exact absurd hEnded (Bool.eq_false_iff.mp hNot.2)
  · rw [after, List.foldl_append]
    refine ends_of_noneAbove hAfter (fun n hIn hAbove => ?_) hNone hMany
    exact List.mem_filter.mpr ⟨hIn, decide_eq_true hAbove⟩

end NodeIteration

end Fhgfs.Nodes
