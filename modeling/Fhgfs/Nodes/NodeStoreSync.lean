import Fhgfs.Nodes.NodeStoreLifetimes

/-!
# Synchronization of nodes

`syncNodes` finds the differences between the store and an ordered master list, and leaves the
nodes of the list as the active ones unless their IDs contradict the store.
-/

namespace Fhgfs.Nodes

open List Node Function OrderedMap

variable {ι : Type}

namespace NodeStoreServers

/-- The plan for the rest of two ordered lists, behind what is planned already. -/
def SyncPlan.behind (plan : SyncPlan ι) (isLocal : Nat → Bool) (updateExisting : Bool)
    (active : List Nat) (masterList : List (Node ι)) : SyncPlan ι where
  outAddedNumIDs := plan.outAddedNumIDs ++
    (masterList.filter fun node => decide (node.numID ∉ active)).map Node.numID
  outRemovedNumIDs := plan.outRemovedNumIDs ++
    active.filter fun id => decide (id ∉ masterList.map Node.numID) && !isLocal id
  addLaterNodes := plan.addLaterNodes ++
    masterList.filter fun node => decide (node.numID ∉ active) || updateExisting
  unchanged := plan.unchanged ++
    (masterList.filter fun node => decide (node.numID ∈ active) && !updateExisting).map Node.ptr

section Loop

variable {isLocal : Nat → Bool} {updateExisting : Bool} {plan : SyncPlan ι} {active : List Nat}
  {masterList : List (Node ι)} {node : Node ι} {currentActive : Nat}

theorem behind_added (hNew : node.numID ∉ active) :
    plan.behind isLocal updateExisting active (node :: masterList) = SyncPlan.behind { plan with
        outAddedNumIDs := plan.outAddedNumIDs ++ [node.numID]
        addLaterNodes := plan.addLaterNodes ++ [node] }
        isLocal updateExisting active masterList := by
  unfold SyncPlan.behind
  have hGone : (active.filter fun id => decide (id ∉ (node :: masterList).map numID) &&
      !isLocal id) =
      active.filter fun id => decide (id ∉ masterList.map numID) && !isLocal id := by
    apply filter_congr
    intro id hid
    have hNe : id ≠ node.numID := fun h => hNew (h ▸ hid)
    simp [hNe]
  rw [hGone]
  simp [hNew]

theorem filter_active_cons (active : List Nat)
    (hOther : ∀ node ∈ masterList, node.numID ≠ currentActive)
    (b : Bool → Bool) :
    (masterList.filter fun node => b (decide (node.numID ∈ currentActive :: active))) =
      masterList.filter fun node => b (decide (node.numID ∈ active)) := by
  apply filter_congr
  intro node hNode
  have hMem : node.numID ∈ currentActive :: active ↔ node.numID ∈ active :=
    mem_cons.trans (or_iff_right (hOther node hNode))
  rw [decide_eq_decide.mpr hMem]

theorem behind_removed (hGone : ∀ node ∈ masterList, node.numID ≠ currentActive) :
    plan.behind isLocal updateExisting (currentActive :: active) masterList =
      (if isLocal currentActive then plan
        else { plan with outRemovedNumIDs := plan.outRemovedNumIDs ++ [currentActive] }).behind
          isLocal updateExisting active masterList := by
  have hNotIn : currentActive ∉ masterList.map numID := by
    intro hIn
    obtain ⟨node, hNode, hSame⟩ := mem_map.mp hIn
    exact hGone node hNode hSame
  have hAdded := filter_active_cons active hGone not
  have hLater := filter_active_cons active hGone fun b => !b || updateExisting
  have hUnchanged := filter_active_cons active hGone fun b => b && !updateExisting
  unfold SyncPlan.behind
  simp only [decide_not]
  rw [hAdded, hLater, hUnchanged, filter_cons]
  by_cases hLocal : isLocal currentActive = true
  · simp [hLocal]
  · simp [hLocal, hNotIn]

theorem behind_unchanged (hHead : ∀ node ∈ masterList, node.numID ≠ currentActive)
    (hTail : currentActive ∉ active) (hSame : node.numID = currentActive) :
    plan.behind isLocal updateExisting (currentActive :: active) (node :: masterList) =
      (if updateExisting then { plan with addLaterNodes := plan.addLaterNodes ++ [node] }
        else { plan with unchanged := plan.unchanged ++ [node.ptr] }).behind
          isLocal updateExisting active masterList := by
  have hRemoved : (active.filter fun id =>
        !(decide (id ∈ (node :: masterList).map numID)) && !isLocal id) =
      active.filter fun id => !(decide (id ∈ masterList.map numID)) && !isLocal id := by
    apply filter_congr
    intro id hid
    have hNe : id ≠ node.numID := fun h => hTail (hSame ▸ h ▸ hid)
    simp [hNe]
  have hAdded := filter_active_cons active hHead not
  have hLater := filter_active_cons active hHead fun b => !b || updateExisting
  have hUnchanged := filter_active_cons active hHead fun b => b && !updateExisting
  unfold SyncPlan.behind
  simp only [decide_not]
  rw [filter_cons, filter_cons, filter_cons, filter_cons, hAdded, hLater, hUnchanged, hRemoved]
  cases updateExisting
  · simp [hSame]
  · simp [hSame]

theorem identifyChanges_eq (hActive : active.Pairwise (· < ·))
    (hMaster : (masterList.map numID).Pairwise (· < ·)) {steps : Nat}
    (hSteps : active.length + masterList.length ≤ steps) :
    identifyChanges isLocal updateExisting steps active masterList plan =
      plan.behind isLocal updateExisting active masterList := by
  induction steps generalizing active masterList plan with
  | zero =>
    obtain rfl : active = [] := eq_nil_of_length_eq_zero (by omega)
    obtain rfl : masterList = [] := eq_nil_of_length_eq_zero (by omega)
    simp [identifyChanges, SyncPlan.behind]
  | succ steps ih =>
    cases active with
    | nil =>
      cases masterList with
      | nil => simp [identifyChanges, SyncPlan.behind]
      | cons node masterList =>
        rw [map_cons, pairwise_cons] at hMaster
        rw [length_cons] at hSteps
        rw [identifyChanges, ih hActive hMaster.2 (by omega), behind_added not_mem_nil]
    | cons currentActive active =>
      have hActive' := pairwise_cons.mp hActive
      cases masterList with
      | nil =>
        rw [length_cons] at hSteps
        rw [identifyChanges, ih hActive'.2 hMaster (by omega), behind_removed (by simp)]
      | cons node masterList =>
        have hMaster' := pairwise_cons.mp (map_cons ▸ hMaster)
        have hHead : ∀ other ∈ masterList, node.numID < other.numID := fun other hOther =>
          hMaster'.1 _ (mem_map_of_mem hOther)
        rw [length_cons, length_cons] at hSteps
        have hAhead : ∀ m ∈ masterList, m.numID ≠ node.numID := fun m hm => (hHead m hm).ne'
        unfold identifyChanges
        by_cases hLess : node.numID < currentActive
        · have hNew : node.numID ∉ currentActive :: active := by
            intro hIn
            rcases mem_cons.mp hIn with hSame | hLater
            · omega
            · have := hActive'.1 _ hLater
              omega
          rw [if_pos hLess, ih hActive hMaster'.2 (by rw [length_cons]; omega), behind_added hNew]
        rw [if_neg hLess]
        by_cases hGreater : currentActive < node.numID
        · have hGone : ∀ m ∈ node :: masterList, m.numID ≠ currentActive := by
            intro m hm
            rcases mem_cons.mp hm with rfl | hLater
            · omega
            · have := hHead m hLater
              omega
          rw [if_pos hGreater, ih hActive'.2 hMaster (by rw [length_cons]; omega),
            behind_removed hGone]
        · have hSame : node.numID = currentActive := by omega
          rw [if_neg hGreater, ih hActive'.2 hMaster'.2 (by omega),
            behind_unchanged (hSame ▸ hAhead) (fun hIn => (hActive'.1 _ hIn).ne rfl) hSame]

end Loop

/-! ## The identities of the active nodes -/

/-- The object and the string ID of an active node. Both stay as long as it is active. -/
def identity (s : NodeStoreServers ι) (numID : Nat) : Option (Nat × Text) :=
  (s.activeNodes.find numID).map fun r => (r.referencedObject.ptr, r.referencedObject.stringID)

section Identity

open Function (update)

variable {s s' : NodeStoreServers ι} {node : Node ι} {nodes : List (Node ι)} {n : Nat}

theorem identity_congr (h : ∀ n, s'.activeNodes.find n = s.activeNodes.find n) :
    s'.identity = s.identity := by
  funext n
  unfold identity
  rw [h]

theorem identity_eq_none : s.identity n = none ↔ s.activeNodes.find n = none := by
  unfold identity
  rw [Option.map_eq_none_iff]

theorem freeStringID_iff {stringID : Text} : s.FreeStringID stringID ↔
    (∀ n x, s.identity n = some x → x.2 ≠ stringID) ∧ ∀ l ∈ s.localNode, l.stringID ≠ stringID := by
  refine and_congr_left fun _ => ⟨?_, ?_⟩
  · intro h n x hx
    obtain ⟨r, hFind, rfl⟩ := Option.map_eq_some_iff.mp hx
    exact h n r hFind
  · intro h n r hFind
    exact h n _ (Option.map_eq_some_iff.mpr ⟨r, hFind, rfl⟩)

section

variable (s : NodeStoreServers ι)

theorem deleteNode_localNode (id : Nat) : (s.deleteNode id).2.localNode = s.localNode := by
  unfold deleteNode
  cases s.activeNodes.find id with
  | none => rfl
  | some r =>
    dsimp only
    split_ifs <;> rfl

theorem find_deleteNode (id n : Nat) :
    (s.deleteNode id).2.activeNodes.find n = if n = id then none else s.activeNodes.find n := by
  rw [← find_remove]
  unfold deleteNode
  cases hFind : s.activeNodes.find id with
  | none => rw [remove_of_find hFind]
  | some r =>
    dsimp only
    split_ifs <;> rfl

theorem addOrUpdateNodeUnlocked_localNode (node : Node ι) :
    (s.addOrUpdateNodeUnlocked node).2.localNode = s.localNode := by
  have hWith : ∀ numID, (s.addOrUpdateWithNumID node numID).2.localNode = s.localNode := by
    intro numID
    unfold addOrUpdateWithNumID
    cases s.activeNodes.find numID with
    | none | some r =>
      dsimp only
      split_ifs <;> rfl
  unfold addOrUpdateNodeUnlocked
  dsimp only
  by_cases hLocal : s.isLocal node.numID = true
  · rw [if_pos hLocal]
    rfl
  · rw [if_neg hLocal]
    split_ifs
    all_goals first | rfl | exact hWith _

end

open Classical in
theorem identity_addOrUpdateNode (hs : s.Named) (hNonzero : node.numID ≠ 0) :
    (s.addOrUpdateNodeUnlocked node).2.identity =
      if s.isLocal node.numID = false ∧ s.identity node.numID = none ∧
        s.FreeStringID node.stringID
      then update s.identity node.numID (some (node.ptr, node.stringID)) else s.identity := by
  unfold addOrUpdateNodeUnlocked
  by_cases hLocal : s.isLocal node.numID = true
  · rw [if_pos hLocal, if_neg (by simp [hLocal])]
    rfl
  rw [if_neg hLocal, if_neg hNonzero, if_neg hNonzero]
  unfold addOrUpdateWithNumID
  cases hFind : s.activeNodes.find node.numID with
  | some r =>
    have hTaken : s.identity node.numID ≠ none := by
      rw [ne_eq, identity_eq_none, hFind]
      simp
    have hNot : ¬(s.isLocal node.numID = false ∧ s.identity node.numID = none ∧
        s.FreeStringID node.stringID) := fun h => hTaken h.2.1
    rw [if_neg hNot]
    dsimp only
    by_cases hString : r.referencedObject.stringID ≠ node.stringID
    · rw [if_pos hString]
      rfl
    rw [if_neg hString]
    funext n
    unfold identity
    rw [delete_activeNodes, setActive_activeNodes, find_put]
    split_ifs with hn
    · rw [hn, hFind]
      rfl
    · rfl
  | none =>
    have hFreeIff : s.FreeStringID node.stringID ↔
        ¬(s.retrieveNumIDFromStringID node.stringID ≠ 0 ∧
          s.retrieveNumIDFromStringID node.stringID ≠ node.numID) := by
      rcases retrieveNumIDFromStringID_spec hs node.stringID with
        ⟨l, hl, hString, hNum⟩ | ⟨r, hActive, hString⟩ | ⟨hZero, hFree⟩
      · refine iff_of_false (fun hFree => hFree.2 l hl hString) (not_not.mpr ⟨?_, ?_⟩)
        · rw [hNum]
          exact (hs.localID l hl).1
        · rw [hNum]
          exact fun hSame => hLocal (isLocal_iff.mpr ⟨l, hl, hSame.symm⟩)
      · refine iff_of_false (fun hFree => hFree.1 _ r hActive hString) (not_not.mpr ⟨?_, ?_⟩)
        · exact (hs.numID _ r hActive).2
        · intro hSame
          rw [hSame, hFind] at hActive
          cases hActive
      · exact iff_of_true hFree (fun h => h.1 hZero)
    by_cases hFree : s.FreeStringID node.stringID
    · rw [if_neg (hFreeIff.mp hFree),
        if_pos ⟨by simpa using hLocal, identity_eq_none.mpr hFind, hFree⟩]
      funext n
      unfold identity
      rw [setActive_activeNodes, find_put, update_apply]
      split_ifs <;> rfl
    · rw [if_pos (not_not.mp fun h => hFree (hFreeIff.mpr h)), if_neg fun h => hFree h.2.2]
      rfl

end Identity

/-! ## Nodes that the store takes over -/

/-- Objects that no one knows yet, as nodes that `addOrUpdateNode` may be called with. -/
structure Fresh (s : NodeStoreServers ι) (given : Set Nat) (nodes : List (Node ι)) : Prop where
  asks : ∀ node ∈ nodes, s.AsksForOwnID node.numID node.stringID
  new : ∀ node ∈ nodes, node.ptr ∉ given ∧ ∀ l ∈ s.localNode, l.ptr ≠ node.ptr
  distinct : (nodes.map Node.ptr).Nodup

section Fresh

variable {s s' : NodeStoreServers ι} {handles : List (Nat × Nat)} {given : Set Nat}
  {node : Node ι} {nodes : List (Node ι)}

theorem Fresh.tail (h : s.Fresh given (node :: nodes)) (hLocal : s'.localNode = s.localNode) :
    s'.Fresh (insert node.ptr given) nodes := by
  have hDistinct := nodup_cons.mp (map_cons ▸ h.distinct)
  refine ⟨fun m hm => ?_, fun m hm => ?_, hDistinct.2⟩
  · unfold AsksForOwnID
    rw [hLocal]
    exact h.asks m (mem_cons_of_mem _ hm)
  · have hNew := h.new m (mem_cons_of_mem _ hm)
    have hNe : m.ptr ≠ node.ptr := fun hSame =>
      hDistinct.1 (hSame ▸ mem_map_of_mem hm)
    refine ⟨?_, hLocal ▸ hNew.2⟩
    rw [Set.mem_insert_iff, not_or]
    exact ⟨hNe, hNew.1⟩

theorem Fresh.mono {given' : Set Nat} (h : s.Fresh given nodes) {nodes' : List (Node ι)}
    (hLocal : s'.localNode = s.localNode) (hSub : nodes'.Sublist nodes)
    (hGiven : ∀ m ∈ nodes', m.ptr ∈ given' → m.ptr ∈ given) : s'.Fresh given' nodes' := by
  refine ⟨fun m hm => ?_, fun m hm => ?_, h.distinct.sublist (hSub.map _)⟩
  · unfold AsksForOwnID
    rw [hLocal]
    exact h.asks m (hSub.subset hm)
  · have hNew := h.new m (hSub.subset hm)
    exact ⟨fun hIn => hNew.1 (hGiven m hm hIn), hLocal ▸ hNew.2⟩

theorem Fresh.head (h : s.Fresh given (node :: nodes)) : s.Fresh given [node] :=
  h.mono rfl (sublist_cons_iff.mpr (Or.inr ⟨[], rfl, nil_sublist _⟩)) fun _ _ hIn => hIn

theorem Kept.unknown (h : s.Kept handles given) (hFresh : s.Fresh given nodes)
    (hNode : node ∈ nodes) : ∀ x ∈ handles, x.2 ≠ node.ptr := by
  intro x hx hSame
  have hNew := hFresh.new node hNode
  obtain ⟨l, hl, rfl⟩ := h.others x hx (hSame ▸ hNew.1)
  exact hNew.2 l hl hSame

theorem Kept.foldl (op : NodeStoreServers ι → Node ι → NodeStoreServers ι)
    (hLocal : ∀ s node, (op s node).localNode = s.localNode)
    (hOp : ∀ s given node, s.Kept handles given → s.Fresh given [node] →
      (op s node).Kept handles (insert node.ptr given))
    (h : s.Kept handles given) (hFresh : s.Fresh given nodes) :
    (nodes.foldl op s).Kept handles (given ∪ {p | p ∈ nodes.map ptr}) := by
  induction nodes generalizing s given with
  | nil => simpa using h
  | cons node nodes ih =>
    have hRest := ih (hOp s given node h hFresh.head) (hFresh.tail (hLocal s node))
    have hSame : insert node.ptr given ∪ {p | p ∈ nodes.map ptr} =
        given ∪ {p | p ∈ (node :: nodes).map ptr} := by
      ext p
      simp only [Set.mem_union, Set.mem_insert_iff, Set.mem_ofPred_eq, map_cons, mem_cons]
      tauto
    rwa [hSame] at hRest

section

variable (h : s.Kept handles given) (hFresh : s.Fresh given [node])
include h hFresh

theorem Kept.addFresh :
    (s.addOrUpdateNodeUnlocked node).2.Kept handles (insert node.ptr given) := by
  have hNew := hFresh.new node mem_cons_self
  exact h.addOrUpdateNode (hFresh.asks node mem_cons_self) hNew.1
    (h.unknown hFresh mem_cons_self) hNew.2

theorem Kept.deleteFresh : (s.delete node.ptr).Kept handles (insert node.ptr given) := by
  have hNew := hFresh.new node mem_cons_self
  exact h.delete hNew.1 (h.unknown hFresh mem_cons_self) hNew.2

end

theorem Kept.foldl_deleteNode (h : s.Kept handles given) (ids : List Nat) :
    (ids.foldl (fun s id => (s.deleteNode id).2) s).Kept handles given := by
  induction ids generalizing s with
  | nil => exact h
  | cons id ids ih => exact ih (h.deleteNode id)

end Fresh

/-! ## The loops of the second phase -/

section Loops

variable {s : NodeStoreServers ι} {handles : List (Nat × Nat)} {given : Set Nat}
  {nodes : List (Node ι)} {n : Nat} {x : Nat × Text}

theorem foldl_delete (ps : List Nat) (s : NodeStoreServers ι) :
    (ps.foldl delete s).activeNodes = s.activeNodes ∧
      (ps.foldl delete s).localNode = s.localNode := by
  induction ps generalizing s with
  | nil => exact ⟨rfl, rfl⟩
  | cons p ps ih => exact ih (s.delete p)

section

variable (ids : List Nat) (s : NodeStoreServers ι)

theorem foldl_deleteNode_localNode :
    (ids.foldl (fun s id => (s.deleteNode id).2) s).localNode = s.localNode := by
  induction ids generalizing s with
  | nil => rfl
  | cons id ids ih => exact (ih _).trans (deleteNode_localNode s id)

theorem identity_foldl_deleteNode (n : Nat) :
    (ids.foldl (fun s id => (s.deleteNode id).2) s).identity n =
      if n ∈ ids then none else s.identity n := by
  induction ids generalizing s with
  | nil => simp
  | cons id ids ih =>
    have hHere : (s.deleteNode id).2.identity n = if n = id then none else s.identity n := by
      unfold identity
      rw [find_deleteNode]
      split_ifs <;> rfl
    rw [foldl_cons, ih, hHere]
    by_cases hId : n = id
    · simp [hId]
    · simp [hId]

end

theorem foldl_addOrUpdateNode_localNode (nodes : List (Node ι)) (s : NodeStoreServers ι) :
    (nodes.foldl (fun s node => (s.addOrUpdateNodeUnlocked node).2) s).localNode = s.localNode := by
  induction nodes generalizing s with
  | nil => rfl
  | cons node nodes ih => exact (ih _).trans (addOrUpdateNodeUnlocked_localNode s node)

theorem identity_addOrUpdateNode_of_some {node : Node ι} (hs : s.Named)
    (hNonzero : node.numID ≠ 0) (hActive : s.identity n = some x) :
    (s.addOrUpdateNodeUnlocked node).2.identity n = some x := by
  rw [identity_addOrUpdateNode hs hNonzero]
  split_ifs with hNew
  · have hNe : n ≠ node.numID := by
      rintro rfl
      rw [hNew.2.1] at hActive
      cases hActive
    rw [update_of_ne hNe, hActive]
  · exact hActive

section

variable (h : s.Kept handles given) (hFresh : s.Fresh given nodes)
  (hNonzero : ∀ m ∈ nodes, m.numID ≠ 0)
include h hFresh hNonzero

theorem identity_foldl_of_some (hActive : s.identity n = some x) :
    (nodes.foldl (fun s node => (s.addOrUpdateNodeUnlocked node).2) s).identity n = some x := by
  induction nodes generalizing s given with
  | nil => exact hActive
  | cons node nodes ih =>
    have hHead := hFresh.head
    refine ih (h.addFresh hHead) (hFresh.tail (addOrUpdateNodeUnlocked_localNode s node))
      (fun m hm => hNonzero m (mem_cons_of_mem _ hm)) ?_
    exact identity_addOrUpdateNode_of_some h.named (hNonzero node mem_cons_self) hActive

theorem identity_foldl_cases
    (hActive : (nodes.foldl (fun s node => (s.addOrUpdateNodeUnlocked node).2) s).identity n =
      some x) :
    s.identity n = some x ∨ s.identity n = none ∧ s.isLocal n = false ∧
      ∃ m ∈ nodes, m.numID = n ∧ x = (m.ptr, m.stringID) := by
  induction nodes generalizing s given with
  | nil => exact Or.inl hActive
  | cons node nodes ih =>
    have hHead := hFresh.head
    have hLocal := addOrUpdateNodeUnlocked_localNode s node
    have hIsLocal : (s.addOrUpdateNodeUnlocked node).2.isLocal n = s.isLocal n := by
      unfold isLocal
      rw [hLocal]
    have hStep := identity_addOrUpdateNode h.named (hNonzero node mem_cons_self)
    rcases ih (h.addFresh hHead) (hFresh.tail hLocal)
        (fun m hm => hNonzero m (mem_cons_of_mem _ hm)) hActive with
      hBefore | ⟨hNone, hNotLocal, m, hm, hNum, hx⟩
    · rw [hStep] at hBefore
      split_ifs at hBefore with hNew
      · by_cases hn : n = node.numID
        · rw [hn, update_self, Option.some_inj] at hBefore
          right
          rw [hn]
          exact ⟨hNew.2.1, hNew.1, node, mem_cons_self, rfl, hBefore.symm⟩
        · rw [update_of_ne hn] at hBefore
          exact Or.inl hBefore
      · exact Or.inl hBefore
    · right
      refine ⟨?_, hIsLocal ▸ hNotLocal, m, mem_cons_of_mem _ hm, hNum, hx⟩
      cases hFirst : s.identity n with
      | none => rfl
      | some y =>
        rw [identity_addOrUpdateNode_of_some h.named (hNonzero node mem_cons_self)
          hFirst] at hNone
        cases hNone

theorem identity_foldl_ne_none
    (hFree : ∀ m ∈ nodes, s.isLocal m.numID = false → s.identity m.numID = none →
      s.FreeStringID m.stringID)
    (hApart : ∀ m ∈ nodes, ∀ m' ∈ nodes, s.isLocal m.numID = false →
      s.identity m.numID = none → s.isLocal m'.numID = false → s.identity m'.numID = none →
      m.stringID = m'.stringID → m.numID = m'.numID)
    {m : Node ι} (hm : m ∈ nodes) (hNotLocal : s.isLocal m.numID = false) :
    (nodes.foldl (fun s node => (s.addOrUpdateNodeUnlocked node).2) s).identity m.numID ≠ none := by
  induction nodes generalizing s given with
  | nil => cases hm
  | cons node nodes ih =>
    have hHead := hFresh.head
    have hLocal := addOrUpdateNodeUnlocked_localNode s node
    have hIsLocal : ∀ n, (s.addOrUpdateNodeUnlocked node).2.isLocal n = s.isLocal n := by
      intro n
      unfold isLocal
      rw [hLocal]
    have hNodeNonzero := hNonzero node mem_cons_self
    have hStep := identity_addOrUpdateNode h.named hNodeNonzero
    have hBefore : ∀ n, (s.addOrUpdateNodeUnlocked node).2.identity n = none →
        s.identity n = none := by
      intro n hNone
      cases hFirst : s.identity n with
      | none => rfl
      | some y =>
        rw [identity_addOrUpdateNode_of_some h.named hNodeNonzero hFirst] at hNone
        cases hNone
    have hFreshTail := hFresh.tail hLocal
    have hNonzeroTail : ∀ m ∈ nodes, m.numID ≠ 0 := fun m hm => hNonzero m (mem_cons_of_mem _ hm)
    rcases mem_cons.mp hm with rfl | hLater
    · have hHere : (s.addOrUpdateNodeUnlocked m).2.identity m.numID ≠ none := by
        rw [hStep]
        split_ifs with hNew
        · rw [update_self]
          simp
        · intro hNone
          exact hNew ⟨hNotLocal, hNone, hFree m mem_cons_self hNotLocal hNone⟩
      obtain ⟨y, hy⟩ := Option.ne_none_iff_exists'.mp hHere
      rw [foldl_cons, identity_foldl_of_some (h.addFresh hHead) hFreshTail hNonzeroTail hy]
      simp
    · refine ih (h.addFresh hHead) hFreshTail hNonzeroTail ?_ ?_ hLater
        ((hIsLocal m.numID).trans hNotLocal)
      · intro m' hm' hNotLocal' hNone'
        rw [hIsLocal] at hNotLocal'
        have hOld := hBefore _ hNone'
        have hFreeOld := freeStringID_iff.mp
          (hFree m' (mem_cons_of_mem _ hm') hNotLocal' hOld)
        rw [freeStringID_iff, hLocal]
        refine ⟨fun n x hx => ?_, hFreeOld.2⟩
        rw [hStep] at hx hNone'
        split_ifs at hx hNone' with hNew
        · by_cases hn : n = node.numID
          · rw [hn, update_self, Option.some_inj] at hx
            rw [← hx]
            intro hSame
            have hNum := hApart node mem_cons_self m' (mem_cons_of_mem _ hm')
              hNew.1 hNew.2.1 hNotLocal' hOld hSame
            rw [← hNum, update_self] at hNone'
            cases hNone'
          · rw [update_of_ne hn] at hx
            exact hFreeOld.1 n x hx
        · exact hFreeOld.1 n x hx
      · intro m₁ h₁ m₂ h₂ hLocal₁ hNone₁ hLocal₂ hNone₂
        rw [hIsLocal] at hLocal₁ hLocal₂
        exact hApart m₁ (mem_cons_of_mem _ h₁) m₂ (mem_cons_of_mem _ h₂) hLocal₁
          (hBefore _ hNone₁) hLocal₂ (hBefore _ hNone₂)

end

end Loops

/-! ## The result of the synchronization -/

/-- Nodes of the store, the local one among them. -/
def listed (s : NodeStoreServers ι) (n : Nat) : Bool := s.isLocal n || (s.activeNodes.find n).isSome

/-- The reported lists are the differences between the store and the master list. -/
structure Differences (s : NodeStoreServers ι) (masterList : List (Node ι))
    (out : List Nat × List Nat) : Prop where
  added : ∀ n, n ∈ out.1 ↔ n ∈ masterList.map Node.numID ∧ s.listed n = false
  removed : ∀ n, n ∈ out.2 ↔ (s.activeNodes.find n).isSome = true ∧ n ∉ masterList.map Node.numID
  addedOrder : out.1.Pairwise (· < ·)
  removedOrder : out.2.Pairwise (· < ·)

/-- Each new node of the list has a string ID of its own: neither that of the local node, nor
that of a node that stays, nor that of another new node. -/
structure OwnStringIDs (s : NodeStoreServers ι) (masterList : List (Node ι)) : Prop where
  localNode : ∀ m ∈ masterList, s.listed m.numID = false →
    ∀ l ∈ s.localNode, l.stringID ≠ m.stringID
  kept : ∀ m ∈ masterList, s.listed m.numID = false → ∀ n r, s.activeNodes.find n = some r →
    n ∈ masterList.map Node.numID → r.referencedObject.stringID ≠ m.stringID
  new : ∀ m ∈ masterList, ∀ m' ∈ masterList, s.listed m.numID = false →
    s.listed m'.numID = false → m.stringID = m'.stringID → m.numID = m'.numID

section Sync

variable {s : NodeStoreServers ι} {handles : List (Nat × Nat)} {given : Set Nat}
  {masterList : List (Node ι)} {updateExisting : Bool}

theorem mem_keys_insertLocal (hs : s.Named) {n : Nat} :
    n ∈ s.insertLocal.activeNodes.elems.map Prod.fst ↔ s.listed n = true := by
  have hKeys : n ∈ s.insertLocal.activeNodes.elems.map Prod.fst ↔
      (s.insertLocal.activeNodes.find n).isSome = true := by
    rw [OrderedMap.mem_keys, Option.isSome_iff_exists]
  rw [hKeys]
  unfold listed
  cases hLocal : s.localNode with
  | none =>
    rw [Kept.insertLocal_none hLocal]
    simp [isLocal, hLocal]
  | some l =>
    rw [Kept.insertLocal_eq hs hLocal, setActive_activeNodes, OrderedMap.find_put]
    by_cases hn : n = l.numID
    · simp [isLocal, hLocal, hn]
    · simp [isLocal, hLocal, hn]

def syncPlan (s : NodeStoreServers ι) (masterList : List (Node ι)) (updateExisting : Bool) :
    SyncPlan ι :=
  SyncPlan.behind ⟨[], [], [], []⟩
    (fun id => decide ((s.localNode.map Node.numID).getD 0 = id)) updateExisting
    (s.insertLocal.activeNodes.elems.map Prod.fst) masterList

/-- The store when only the nodes to add are left. -/
def beforeAdding (s : NodeStoreServers ι) (masterList : List (Node ι)) (updateExisting : Bool) :
    NodeStoreServers ι :=
  (s.syncPlan masterList updateExisting).outRemovedNumIDs.foldl (fun s id => (s.deleteNode id).2)
    ((s.syncPlan masterList updateExisting).unchanged.foldl delete s)

theorem syncNodes_eq (hs : s.Named) (hMaster : (masterList.map numID).Pairwise (· < ·)) :
    s.syncNodes masterList updateExisting = (((s.syncPlan masterList updateExisting).outAddedNumIDs,
        (s.syncPlan masterList updateExisting).outRemovedNumIDs),
      (s.syncPlan masterList updateExisting).addLaterNodes.foldl
        (fun s node => (s.addOrUpdateNodeUnlocked node).2)
        (s.beforeAdding masterList updateExisting)) := by
  have hActive : (s.insertLocal.activeNodes.elems.map Prod.fst).Pairwise (· < ·) :=
    pairwise_map.mpr s.insertLocal.activeNodes.ascending
  unfold syncNodes beforeAdding syncPlan
  dsimp only
  rw [identifyChanges_eq hActive hMaster (le_rfl), Kept.eraseLocal_insertLocal hs]

theorem mem_outAddedNumIDs (hs : s.Named) (updateExisting : Bool) {n : Nat} :
    n ∈ (s.syncPlan masterList updateExisting).outAddedNumIDs ↔
      n ∈ masterList.map numID ∧ s.listed n = false := by
  have hNot : ∀ m : Node ι, m.numID ∉ s.insertLocal.activeNodes.elems.map Prod.fst ↔
      s.listed m.numID = false := fun m => by
    rw [mem_keys_insertLocal hs, Bool.not_eq_true]
  simp only [syncPlan, SyncPlan.behind, nil_append, mem_map, mem_filter, decide_eq_true_eq]
  constructor
  · rintro ⟨m, ⟨hm, hNew⟩, rfl⟩
    exact ⟨⟨m, hm, rfl⟩, (hNot m).mp (by simpa using hNew)⟩
  · rintro ⟨⟨m, hm, rfl⟩, hNew⟩
    exact ⟨m, ⟨hm, by simpa using (hNot m).mpr hNew⟩, rfl⟩

theorem mem_outRemovedNumIDs (hs : s.Named) (updateExisting : Bool) {n : Nat} :
    n ∈ (s.syncPlan masterList updateExisting).outRemovedNumIDs ↔
      (s.activeNodes.find n).isSome = true ∧ n ∉ masterList.map numID := by
  have hLocalID : (s.activeNodes.find n).isSome = true ↔
      s.listed n = true ∧ (s.localNode.map numID).getD 0 ≠ n := by
    unfold listed isLocal
    cases hLocal : s.localNode with
    | none =>
      have hNonzero : (s.activeNodes.find n).isSome = true → 0 ≠ n := by
        intro hSome
        obtain ⟨r, hFind⟩ := Option.isSome_iff_exists.mp hSome
        exact (hs.numID n r hFind).2.symm
      simpa using hNonzero
    | some l =>
      have hNone := (hs.localID l hLocal).2.1
      by_cases hn : l.numID = n
      · subst hn
        simp [hNone]
      · have hOther : ¬n = l.numID := fun h => hn h.symm
        simp [hn, hOther]
  rw [hLocalID, ← mem_keys_insertLocal hs]
  simp only [syncPlan, SyncPlan.behind, nil_append, mem_filter, Bool.and_eq_true,
    Bool.not_eq_true', decide_eq_true_eq, decide_eq_false_iff_not]
  tauto

theorem syncNodes_differences (hs : s.Named) (hMaster : (masterList.map numID).Pairwise (· < ·)) :
    s.Differences masterList (s.syncNodes masterList updateExisting).1 := by
  rw [syncNodes_eq hs hMaster]
  refine ⟨fun n => ?_, fun n => ?_, ?_, ?_⟩
  · exact mem_outAddedNumIDs hs updateExisting
  · exact mem_outRemovedNumIDs hs updateExisting
  · unfold syncPlan SyncPlan.behind
    rw [nil_append]
    exact hMaster.sublist (filter_sublist.map _)
  · unfold syncPlan SyncPlan.behind
    rw [nil_append]
    exact (pairwise_map.mpr s.insertLocal.activeNodes.ascending).filter _

theorem beforeAdding_localNode :
    (s.beforeAdding masterList updateExisting).localNode = s.localNode :=
  (foldl_deleteNode_localNode _ _).trans (foldl_delete _ s).2

theorem identity_beforeAdding (hs : s.Named) (n : Nat) :
    (s.beforeAdding masterList updateExisting).identity n =
      if n ∈ masterList.map numID then s.identity n else none := by
  have hDeleted : ((s.syncPlan masterList updateExisting).unchanged.foldl delete s).identity =
      s.identity := identity_congr fun n => by rw [(foldl_delete _ s).1]
  unfold beforeAdding
  rw [identity_foldl_deleteNode, hDeleted]
  simp only [mem_outRemovedNumIDs hs]
  by_cases hIn : n ∈ masterList.map numID
  · rw [if_pos hIn, if_neg fun h => h.2 hIn]
  rw [if_neg hIn]
  split_ifs with hRemoved
  · rfl
  · rw [identity_eq_none]
    by_contra hSome
    exact hRemoved ⟨Option.isSome_iff_ne_none.mpr hSome, hIn⟩

theorem mem_addLaterNodes (hs : s.Named) {m : Node ι} :
    m ∈ (s.syncPlan masterList updateExisting).addLaterNodes ↔
      m ∈ masterList ∧ (s.listed m.numID = false ∨ updateExisting = true) := by
  simp only [syncPlan, SyncPlan.behind, nil_append, mem_filter, Bool.or_eq_true,
    decide_eq_true_eq, mem_keys_insertLocal hs, Bool.not_eq_true]

section

variable (h : s.Kept handles given) (hFresh : s.Fresh given masterList)
include h hFresh

/-- Each node of the master list is either deleted as an object or left for the second loop. -/
theorem Kept.beforeAdding (updateExisting : Bool) :
    ∃ given', (s.beforeAdding masterList updateExisting).Kept handles given' ∧
      (s.beforeAdding masterList updateExisting).Fresh given'
        (s.syncPlan masterList updateExisting).addLaterNodes ∧
      given' ∪ {p | p ∈ (s.syncPlan masterList updateExisting).addLaterNodes.map ptr} =
        given ∪ {p | p ∈ masterList.map ptr} := by
  obtain ⟨isActive, hActive⟩ : ∃ isActive : Node ι → Bool, isActive =
      fun m => decide (m.numID ∈ s.insertLocal.activeNodes.elems.map Prod.fst) := ⟨_, rfl⟩
  obtain ⟨kept, hKept⟩ : ∃ kept, kept =
      masterList.filter fun m => isActive m && !updateExisting := ⟨_, rfl⟩
  obtain ⟨later, hLater⟩ : ∃ later, later =
      masterList.filter fun m => !isActive m || updateExisting := ⟨_, rfl⟩
  have hPlanKept : (s.syncPlan masterList updateExisting).unchanged = kept.map ptr := by
    simp only [syncPlan, SyncPlan.behind, nil_append, hKept, hActive]
  have hPlanLater : (s.syncPlan masterList updateExisting).addLaterNodes = later := by
    simp only [syncPlan, SyncPlan.behind, nil_append, hLater, hActive, decide_not]
  have hSplit : ∀ m, m ∈ masterList ↔ m ∈ kept ∨ m ∈ later := by
    intro m
    rw [hKept, hLater, mem_filter, mem_filter, ← and_or_left]
    refine (and_iff_left ?_).symm
    cases isActive m <;> cases updateExisting <;> simp
  have hApart : ∀ m ∈ later, m.ptr ∉ kept.map ptr := by
    intro m hm hIn
    obtain ⟨m', hm', hSame⟩ := mem_map.mp hIn
    have hEq : m' = m := inj_on_of_nodup_map hFresh.distinct
      ((hSplit m').mpr (Or.inl hm')) ((hSplit m).mpr (Or.inr hm)) hSame
    rw [hEq, hKept, mem_filter] at hm'
    rw [hLater, mem_filter] at hm
    revert hm hm'
    cases isActive m <;> cases updateExisting <;> simp
  have hDeleted := h.foldl (fun s node => s.delete node.ptr) (fun _ _ => rfl)
    (fun _ _ _ hKept hNew => hKept.deleteFresh hNew)
    (hFresh.mono rfl (hKept ▸ filter_sublist) fun _ _ hIn => hIn)
  rw [← foldl_map (f := ptr) (g := NodeStoreServers.delete), ← hPlanKept] at hDeleted
  refine ⟨given ∪ {p | p ∈ (s.syncPlan masterList updateExisting).unchanged},
    hDeleted.foldl_deleteNode _, ?_, ?_⟩
  · rw [hPlanLater, hPlanKept]
    exact hFresh.mono beforeAdding_localNode (hLater ▸ filter_sublist)
      fun m hm hIn => hIn.resolve_right (hApart m hm)
  · rw [hPlanLater, hPlanKept]
    ext p
    simp only [Set.mem_union, Set.mem_ofPred_eq, mem_map, hSplit, or_and_right, exists_or, or_assoc]

theorem Kept.syncNodes (hMaster : (masterList.map numID).Pairwise (· < ·)) (updateExisting : Bool) :
    (s.syncNodes masterList updateExisting).2.Kept handles
      (given ∪ {p | p ∈ masterList.map ptr}) := by
  obtain ⟨given', hBefore, hFreshLater, hGiven⟩ := h.beforeAdding hFresh updateExisting
  rw [syncNodes_eq h.named hMaster, ← hGiven]
  exact hBefore.foldl (fun s node => (s.addOrUpdateNodeUnlocked node).2)
    (fun s node => addOrUpdateNodeUnlocked_localNode s node)
    (fun _ _ _ hKept hNew => hKept.addFresh hNew) hFreshLater

end

/-- What a synchronization with nonzero numeric IDs leaves. -/
structure Synced (s : NodeStoreServers ι) (masterList : List (Node ι))
    (s' : NodeStoreServers ι) : Prop where
  kept : ∀ n x, s.identity n = some x → n ∈ masterList.map Node.numID → s'.identity n = some x
  origin : ∀ n x, s'.identity n = some x →
    s.identity n = some x ∧ n ∈ masterList.map Node.numID ∨
    s.listed n = false ∧ ∃ m ∈ masterList, m.numID = n ∧ x = (m.ptr, m.stringID)
  active_iff : (∀ n, (s'.activeNodes.find n).isSome = true ↔
      n ∈ masterList.map Node.numID ∧ s.isLocal n = false) ↔ s.OwnStringIDs masterList

theorem listed_eq_false {n : Nat} :
    s.listed n = false ↔ s.isLocal n = false ∧ s.identity n = none := by
  unfold listed
  rw [Bool.or_eq_false_iff, identity_eq_none, Option.isSome_eq_false_iff, Option.isNone_iff_eq_none]

theorem eq_of_stringID {s' : NodeStoreServers ι} (hs : s'.Named) {n n' : Nat}
    {x x' : Nat × Text} (h : s'.identity n = some x) (h' : s'.identity n' = some x')
    (hSame : x.2 = x'.2) : n = n' := by
  obtain ⟨r, hFind, rfl⟩ := Option.map_eq_some_iff.mp h
  obtain ⟨r', hFind', rfl⟩ := Option.map_eq_some_iff.mp h'
  exact hs.stringID n n' r r' hFind hFind' hSame

section Synced

variable (h : s.Kept handles given) (hFresh : s.Fresh given masterList)
  (hMaster : (masterList.map Node.numID).Pairwise (· < ·))
  (hNonzero : ∀ m ∈ masterList, m.numID ≠ 0) (updateExisting : Bool)
include h hFresh hMaster hNonzero

theorem Kept.identity_syncNodes_of_some {n : Nat} {x : Nat × Text}
    (hActive : s.identity n = some x) (hIn : n ∈ masterList.map numID) :
    (s.syncNodes masterList updateExisting).2.identity n = some x := by
  obtain ⟨given', hBefore, hFreshLater, -⟩ := h.beforeAdding hFresh updateExisting
  rw [syncNodes_eq h.named hMaster]
  refine identity_foldl_of_some hBefore hFreshLater
    (fun m hm => hNonzero m ((mem_addLaterNodes h.named).mp hm).1) ?_
  rw [identity_beforeAdding h.named, if_pos hIn, hActive]

theorem Kept.identity_syncNodes_cases {n : Nat} {x : Nat × Text}
    (hActive : (s.syncNodes masterList updateExisting).2.identity n = some x) :
    s.identity n = some x ∧ n ∈ masterList.map numID ∨
      s.listed n = false ∧ ∃ m ∈ masterList, m.numID = n ∧ x = (m.ptr, m.stringID) := by
  obtain ⟨given', hBefore, hFreshLater, -⟩ := h.beforeAdding hFresh updateExisting
  rw [syncNodes_eq h.named hMaster] at hActive
  rcases identity_foldl_cases hBefore hFreshLater
      (fun m hm => hNonzero m ((mem_addLaterNodes h.named).mp hm).1) hActive with
    hOld | ⟨hNone, hNotLocal, m, hm, rfl, hx⟩
  · rw [identity_beforeAdding h.named] at hOld
    split_ifs at hOld with hIn
    exact Or.inl ⟨hOld, hIn⟩
  right
  have hList := ((mem_addLaterNodes h.named).mp hm).1
  rw [identity_beforeAdding h.named, if_pos (mem_map_of_mem hList)] at hNone
  unfold isLocal at hNotLocal
  rw [beforeAdding_localNode] at hNotLocal
  exact ⟨listed_eq_false.mpr ⟨hNotLocal, hNone⟩, m, hList, rfl, hx⟩

theorem Kept.syncNodes_active (hOwn : s.OwnStringIDs masterList) {m : Node ι}
    (hm : m ∈ masterList) (hNotLocal : s.isLocal m.numID = false) :
    (s.syncNodes masterList updateExisting).2.identity m.numID ≠ none := by
  cases hOld : s.identity m.numID with
  | some x =>
    rw [h.identity_syncNodes_of_some hFresh hMaster hNonzero updateExisting hOld
      (mem_map_of_mem hm)]
    simp
  | none =>
    obtain ⟨given', hBefore, hFreshLater, -⟩ := h.beforeAdding hFresh updateExisting
    have hIsLocal : ∀ n, (s.beforeAdding masterList updateExisting).isLocal n = s.isLocal n := by
      intro n
      unfold isLocal
      rw [beforeAdding_localNode]
    have hNew : ∀ m ∈ (s.syncPlan masterList updateExisting).addLaterNodes,
        (s.beforeAdding masterList updateExisting).isLocal m.numID = false →
        (s.beforeAdding masterList updateExisting).identity m.numID = none →
        m ∈ masterList ∧ s.listed m.numID = false := by
      intro m hLater hNotLocal hNone
      have hList := ((mem_addLaterNodes h.named).mp hLater).1
      rw [identity_beforeAdding h.named, if_pos (mem_map_of_mem hList)] at hNone
      exact ⟨hList, listed_eq_false.mpr ⟨hIsLocal m.numID ▸ hNotLocal, hNone⟩⟩
    rw [syncNodes_eq h.named hMaster]
    refine identity_foldl_ne_none hBefore hFreshLater
      (fun m hm => hNonzero m ((mem_addLaterNodes h.named).mp hm).1) ?_ ?_
      ((mem_addLaterNodes h.named).mpr ⟨hm, Or.inl (listed_eq_false.mpr ⟨hNotLocal, hOld⟩)⟩)
      ((hIsLocal m.numID).trans hNotLocal)
    · intro m' hLater hNotLocal' hNone
      obtain ⟨hList, hUnlisted⟩ := hNew m' hLater hNotLocal' hNone
      rw [freeStringID_iff, beforeAdding_localNode]
      refine ⟨fun n x hx => ?_, hOwn.localNode m' hList hUnlisted⟩
      rw [identity_beforeAdding h.named] at hx
      split_ifs at hx with hIn
      obtain ⟨r, hFind, rfl⟩ := Option.map_eq_some_iff.mp hx
      exact hOwn.kept m' hList hUnlisted n r hFind hIn
    · intro m₁ h₁ m₂ h₂ hLocal₁ hNone₁ hLocal₂ hNone₂
      obtain ⟨hList₁, hUnlisted₁⟩ := hNew m₁ h₁ hLocal₁ hNone₁
      obtain ⟨hList₂, hUnlisted₂⟩ := hNew m₂ h₂ hLocal₂ hNone₂
      exact hOwn.new m₁ hList₁ m₂ hList₂ hUnlisted₁ hUnlisted₂

theorem Kept.ownStringIDs (hActive : ∀ m ∈ masterList, s.isLocal m.numID = false →
    (s.syncNodes masterList updateExisting).2.identity m.numID ≠ none) :
    s.OwnStringIDs masterList := by
  have hAfter := (h.syncNodes hFresh hMaster updateExisting).named
  have hHere : ∀ m ∈ masterList, s.listed m.numID = false →
      (s.syncNodes masterList updateExisting).2.identity m.numID = some (m.ptr, m.stringID) := by
    intro m hm hUnlisted
    obtain ⟨hNotLocal, hNone⟩ := listed_eq_false.mp hUnlisted
    obtain ⟨x, hx⟩ := Option.ne_none_iff_exists'.mp (hActive m hm hNotLocal)
    rcases h.identity_syncNodes_cases hFresh hMaster hNonzero updateExisting hx with
      ⟨hOld, -⟩ | ⟨-, m', hm', hNum, rfl⟩
    · rw [hNone] at hOld
      cases hOld
    · have hNodup : (masterList.map numID).Nodup := hMaster.imp fun hLess => hLess.ne
      rw [hx, inj_on_of_nodup_map hNodup hm' hm hNum]
  have hLocalNode : (s.syncNodes masterList updateExisting).2.localNode = s.localNode := by
    rw [syncNodes_eq h.named hMaster]
    exact (foldl_addOrUpdateNode_localNode _ _).trans beforeAdding_localNode
  refine ⟨fun m hm hUnlisted l hl hSame => ?_, fun m hm hUnlisted n r hFind hIn hSame => ?_,
    fun m hm m' hm' hUnlisted hUnlisted' hSame => ?_⟩
  · obtain ⟨r, hFind, hx⟩ := Option.map_eq_some_iff.mp (hHere m hm hUnlisted)
    have hString : r.referencedObject.stringID = m.stringID := congrArg Prod.snd hx
    exact (hAfter.localID l (hLocalNode ▸ hl)).2.2 _ r hFind (hString.trans hSame.symm)
  · have hOld : s.identity n = some (r.referencedObject.ptr, r.referencedObject.stringID) :=
      Option.map_eq_some_iff.mpr ⟨r, hFind, rfl⟩
    have hNum := eq_of_stringID hAfter
      (h.identity_syncNodes_of_some hFresh hMaster hNonzero updateExisting hOld hIn)
      (hHere m hm hUnlisted) hSame
    rw [hNum, (listed_eq_false.mp hUnlisted).2] at hOld
    cases hOld
  · exact eq_of_stringID hAfter (hHere m hm hUnlisted) (hHere m' hm' hUnlisted') hSame

theorem Kept.synced : s.Synced masterList (s.syncNodes masterList updateExisting).2 := by
  have hAfter := (h.syncNodes hFresh hMaster updateExisting).named
  have hLocalNode : (s.syncNodes masterList updateExisting).2.localNode = s.localNode := by
    rw [syncNodes_eq h.named hMaster]
    exact (foldl_addOrUpdateNode_localNode _ _).trans beforeAdding_localNode
  have hSome : ∀ n, ((s.syncNodes masterList updateExisting).2.activeNodes.find n).isSome = true ↔
      (s.syncNodes masterList updateExisting).2.identity n ≠ none := by
    intro n
    rw [ne_eq, identity_eq_none, ← ne_eq, Option.isSome_iff_ne_none]
  have hOnly : ∀ n, (s.syncNodes masterList updateExisting).2.identity n ≠ none →
      n ∈ masterList.map numID ∧ s.isLocal n = false := by
    intro n hActive
    obtain ⟨x, hx⟩ := Option.ne_none_iff_exists'.mp hActive
    obtain ⟨r, hFind, -⟩ := Option.map_eq_some_iff.mp hx
    constructor
    · rcases h.identity_syncNodes_cases hFresh hMaster hNonzero updateExisting hx with
        ⟨-, hIn⟩ | ⟨-, m, hm, rfl, -⟩
      · exact hIn
      · exact mem_map_of_mem hm
    · by_contra hIs
      obtain ⟨l, hl, rfl⟩ := isLocal_iff.mp (Bool.eq_true_of_not_eq_false hIs)
      rw [(hAfter.localID l (hLocalNode ▸ hl)).2.1] at hFind
      cases hFind
  refine ⟨fun n x hActive hIn =>
      h.identity_syncNodes_of_some hFresh hMaster hNonzero updateExisting hActive hIn,
    fun n x hActive => h.identity_syncNodes_cases hFresh hMaster hNonzero updateExisting hActive,
    ?_⟩
  simp only [hSome]
  constructor
  · intro hAll
    refine h.ownStringIDs hFresh hMaster hNonzero updateExisting fun m hm hNotLocal => ?_
    exact (hAll m.numID).mpr ⟨mem_map_of_mem hm, hNotLocal⟩
  · intro hOwn n
    refine ⟨hOnly n, fun ⟨hIn, hNotLocal⟩ => ?_⟩
    obtain ⟨m, hm, rfl⟩ := mem_map.mp hIn
    exact h.syncNodes_active hFresh hMaster hNonzero updateExisting hOwn hm hNotLocal

end Synced

end Sync

end NodeStoreServers

end Fhgfs.Nodes
