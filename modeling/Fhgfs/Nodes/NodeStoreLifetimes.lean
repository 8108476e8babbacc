import Fhgfs.Lib.Lifetimes
import Fhgfs.Lib.Run
import Fhgfs.Nodes.NodeStoreServers

/-!
# IDs and lifetimes of nodes

What every operation of `NodeStoreServers` keeps: active nodes have IDs of their own, and the
nodes live as long as `Lifetimes` says.
-/

namespace Fhgfs.Nodes

open OrderedMap NodeStoreServers List ObjectReferencer

variable {ι : Type}

namespace NodeStoreServers

/-- No two active nodes share an ID, and none has an ID of the local node, which has its numeric
ID from the start. -/
structure Named (s : NodeStoreServers ι) : Prop where
  numID : ∀ n r, s.activeNodes.find n = some r → r.referencedObject.numID = n ∧ n ≠ 0
  stringID : ∀ n n' r r', s.activeNodes.find n = some r → s.activeNodes.find n' = some r' →
    r.referencedObject.stringID = r'.referencedObject.stringID → n = n'
  localID : ∀ l ∈ s.localNode, l.numID ≠ 0 ∧ s.activeNodes.find l.numID = none ∧
    ∀ n r, s.activeNodes.find n = some r → r.referencedObject.stringID ≠ l.stringID

/-- No other node of the store has the string ID. -/
def FreeStringID (s : NodeStoreServers ι) (stringID : Text) : Prop :=
  (∀ n r, s.activeNodes.find n = some r → r.referencedObject.stringID ≠ stringID) ∧
    ∀ l ∈ s.localNode, l.stringID ≠ stringID

/-- A node that `addOrUpdateNode` may be called with: it does not ask for a numeric ID in the
name of the local node. -/
def AsksForOwnID (s : NodeStoreServers ι) (numID : Nat) (stringID : Text) : Prop :=
  numID = 0 → ∀ l ∈ s.localNode, l.stringID ≠ stringID

section Specs

variable {s : NodeStoreServers ι}

theorem isLocal_iff {n : Nat} : s.isLocal n = true ↔ ∃ l ∈ s.localNode, n = l.numID := by
  unfold isLocal
  rw [Option.any_eq_true]
  simp

theorem activeNumID_spec (hs : s.Named) (nodeID : Text) :
    (∃ r, s.activeNodes.find (retrieveNumIDFromStringID.activeNumID s.activeNodes nodeID) = some r ∧
      r.referencedObject.stringID = nodeID) ∨
    retrieveNumIDFromStringID.activeNumID s.activeNodes nodeID = 0 ∧
      ∀ n r, s.activeNodes.find n = some r → r.referencedObject.stringID ≠ nodeID := by
  unfold retrieveNumIDFromStringID.activeNumID
  split
  · rename_i p hFound
    left
    have hFind := find_eq_some.mpr (mem_of_find?_eq_some hFound)
    have hString := find?_some hFound
    rw [decide_eq_true_eq] at hString
    exact ⟨p.2, by rw [(hs.numID _ _ hFind).1, hFind], hString⟩
  · rename_i hNone
    right
    refine ⟨rfl, fun n r hFind => ?_⟩
    have hOther := find?_eq_none.mp hNone (n, r) (find_eq_some.mp hFind)
    simpa using hOther

theorem retrieveNumIDFromStringID_spec (hs : s.Named) (nodeID : Text) :
    (∃ l ∈ s.localNode, l.stringID = nodeID ∧ s.retrieveNumIDFromStringID nodeID = l.numID) ∨
    (∃ r, s.activeNodes.find (s.retrieveNumIDFromStringID nodeID) = some r ∧
      r.referencedObject.stringID = nodeID) ∨
    s.retrieveNumIDFromStringID nodeID = 0 ∧ s.FreeStringID nodeID := by
  unfold retrieveNumIDFromStringID FreeStringID
  cases hLocal : s.localNode with
  | none =>
    rcases activeNumID_spec hs nodeID with hActive | ⟨hZero, hFree⟩
    · exact Or.inr (Or.inl hActive)
    · exact Or.inr (Or.inr ⟨hZero, hFree, by simp⟩)
  | some l =>
    dsimp only
    split_ifs with hSame
    · exact Or.inl ⟨l, rfl, hSame.symm, rfl⟩
    · rcases activeNumID_spec hs nodeID with hActive | ⟨hZero, hFree⟩
      · exact Or.inr (Or.inl hActive)
      · refine Or.inr (Or.inr ⟨hZero, hFree, ?_⟩)
        rintro l ⟨⟩
        exact fun h => hSame h.symm

theorem generateNodeNumID_spec (nodeID : Text) (h : s.generateNodeNumID nodeID ≠ 0) :
    s.retrieveNumIDFromStringID nodeID = s.generateNodeNumID nodeID ∨
      s.isLocal (s.generateNodeNumID nodeID) = false := by
  unfold generateNodeNumID at h ⊢
  dsimp only at h ⊢
  split_ifs at h ⊢ with hPrevious hFull
  · exact Or.inl rfl
  · exact absurd rfl h
  right
  cases hFind : (range' 1 65535).find? fun newNumID =>
      !(s.checkNodeNumIDCollision newNumID) with
  | none =>
    rw [hFind] at h
    exact absurd rfl h
  | some newNumID =>
    have hFree := find?_some hFind
    rw [Bool.not_eq_true', checkNodeNumIDCollision, Bool.or_eq_false_iff,
      Bool.or_eq_false_iff] at hFree
    exact hFree.1.1

theorem addOrUpdateNodeUnlocked_cases (hs : s.Named) {node : Node ι}
    (hAsks : s.AsksForOwnID node.numID node.stringID) :
    (s.addOrUpdateNodeUnlocked node).2 = s.delete node.ptr ∨
    (∃ n r, s.activeNodes.find n = some r ∧ r.referencedObject.stringID = node.stringID ∧
      (s.addOrUpdateNodeUnlocked node).2 = (s.setActive (s.activeNodes.put n
        { r with referencedObject := { r.referencedObject with info := node.info } })).delete
          node.ptr) ∨
    ∃ n, n ≠ 0 ∧ s.activeNodes.find n = none ∧ s.isLocal n = false ∧
      s.FreeStringID node.stringID ∧ (s.addOrUpdateNodeUnlocked node).2 =
        s.setActive (s.activeNodes.put n (new { node with numID := n })) := by
  unfold addOrUpdateNodeUnlocked
  by_cases hLocal : s.isLocal node.numID = true
  · rw [if_pos hLocal]
    exact Or.inl rfl
  rw [if_neg hLocal]
  obtain ⟨n, hn⟩ : ∃ n, n = if node.numID = 0 then s.generateNodeNumID node.stringID
    else node.numID := ⟨_, rfl⟩
  rw [← hn]
  by_cases hZero : n = 0
  · rw [if_pos hZero]
    exact Or.inl rfl
  rw [if_neg hZero]
  unfold addOrUpdateWithNumID
  cases hFind : s.activeNodes.find n with
  | some r =>
    dsimp only
    split_ifs with hString
    · exact Or.inl rfl
    · exact Or.inr (Or.inl ⟨n, r, hFind, not_not.mp hString, rfl⟩)
  | none =>
    dsimp only
    split_ifs with hExisting
    · exact Or.inl rfl
    have hOwn : s.retrieveNumIDFromStringID node.stringID = 0 ∨
        s.retrieveNumIDFromStringID node.stringID = n := by
      by_contra hOther
      exact hExisting (not_or.mp hOther)
    have hNotLocal : ∀ l ∈ s.localNode, l.stringID = node.stringID → l.numID ≠ n := by
      intro l hl hString hSame
      by_cases hAsked : node.numID = 0
      · exact hAsks hAsked l hl hString
      · rw [if_neg hAsked] at hn
        exact hLocal (isLocal_iff.mpr ⟨l, hl, hn.symm.trans hSame.symm⟩)
    have hFree : s.retrieveNumIDFromStringID node.stringID = 0 ∧
        s.FreeStringID node.stringID := by
      rcases retrieveNumIDFromStringID_spec hs node.stringID with
        ⟨l, hl, hString, hNum⟩ | ⟨r, hActive, -⟩ | hFree
      · rw [hNum] at hOwn
        exact absurd (hOwn.resolve_right (hNotLocal l hl hString)) (hs.localID l hl).1
      · rcases hOwn with hNone | hSame
        · exact absurd hNone (hs.numID _ _ hActive).2
        · rw [hSame, hFind] at hActive
          cases hActive
      · exact hFree
    refine Or.inr (Or.inr ⟨n, hZero, hFind, ?_, hFree.2, rfl⟩)
    by_cases hAsked : node.numID = 0
    · rw [if_pos hAsked] at hn
      rcases generateNodeNumID_spec node.stringID (hn ▸ hZero) with hPrevious | hUnused
      · exact absurd (hn.trans (hPrevious.symm.trans hFree.1)) hZero
      · rw [hn]
        exact hUnused
    · rw [if_neg hAsked] at hn
      rw [hn]
      simpa using hLocal

end Specs

/-! ## What every operation keeps -/

/-- The IDs are distinct, and the nodes in the maps are the given ones that are not freed. A
reference to another node is one to the local node. -/
structure Kept (s : NodeStoreServers ι) (handles : List (Nat × Nat)) (given : Set Nat) :
    Prop where
  named : s.Named
  lifetimes : Lifetimes ObjectReferencer.refCount (fun r => r.referencedObject.ptr)
    s.activeNodes.find s.deletedNodes.find handles s.freed given
  outside : ∀ l ∈ s.localNode, l.ptr ∉ given
  others : ∀ x ∈ handles, x.2 ∉ given → ∃ l ∈ s.localNode, x = l.handle

namespace Kept

variable {s : NodeStoreServers ι} {handles : List (Nat × Nat)} {given : Set Nat}

theorem named_put (hs : s.Named) {n : Nat} {r r' : NodeReferencer ι}
    (hFind : s.activeNodes.find n = some r)
    (hNum : r'.referencedObject.numID = r.referencedObject.numID)
    (hString : r'.referencedObject.stringID = r.referencedObject.stringID) :
    (s.setActive (s.activeNodes.put n r')).Named := by
  obtain ⟨hNumID, hStringID, hLocal⟩ := hs
  constructor
  · intro m r₁ h₁
    rw [setActive_activeNodes, find_put] at h₁
    split_ifs at h₁ with hm
    · cases h₁
      rw [hNum, hm]
      exact hNumID n r hFind
    · exact hNumID m r₁ h₁
  · intro m m' r₁ r₂ h₁ h₂ hSame
    rw [setActive_activeNodes, find_put] at h₁ h₂
    split_ifs at h₁ h₂ with hm hm' hm'
    · rw [hm, hm']
    · cases h₁
      rw [hm]
      exact hStringID n m' r r₂ hFind h₂ (hString.symm.trans hSame)
    · cases h₂
      rw [hm']
      exact hStringID m n r₁ r h₁ hFind (hSame.trans hString)
    · exact hStringID m m' r₁ r₂ h₁ h₂ hSame
  · intro l hl
    obtain ⟨hNonzero, hNone, hOther⟩ := hLocal l hl
    have hNe : l.numID ≠ n := by
      rintro hSame
      rw [hSame, hFind] at hNone
      cases hNone
    refine ⟨hNonzero, ?_, ?_⟩
    · rw [setActive_activeNodes, find_put_of_ne _ _ hNe]
      exact hNone
    · intro m r₁ h₁
      rw [setActive_activeNodes, find_put] at h₁
      split_ifs at h₁
      · cases h₁
        rw [hString]
        exact hOther n r hFind
      · exact hOther m r₁ h₁

variable {r : NodeReferencer ι}

theorem named_insert (hs : s.Named) {n : Nat} (hNonzero : n ≠ 0)
    (hLocal : s.isLocal n = false) (hNum : r.referencedObject.numID = n)
    (hFree : s.FreeStringID r.referencedObject.stringID) :
    (s.setActive (s.activeNodes.put n r)).Named := by
  constructor
  · intro m r₁ h₁
    rw [setActive_activeNodes, find_put] at h₁
    split_ifs at h₁ with hm
    · cases h₁
      rw [hm]
      exact ⟨hNum, hNonzero⟩
    · exact hs.numID m r₁ h₁
  · intro m m' r₁ r₂ h₁ h₂ hSame
    rw [setActive_activeNodes, find_put] at h₁ h₂
    split_ifs at h₁ h₂ with hm hm' hm'
    · rw [hm, hm']
    · cases h₁
      exact absurd hSame.symm (hFree.1 m' r₂ h₂)
    · cases h₂
      exact absurd hSame (hFree.1 m r₁ h₁)
    · exact hs.stringID m m' r₁ r₂ h₁ h₂ hSame
  · intro l hl
    obtain ⟨hLocalNonzero, hNone, hOther⟩ := hs.localID l hl
    have hNe : l.numID ≠ n := by
      intro hSame
      have hIs : s.isLocal n = true := isLocal_iff.mpr ⟨l, hl, hSame.symm⟩
      rw [hLocal] at hIs
      cases hIs
    refine ⟨hLocalNonzero, ?_, ?_⟩
    · rw [setActive_activeNodes, find_put_of_ne _ _ hNe]
      exact hNone
    · intro m r₁ h₁
      rw [setActive_activeNodes, find_put] at h₁
      split_ifs at h₁
      · cases h₁
        exact fun h => hFree.2 l hl h.symm
      · exact hOther m r₁ h₁

theorem named_remove (hs : s.Named) (n : Nat) : (s.setActive (s.activeNodes.remove n)).Named := by
  have hOld : ∀ m r, (s.setActive (s.activeNodes.remove n)).activeNodes.find m = some r →
      s.activeNodes.find m = some r := by
    intro m r h
    rw [setActive_activeNodes, find_remove] at h
    split_ifs at h
    exact h
  refine ⟨fun m r h => hs.numID m r (hOld m r h), fun m m' r r' h h' =>
    hs.stringID m m' r r' (hOld m r h) (hOld m' r' h'), fun l hl => ?_⟩
  obtain ⟨hNonzero, hNone, hOther⟩ := hs.localID l hl
  refine ⟨hNonzero, ?_, fun m r h => hOther m r (hOld m r h)⟩
  rw [setActive_activeNodes, find_remove, hNone, ite_self]

section

variable (h : s.Kept handles given)
include h

theorem delete {p : Nat} (hNew : p ∉ given)
    (hUnknown : ∀ x ∈ handles, x.2 ≠ p) (hLocal : ∀ l ∈ s.localNode, l.ptr ≠ p) :
    (s.delete p).Kept handles (insert p given) where
  named := ⟨h.named.numID, h.named.stringID, h.named.localID⟩
  lifetimes := h.lifetimes.refuse hNew hUnknown
  outside := fun l hl hIn => by
    rcases hIn with hSame | hOld
    · exact hLocal l hl hSame
    · exact h.outside l hl hOld
  others := fun x hx hOut => h.others x hx fun hIn => hOut (Set.mem_insert_of_mem _ hIn)

theorem addOrUpdateNode {node : Node ι}
    (hAsks : s.AsksForOwnID node.numID node.stringID) (hNew : node.ptr ∉ given)
    (hUnknown : ∀ x ∈ handles, x.2 ≠ node.ptr) (hLocal : ∀ l ∈ s.localNode, l.ptr ≠ node.ptr) :
    (s.addOrUpdateNodeUnlocked node).2.Kept handles (insert node.ptr given) := by
  rcases addOrUpdateNodeUnlocked_cases h.named hAsks with hSame | ⟨n, r, hFind, hString, hUpdate⟩ |
      ⟨n, hNonzero, hNone, hNotLocal, hFree, hInsert⟩
  · rw [hSame]
    exact h.delete hNew hUnknown hLocal
  · rw [hUpdate]
    obtain ⟨r', hr'⟩ : ∃ r' : NodeReferencer ι, r' =
        { r with referencedObject := { r.referencedObject with info := node.info } } := ⟨_, rfl⟩
    rw [← hr']
    refine Kept.delete ⟨named_put h.named hFind (by rw [hr']) (by rw [hr']), ?_, h.outside,
      h.others⟩ hNew hUnknown hLocal
    rw [setActive_activeNodes, find_put_eq_update]
    exact h.lifetimes.modify hFind (by rw [hr']) (by rw [hr'])
  · have hDeleted := h.delete hNew hUnknown hLocal
    rw [hInsert]
    refine ⟨named_insert h.named hNonzero hNotLocal rfl hFree, ?_, hDeleted.outside,
      hDeleted.others⟩
    rw [setActive_activeNodes, find_put_eq_update]
    exact h.lifetimes.add hNone hNew hUnknown rfl

theorem deleteNode (id : Nat) : (s.deleteNode id).2.Kept handles given := by
  unfold NodeStoreServers.deleteNode
  cases hFind : s.activeNodes.find id with
  | none => exact h
  | some r =>
    have hNamed := named_remove h.named id
    dsimp only
    split_ifs with hUsed
    · refine ⟨⟨hNamed.numID, hNamed.stringID, hNamed.localID⟩, ?_, h.outside, h.others⟩
      rw [OrderedMap.find_put_eq_update, OrderedMap.find_remove_eq_update]
      exact h.lifetimes.retire hFind hUsed
    · refine ⟨⟨hNamed.numID, hNamed.stringID, hNamed.localID⟩, ?_, h.outside, h.others⟩
      rw [delete_activeNodes, setActive_activeNodes, OrderedMap.find_remove_eq_update]
      exact h.lifetimes.drop hFind (not_not.mp hUsed)

theorem referenceActive {n : Nat} (hFind : s.activeNodes.find n = some r) :
    (s.referenceActive n r).Kept (handles ++ [r.referencedObject.handle]) given := by
  have hHandle : r.referencedObject.handle = (n, r.referencedObject.ptr) := by
    rw [Node.handle, (h.named.numID n r hFind).1]
  refine ⟨named_put h.named hFind rfl rfl, ?_, h.outside, ?_⟩
  · rw [NodeStoreServers.referenceActive, setActive_activeNodes, OrderedMap.find_put_eq_update,
      hHandle]
    exact h.lifetimes.acquire hFind rfl rfl
  · intro x hx hOut
    rcases mem_append.mp hx with hOld | hNew
    · exact h.others x hOld hOut
    · rw [mem_singleton.mp hNew] at hOut
      exact absurd (h.lifetimes.active_given n r hFind) hOut

theorem referenceLocal {l : Node ι} (hl : l ∈ s.localNode) :
    s.Kept (handles ++ [l.handle]) given := by
  refine ⟨h.named, h.lifetimes.acquireOther (h.outside l hl), h.outside, ?_⟩
  intro x hx hOut
  rcases mem_append.mp hx with hOld | hNew
  · exact h.others x hOld hOut
  · exact ⟨l, hl, mem_singleton.mp hNew⟩

theorem releaseNode {x : Nat × Nat} (hIn : x ∈ handles) :
    (s.releaseNode x).Kept (handles.erase x) given := by
  have hOthers : ∀ y ∈ handles.erase x, y.2 ∉ given → ∃ l ∈ s.localNode, y = l.handle :=
    fun y hy => h.others y (mem_of_mem_erase hy)
  have hNamed := h.named
  unfold NodeStoreServers.releaseNode
  cases hDeleted : s.deletedNodes.find x.2 with
  | some r =>
    dsimp only
    split_ifs with hLast
    · refine ⟨⟨hNamed.numID, hNamed.stringID, hNamed.localID⟩, ?_, h.outside, hOthers⟩
      rw [delete_deletedNodes, OrderedMap.find_remove_eq_update]
      refine h.lifetimes.releaseLast hDeleted hIn ?_
      rw [ObjectReferencer.refCount_release] at hLast
      omega
    · refine ⟨⟨hNamed.numID, hNamed.stringID, hNamed.localID⟩, ?_, h.outside, hOthers⟩
      rw [OrderedMap.find_put_eq_update]
      exact h.lifetimes.releaseRetired hDeleted hIn rfl rfl hLast
  | none =>
    by_cases hGiven : x.2 ∈ given
    · rcases h.lifetimes.live x hIn hGiven with ⟨r, hActive, hPtr⟩ | ⟨r, hRetired⟩
      · have hHandle : x = (x.1, r.referencedObject.ptr) := by rw [hPtr]
        rw [hActive]
        refine ⟨named_put hNamed hActive rfl rfl, ?_, h.outside, hOthers⟩
        rw [setActive_activeNodes, OrderedMap.find_put_eq_update, hHandle]
        exact h.lifetimes.releaseActive hActive (hHandle ▸ hIn) rfl rfl
      · rw [hDeleted] at hRetired
        cases hRetired
    · obtain ⟨l, hl, hLocal⟩ := h.others x hIn hGiven
      have hNone : s.activeNodes.find x.1 = none := by
        rw [hLocal]
        exact (hNamed.localID l hl).2.1
      rw [hNone]
      exact ⟨hNamed, h.lifetimes.releaseOther hIn hGiven, h.outside, hOthers⟩

end

/-! ### The local node in the loops over all nodes -/

theorem setActive_eq_self {m : NodeMap ι} (h : ∀ n, m.find n = s.activeNodes.find n) :
    s.setActive m = s := by
  obtain rfl : m = s.activeNodes := ext_find h
  rfl

theorem insertLocal_eq (hs : s.Named) {l : Node ι} (hLocal : s.localNode = some l) :
    s.insertLocal = s.setActive (s.activeNodes.put l.numID (new l)) := by
  unfold insertLocal
  rw [hLocal]
  dsimp only
  rw [(hs.localID l hLocal).2.1, if_neg (by simp)]

theorem eraseLocal_setActive {l : Node ι} (hLocal : s.localNode = some l) (m : NodeMap ι) :
    (s.setActive m).eraseLocal = s.setActive (m.remove l.numID) := by
  unfold eraseLocal
  rw [setActive_localNode, hLocal]
  rfl

theorem insertLocal_none (hLocal : s.localNode = none) : s.insertLocal = s := by
  unfold insertLocal
  rw [hLocal]

theorem eraseLocal_none (hLocal : s.localNode = none) : s.eraseLocal = s := by
  unfold eraseLocal
  rw [hLocal]

theorem eraseLocal_insertLocal (hs : s.Named) : s.insertLocal.eraseLocal = s := by
  cases hLocal : s.localNode with
  | none => rw [insertLocal_none hLocal, eraseLocal_none hLocal]
  | some l =>
    rw [insertLocal_eq hs hLocal, eraseLocal_setActive hLocal]
    refine setActive_eq_self fun n => ?_
    rw [find_remove, find_put]
    split_ifs with hn
    · rw [hn, (hs.localID l hLocal).2.1]
    · rfl

/-- A position of a loop is the local node or an active one, and the local node is erased
again. -/
theorem eraseLocal_referenceActive (hs : s.Named) {n : Nat}
    (hFind : s.insertLocal.activeNodes.find n = some r) :
    (∃ l ∈ s.localNode, r.referencedObject = l ∧
      (s.insertLocal.referenceActive n r).eraseLocal = s) ∨
    s.activeNodes.find n = some r ∧
      (s.insertLocal.referenceActive n r).eraseLocal = s.referenceActive n r := by
  cases hLocal : s.localNode with
  | none =>
    rw [insertLocal_none hLocal] at hFind ⊢
    exact Or.inr ⟨hFind, eraseLocal_none hLocal⟩
  | some l =>
    have hNone := (hs.localID l hLocal).2.1
    rw [insertLocal_eq hs hLocal] at hFind ⊢
    rw [setActive_activeNodes, OrderedMap.find_put] at hFind
    unfold NodeStoreServers.referenceActive
    rw [setActive_setActive, setActive_activeNodes, eraseLocal_setActive hLocal]
    split_ifs at hFind with hn
    · left
      cases hFind
      refine ⟨l, rfl, rfl, setActive_eq_self fun m => ?_⟩
      rw [OrderedMap.find_remove, OrderedMap.find_put, OrderedMap.find_put, hn]
      split_ifs with hm
      · rw [hm, hNone]
      · rfl
    · right
      refine ⟨hFind, ?_⟩
      have hMaps : OrderedMap.remove (OrderedMap.put (OrderedMap.put s.activeNodes l.numID
          (ObjectReferencer.new l)) n r.reference) l.numID =
          OrderedMap.put s.activeNodes n r.reference := by
        refine OrderedMap.ext_find fun m => ?_
        rw [OrderedMap.find_remove, OrderedMap.find_put, OrderedMap.find_put, OrderedMap.find_put]
        split_ifs with hm hm'
        · exact absurd (hm'.symm.trans hm) hn
        · rw [hm, hNone]
        · rfl
        · rfl
      rw [hMaps]

/-- What the caller of a reference operation gets. -/
def taken (node : Option (Node ι)) : List (Nat × Nat) := (node.map Node.handle).toList

variable (h : s.Kept handles given)
include h

section

variable {pos : Option (Nat × NodeReferencer ι)}

theorem referenceAt (hPos : ∀ p ∈ pos, p ∈ s.activeNodes) :
    (s.referenceAt pos).2.Kept (handles ++ taken (s.referenceAt pos).1) given := by
  cases pos with
  | none =>
    show s.Kept (handles ++ []) given
    rwa [append_nil]
  | some p => exact h.referenceActive (find_eq_some.mpr (hPos p rfl))

theorem referenceListed (hPos : ∀ p ∈ pos, p ∈ s.insertLocal.activeNodes) :
    (s.insertLocal.referenceAt pos).2.eraseLocal.Kept
      (handles ++ taken (s.insertLocal.referenceAt pos).1) given := by
  cases pos with
  | none =>
    show s.insertLocal.eraseLocal.Kept (handles ++ []) given
    rwa [eraseLocal_insertLocal h.named, append_nil]
  | some p =>
    have hFind := find_eq_some.mpr (hPos p rfl)
    show (s.insertLocal.referenceActive p.1 p.2).eraseLocal.Kept
      (handles ++ [p.2.referencedObject.handle]) given
    rcases eraseLocal_referenceActive h.named hFind with ⟨l, hl, hObject, hSame⟩ |
        ⟨hActive, hReferenced⟩
    · rw [hSame, hObject]
      exact h.referenceLocal hl
    · rw [hReferenced]
      exact h.referenceActive hActive

end

theorem referenceFirstNode :
    s.referenceFirstNode.2.Kept (handles ++ taken s.referenceFirstNode.1) given :=
  h.referenceListed fun _ hp => mem_of_mem_head? hp

theorem referenceNextNode (id : Nat) :
    (s.referenceNextNode id).2.Kept (handles ++ taken (s.referenceNextNode id).1) given := by
  unfold NodeStoreServers.referenceNextNode
  dsimp only
  split_ifs
  · exact h.referenceListed fun _ hp => mem_of_find?_eq_some hp
  · exact h.referenceAt fun _ hp => mem_of_find?_eq_some hp

theorem referenceNode (id : Nat) :
    (s.referenceNode id).2.Kept (handles ++ taken (s.referenceNode id).1) given := by
  have hActive : (referenceNode.activeNode s id).2.Kept
      (handles ++ taken (referenceNode.activeNode s id).1) given := by
    unfold referenceNode.activeNode
    cases hFind : s.activeNodes.find id with
    | none =>
      show s.Kept (handles ++ []) given
      rwa [append_nil]
    | some r => exact h.referenceActive hFind
  unfold NodeStoreServers.referenceNode
  cases hLocal : s.localNode with
  | none => exact hActive
  | some l =>
    dsimp only
    split_ifs
    · exact h.referenceLocal hLocal
    · exact hActive

end Kept

end NodeStoreServers

end Fhgfs.Nodes
