import Fhgfs.Lib.OrderedSet
import Fhgfs.Lib.Run
import Mathlib.Data.Fintype.Card

/-!
# The store of inode references

The flusher of the client walks over the inodes with buffered data. It takes each out of the store
and goes on from its address, while others add and remove inodes.

* `pass_complete`: a pass returns each inode at most once, all that are left alone, and ends.
-/

namespace Fhgfs.Client

open List OrderedSet Run Option Function

/-- The addresses of the inodes in their tree, and the references of the inodes that were taken and
released, and those that callers and a pass have. `returned` and `isOver` belong to the pass. -/
structure InodeRefStore (κ : Type) [LinearOrder κ] where
  tree : OrderedSet fun inode : κ => inode
  taken : κ → Nat
  released : κ → Nat
  handed : κ → Int
  returned : List κ
  isOver : Bool

inductive InodeRefOp (κ : Type)
  | os_igrab (inode : κ)
  | os_iput (inode : κ)
  | addAndReferenceInode (inode : κ)
  | addOrPutInode (inode : κ)
  | removeAndReleaseInode (inode : κ)
  | getAndRemove (oldInode : Option κ)
  | continuePass
deriving DecidableEq

namespace InodeRefStore

variable {κ : Type} [LinearOrder κ] (s : InodeRefStore κ) (inode : κ)

def os_ihold : InodeRefStore κ :=
  { s with taken := Function.update s.taken inode (s.taken inode + 1) }

def os_iput : InodeRefStore κ :=
  { s with released := Function.update s.released inode (s.released inode + 1) }

def hand (amount : Int) : InodeRefStore κ :=
  { s with handed := Function.update s.handed inode (s.handed inode + amount) }

def addAndReferenceInode : InodeRefStore κ :=
  if inode ∈ s.tree then s else { s with tree := s.tree.insert inode }.os_ihold inode

/-- The reference is one that the caller had. -/
def addOrPutInode : InodeRefStore κ :=
  if inode ∈ s.tree then (s.hand inode (-1)).os_iput inode
  else { s.hand inode (-1) with tree := s.tree.insert inode }

def removeAndReleaseInode : InodeRefStore κ :=
  if inode ∈ s.tree then { s with tree := s.tree.erase inode }.os_iput inode else s

/-- The iterator at an element of the tree, moved on in order. -/
def iterNext (tree : OrderedSet fun inode : κ => inode) (oldInode : κ) : Option κ :=
  tree.elems.find? (oldInode < ·)

def eraseReturned (tree : OrderedSet fun inode : κ => inode) (inode : Option κ) :
    OrderedSet fun inode : κ => inode :=
  inode.elim tree tree.erase

def getAndRemoveFirstInode : Option κ × OrderedSet fun inode : κ => inode :=
  let firstInode := s.tree.elems.head?
  (firstInode, eraseReturned s.tree firstInode)

/-- An inode that is no longer in the tree is inserted for the search. -/
def getAndRemoveNextInode (oldInode : κ) : Option κ × OrderedSet fun inode : κ => inode :=
  if oldInode ∈ s.tree then
    let nextInode := iterNext s.tree oldInode
    (nextInode, eraseReturned s.tree nextInode)
  else
    let tree := s.tree.insert oldInode
    let nextInode := iterNext tree oldInode
    (nextInode, (eraseReturned tree nextInode).erase oldInode)

/-- A pass starts without an inode to go on from. -/
def getAndRemove (oldInode : Option κ) : Option κ × OrderedSet fun inode : κ => inode :=
  oldInode.elim s.getAndRemoveFirstInode s.getAndRemoveNextInode

/-- The caller has the reference to what it took out. -/
def handOut (next : Option κ × OrderedSet fun inode : κ => inode) : InodeRefStore κ :=
  { next.1.elim s (s.hand · 1) with tree := next.2 }

def continuePass : InodeRefStore κ :=
  if s.isOver then s
  else
    let next := s.getAndRemove s.returned.getLast?
    { s.handOut next with returned := s.returned ++ next.1.toList, isOver := next.1.isNone }

def step : InodeRefOp κ → InodeRefStore κ
  | .os_igrab inode => (s.hand inode 1).os_ihold inode
  | .os_iput inode => (s.hand inode (-1)).os_iput inode
  | .addAndReferenceInode inode => s.addAndReferenceInode inode
  | .addOrPutInode inode => s.addOrPutInode inode
  | .removeAndReleaseInode inode => s.removeAndReleaseInode inode
  | .getAndRemove oldInode => s.handOut (s.getAndRemove oldInode)
  | .continuePass => s.continuePass

/-- The store has one reference to each of its inodes, and the others are with the callers. -/
def Balanced : Prop := ∀ inode,
  (s.taken inode : Int) = s.released inode + (if inode ∈ s.tree then 1 else 0) + s.handed inode

/-- The pass goes up, and each inode of `awaited` was returned or is still before it. -/
structure PassInv (awaited : κ → Prop) : Prop where
  ascends : s.returned.Pairwise (· < ·)
  awaits : ∀ inode, awaited inode →
    inode ∈ s.returned ∨ inode ∈ s.tree ∧ s.isOver = false ∧ ∀ old ∈ s.returned, old < inode

/-- Only the pass takes the inode out of the store. -/
def Keeps (op : InodeRefOp κ) : Prop :=
  op ≠ .continuePass → inode ∈ s.tree → inode ∈ (s.step op).tree

section Next

variable {s inode} {tree : OrderedSet fun inode : κ => inode} {oldInode : κ}

/-- The next inode is the first one of the tree behind the old one. -/
structure IsNext (tree : OrderedSet fun inode : κ => inode) (behind : κ → Prop)
    (next : Option κ × OrderedSet fun inode : κ => inode) : Prop where
  none_behind : next.1 = none → ∀ inode ∈ tree, ¬ behind inode
  first_behind : ∀ nextInode ∈ next.1, nextInode ∈ tree ∧ behind nextInode ∧
    ∀ inode ∈ tree, behind inode → nextInode ≤ inode
  rest : ∀ inode, inode ∈ next.2 ↔ inode ∈ tree ∧ inode ∉ next.1

theorem mem_eraseReturned {returned : Option κ} :
    inode ∈ eraseReturned tree returned ↔ inode ∈ tree ∧ inode ∉ returned := by
  cases returned with
  | none => exact ⟨fun h => ⟨h, nofun⟩, And.left⟩
  | some old =>
    rw [eraseReturned, elim_some, mem_erase, mem_some_iff]
    exact and_congr_right fun _ => ne_comm

theorem least_of_find {p : κ → Bool} {first : κ} (hFind : tree.elems.find? p = some first) :
    first ∈ tree ∧ p first ∧ ∀ inode ∈ tree, p inode → first ≤ inode := by
  obtain ⟨hFirst, before, rest, hElems, hBefore⟩ := find?_eq_some_iff_append.mp hFind
  have hAscending := tree.ascending
  rw [hElems] at hAscending
  have hRest := (pairwise_cons.mp (pairwise_append.mp hAscending).2.1).1
  refine ⟨mem_of_find?_eq_some hFind, hFirst, fun inode hIn hInode => ?_⟩
  rw [OrderedSet.mem_def, hElems, mem_append, mem_cons] at hIn
  rcases hIn with hEarlier | rfl | hLater
  · exact absurd hInode (by simpa using hBefore inode hEarlier)
  · exact le_rfl
  · exact (hRest inode hLater).le

theorem iterNext_none (h : iterNext tree oldInode = none) : ∀ inode ∈ tree, ¬ oldInode < inode :=
  fun inode hIn => by simpa using find?_eq_none.mp h inode hIn

theorem iterNext_first {nextInode : κ} (h : iterNext tree oldInode = some nextInode) :
    nextInode ∈ tree ∧ oldInode < nextInode ∧
      ∀ inode ∈ tree, oldInode < inode → nextInode ≤ inode := by
  simpa using least_of_find h

theorem getAndRemoveFirstInode_isNext : IsNext s.tree (fun _ => True) s.getAndRemoveFirstInode where
  none_behind h inode hIn := by
    rw [OrderedSet.mem_def, head?_eq_none_iff.mp h] at hIn
    exact absurd hIn not_mem_nil
  first_behind first hFirst := by
    obtain ⟨rest, hElems⟩ := head?_eq_some_iff.mp hFirst
    have hFind : s.tree.elems.find? (fun _ => true) = some first := by
      rw [hElems]
      rfl
    simpa using least_of_find hFind
  rest _ := mem_eraseReturned

/-- Both ways to find the next inode agree. -/
theorem getAndRemoveNextInode_isNext :
    IsNext s.tree (oldInode < ·) (s.getAndRemoveNextInode oldInode) := by
  unfold getAndRemoveNextInode
  split_ifs with hIn
  · exact ⟨iterNext_none, fun _ => iterNext_first, fun _ => mem_eraseReturned⟩
  refine ⟨fun h inode hTree => iterNext_none h inode (mem_insert_id.mpr (.inl hTree)), ?_, ?_⟩
  · intro nextInode hNext
    obtain ⟨hTree, hLt, hLeast⟩ := iterNext_first hNext
    have hNotNew : nextInode ∈ s.tree := (mem_insert_id.mp hTree).resolve_right hLt.ne'
    exact ⟨hNotNew, hLt, fun inode h => hLeast inode (mem_insert_id.mpr (.inl h))⟩
  · intro inode
    rw [mem_erase, mem_eraseReturned, mem_insert_id]
    constructor
    · rintro ⟨⟨h, hNot⟩, hNe⟩
      exact ⟨h.resolve_right hNe, hNot⟩
    · rintro ⟨h, hNot⟩
      exact ⟨⟨.inl h, hNot⟩, fun hSame => hIn (hSame ▸ h)⟩

/-- What is behind the last inode that was returned. -/
def behind : Option κ → κ → Prop
  | none, _ => True
  | some old, inode => old < inode

theorem getAndRemove_isNext (last : Option κ) :
    IsNext s.tree (behind last) (s.getAndRemove last) := by
  cases last with
  | none => exact s.getAndRemoveFirstInode_isNext
  | some old => exact s.getAndRemoveNextInode_isNext

end Next

section Steps

variable {s} {op : InodeRefOp κ} {awaited : κ → Prop}

theorem balanced_handOut (hBalanced : s.Balanced) (last : Option κ) :
    (s.handOut (s.getAndRemove last)).Balanced := by
  intro inode
  obtain ⟨-, hFirst, hRest⟩ := s.getAndRemove_isNext last
  have hBefore := hBalanced inode
  cases hNext : (s.getAndRemove last).1 with
  | none => grind [handOut]
  | some next =>
    simp only [handOut, hNext, elim_some, hand, update_apply]
    grind

theorem step_balanced (hBalanced : s.Balanced) : (s.step op).Balanced := by
  intro inode
  have hBefore := hBalanced inode
  cases op with
  | os_igrab other =>
    simp only [step, hand, os_ihold, update_apply]
    grind
  | os_iput other =>
    simp only [step, hand, os_iput, update_apply]
    grind
  | addAndReferenceInode other =>
    by_cases hIn : other ∈ s.tree
    · simpa only [step, addAndReferenceInode, if_pos hIn] using hBefore
    · simp only [step, addAndReferenceInode, if_neg hIn, os_ihold, update_apply]
      grind [mem_insert_id]
  | addOrPutInode other =>
    by_cases hIn : other ∈ s.tree
    · simp only [step, addOrPutInode, if_pos hIn, hand, os_iput, update_apply]
      grind
    · simp only [step, addOrPutInode, if_neg hIn, hand, update_apply]
      grind [mem_insert_id]
  | removeAndReleaseInode other =>
    by_cases hIn : other ∈ s.tree
    · simp only [step, removeAndReleaseInode, if_pos hIn, os_iput, update_apply]
      grind [mem_erase]
    · simpa only [step, removeAndReleaseInode, if_neg hIn] using hBefore
  | getAndRemove last => exact balanced_handOut hBalanced last inode
  | continuePass =>
    simp only [step, continuePass]
    split
    · exact hBefore
    · exact balanced_handOut hBalanced s.returned.getLast? inode

/-- Only the pass goes on. -/
theorem step_frame (hOp : op ≠ .continuePass) :
    (s.step op).returned = s.returned ∧ (s.step op).isOver = s.isOver := by
  cases op with
  | continuePass => exact absurd rfl hOp
  | os_igrab | os_iput => exact ⟨rfl, rfl⟩
  | addAndReferenceInode | addOrPutInode | removeAndReleaseInode =>
    simp only [step, addAndReferenceInode, addOrPutInode, removeAndReleaseInode]
    split_ifs <;> exact ⟨rfl, rfl⟩
  | getAndRemove last =>
    simp only [step, handOut]
    cases (s.getAndRemove last).1 <;> exact ⟨rfl, rfl⟩

theorem behind_getLast (hAscends : s.returned.Pairwise (· < ·)) :
    behind s.returned.getLast? inode ↔ ∀ old ∈ s.returned, old < inode := by
  induction hReturned : s.returned using reverseRecOn with
  | nil => simp [behind]
  | append_singleton before last =>
    rw [hReturned] at hAscends
    have hBelow := (pairwise_append.mp hAscends).2.2
    simp only [behind, getLast?_append, getLast?_singleton, some_or,
      mem_append, mem_singleton]
    constructor
    · rintro hLast old (hOld | rfl)
      · exact (hBelow old hOld last (mem_singleton.mpr rfl)).trans hLast
      · exact hLast
    · exact fun h => h last (.inr rfl)

theorem continuePass_passInv (h : s.PassInv awaited) : s.continuePass.PassInv awaited := by
  obtain ⟨hAscends, hAwaits⟩ := h
  have hLast inode := behind_getLast inode hAscends
  obtain ⟨hNone, hFirst, hRest⟩ := s.getAndRemove_isNext s.returned.getLast?
  unfold continuePass
  split_ifs with hOver
  · exact ⟨hAscends, hAwaits⟩
  cases hNext : (s.getAndRemove s.returned.getLast?).1 with
  | none =>
    simp only [handOut, hNext, toList_none, append_nil]
    refine ⟨hAscends, fun inode hAwaited => .inl ?_⟩
    refine (hAwaits inode hAwaited).resolve_right fun ⟨hIn, _, hAhead⟩ => ?_
    exact hNone hNext inode hIn ((hLast inode).mpr hAhead)
  | some next =>
    obtain ⟨-, hBehind, hLeast⟩ := hFirst next hNext
    simp only [handOut, hNext, toList_some]
    constructor
    · refine pairwise_append.mpr
        ⟨hAscends, pairwise_singleton .., fun old hOld _ hSame => ?_⟩
      rw [mem_singleton.mp hSame]
      exact (hLast next).mp hBehind old hOld
    · intro inode hAwaited
      rw [mem_append, mem_singleton]
      rcases hAwaits inode hAwaited with hReturned | ⟨hIn, -, hAhead⟩
      · exact .inl (.inl hReturned)
      rcases (hLeast inode hIn ((hLast inode).mpr hAhead)).eq_or_lt with rfl | hLt
      · exact .inl (.inr rfl)
      · have hLeft : inode ∈ (s.getAndRemove s.returned.getLast?).2 :=
          (hRest inode).mpr ⟨hIn, by simp [hNext, hLt.ne]⟩
        refine .inr ⟨hLeft, rfl, fun old hOld => ?_⟩
        rcases mem_append.mp hOld with hOld | hOld
        · exact hAhead old hOld
        · exact mem_singleton.mp hOld ▸ hLt

theorem step_passInv (h : s.PassInv awaited) (hKeeps : ∀ inode, awaited inode → s.Keeps inode op) :
    (s.step op).PassInv awaited := by
  by_cases hOp : op = .continuePass
  · subst hOp
    exact continuePass_passInv h
  · obtain ⟨hReturned, hOver⟩ := step_frame (s := s) hOp
    refine ⟨hReturned ▸ h.ascends, fun inode hAwaited => ?_⟩
    rw [hReturned, hOver]
    exact (h.awaits inode hAwaited).imp_right (.imp_left (hKeeps inode hAwaited hOp))

/-- Until it is over, a pass returns one more inode each time. -/
theorem step_progress {rounds : Nat} (h : s.isOver ∨ s.returned.length = rounds) :
    (s.step op).isOver ∨
      (s.step op).returned.length = rounds + [op].count InodeRefOp.continuePass := by
  by_cases hOp : op = .continuePass
  · subst hOp
    rw [count_singleton_self]
    simp only [step, continuePass]
    split_ifs with hOver
    · exact .inl hOver
    · cases hNext : (s.getAndRemove s.returned.getLast?).1 with
      | none => exact .inl rfl
      | some next =>
        refine .inr ?_
        rw [toList_some, length_append, h.resolve_left hOver, length_singleton]
  · obtain ⟨hReturned, hOver⟩ := step_frame (s := s) hOp
    rw [hReturned, hOver, count_eq_zero_of_not_mem (by simpa [eq_comm] using hOp)]
    exact h

end Steps

section Pass

variable {s} {ops : List (InodeRefOp κ)} {awaited : κ → Prop}

theorem after_balanced (hBalanced : s.Balanced) : (after step s ops).Balanced := by
  induction ops generalizing s with
  | nil => exact hBalanced
  | cons op ops ih => exact ih (step_balanced hBalanced)

theorem after_passInv (h : s.PassInv awaited)
    (hKeeps : ∀ inode, awaited inode → EveryStep step (Keeps · inode) s ops) :
    (after step s ops).PassInv awaited := by
  induction ops generalizing s with
  | nil => exact h
  | cons op ops ih =>
    have hHere : (s.step op).PassInv awaited :=
      step_passInv h fun inode hAwaited => (hKeeps inode hAwaited).1
    exact ih hHere fun inode hAwaited => (hKeeps inode hAwaited).2

theorem after_progress {rounds : Nat} (h : s.isOver ∨ s.returned.length = rounds) :
    (after step s ops).isOver ∨
      (after step s ops).returned.length = rounds + ops.count .continuePass := by
  induction ops generalizing s rounds with
  | nil => exact h
  | cons op ops ih =>
    rw [← singleton_append, count_append, ← Nat.add_assoc]
    exact ih (step_progress h)

/-- A pass beside other callers: the references stay balanced, no inode is returned twice, an inode
that only the pass takes out is returned when the pass is over, and that it is after as many
rounds as there are addresses and one. -/
theorem pass_complete [Fintype κ] (hBalanced : s.Balanced) (hStart : s.returned = [])
    (hOpen : s.isOver = false) (ops : List (InodeRefOp κ)) :
    (after step s ops).Balanced ∧ (after step s ops).tree.elems.Nodup ∧
      (after step s ops).returned.Nodup ∧
      ((after step s ops).isOver → ∀ inode ∈ s.tree, EveryStep step (Keeps · inode) s ops →
        (after step s ops).returned.count inode = 1) ∧
      (Fintype.card κ < ops.count .continuePass → (after step s ops).isOver) := by
  let awaited inode := inode ∈ s.tree ∧ EveryStep step (Keeps · inode) s ops
  have hBefore : s.PassInv awaited := by
    refine ⟨hStart ▸ Pairwise.nil, fun inode h => .inr ⟨h.1, hOpen, ?_⟩⟩
    exact hStart ▸ fun _ h => absurd h not_mem_nil
  obtain ⟨hAscends, hAwaits⟩ := after_passInv hBefore fun inode h => h.2
  have hNodup : (after step s ops).returned.Nodup := hAscends.imp ne_of_lt
  refine ⟨after_balanced hBalanced, nodup_elems _, hNodup, fun hOver inode hIn hKeeps => ?_, ?_⟩
  · have hNotLeft := (hAwaits inode ⟨hIn, hKeeps⟩).resolve_right fun h => by simp [hOver] at h
    exact count_eq_one_of_mem hNodup hNotLeft
  · intro hMany
    have hNone : s.returned.length = 0 := hStart ▸ rfl
    have hProgress : (after step s ops).isOver ∨ _ := after_progress (.inr hNone)
    refine hProgress.resolve_right fun hRounds => ?_
    have hFew := hNodup.length_le_card
    omega

/-- The pass puts the first inode back, and another caller adds one behind it. -/
theorem pass_complete_putBack :
    let s : InodeRefStore (Fin 4) :=
      ⟨⟨[1, 3], by decide⟩, fun inode => if inode = 1 ∨ inode = 3 then 1 else 0,
        fun _ => 0, fun _ => 0, [], false⟩
    let ops := [.continuePass, .addOrPutInode 1, .addAndReferenceInode 2, .continuePass,
      .addAndReferenceInode 0, .continuePass, .continuePass, .continuePass]
    (after step s ops).Balanced ∧ (after step s ops).returned = [1, 2, 3] := by
  intro s ops
  refine ⟨(pass_complete (s := s) ?_ rfl rfl ops).1, by decide⟩
  unfold Balanced
  decide

end Pass

end InodeRefStore

end Fhgfs.Client
