import Fhgfs.Session.SessionFileStore

/-!
# Asynchronous cleanup of marked sessions

A session that is removed while it is referenced is marked, and should be cleaned up by the
release of its last reference. `releaseSession` decrements the reference count of unmarked
sessions only: a release of a marked session with more than one reference does nothing, and
the session stays. So the cleanup happens exactly if the session had a single reference when
it was removed (`asyncCleanup_iff`). It never happens while somebody else holds a reference.
-/

namespace Fhgfs.Session

open SessionFileStore Run ObjectReferencer Option

namespace SharedSessions

variable {ι : Type} {s : SharedSessions ι} {sessionID : Nat}

/-! ## One session -/

/-- The entry of a session and the number of its holders. -/
def view (s : SharedSessions ι) (sessionID : Nat) : Option (SessionFileReferencer ι) × Nat :=
  (s.store.sessions.find sessionID, s.holders sessionID)

variable {op : SessionOp ι}

theorem step_other (h : op.sessionID ≠ sessionID) :
    (s.step op).view sessionID = s.view sessionID ∧ s.cleanups sessionID op = [] := by
  cases op with
  | referenceSession otherID =>
    have hNe : sessionID ≠ otherID := Ne.symm h
    refine ⟨Prod.ext ?_ ?_, rfl⟩
    · simp [view, step, find_referenceSession, hNe]
    · simp only [view, step]
      split <;> simp [hNe]
  | releaseSession session entryInfo =>
    have hNe : sessionID ≠ session.sessionID := Ne.symm h
    refine ⟨Prod.ext ?_ ?_, if_neg h⟩
    · simp [view, step, find_releaseSession, hNe]
    · simp [view, step, hNe]
  | removeSession otherID =>
    have hNe : sessionID ≠ otherID := Ne.symm h
    refine ⟨Prod.ext ?_ rfl, rfl⟩
    simp [view, step, find_removeSession, hNe]

theorem view_reference :
    (s.step (.referenceSession sessionID)).view sessionID =
      match s.store.sessions.find sessionID with
      | none => (none, s.holders sessionID)
      | some r => (some r.reference, s.holders sessionID + 1) := by
  simp only [view, step, find_referenceSession, isSome_referenceSession]
  cases s.store.sessions.find sessionID <;> simp

theorem view_release (s : SharedSessions ι) (session : SessionFile ι) (entryInfo : EntryInfo) :
    (s.step (.releaseSession session entryInfo)).view session.sessionID =
      ((s.store.sessions.find session.sessionID).bind released,
        s.holders session.sessionID - 1) := by
  simp [view, step, find_releaseSession]

theorem view_remove (s : SharedSessions ι) (sessionID : Nat) :
    (s.step (.removeSession sessionID)).view sessionID =
      ((s.store.sessions.find sessionID).bind removed, s.holders sessionID) := by
  simp [view, step, find_removeSession]

/-! ## The invariant -/

/-- The reference count of an unmarked session is the number of its holders. For a marked
session it is an upper bound, and a count of one is right. -/
inductive Counted : Option (SessionFileReferencer ι) × Nat → Prop
  | gone : Counted (none, 0)
  | unmarked {r : SessionFileReferencer ι} {n : Nat}
      (hMark : r.referencedObject.useAsyncCleanup = false) (hCount : r.refCount = n) :
      Counted (some r, n)
  | marked {r : SessionFileReferencer ι} {n : Nat}
      (hMark : r.referencedObject.useAsyncCleanup = true) (hBound : n ≤ r.refCount)
      (hUsed : 1 ≤ r.refCount) (hLast : r.refCount = 1 → n = 1) : Counted (some r, n)

def Inv (s : SharedSessions ι) : Prop := ∀ sessionID, Counted (s.view sessionID)

theorem Fresh.inv (h : Fresh s) : Inv s := by
  intro sessionID
  unfold view
  rw [h.1 sessionID]
  cases hFind : s.store.sessions.find sessionID with
  | none => exact .gone
  | some r =>
    obtain ⟨hCount, hMark⟩ := h.2 sessionID r hFind
    exact .unmarked hMark hCount

variable {r : SessionFileReferencer ι}

section

variable {n : Nat} (h : Counted (some r, n))
include h

theorem Counted.reference : Counted (some r.reference, n + 1) := by
  cases h with
  | unmarked hMark hCount =>
    refine .unmarked hMark ?_
    rw [refCount_reference]
    omega
  | marked hMark hBound hUsed hLast =>
    refine .marked hMark ?_ ?_ ?_ <;> rw [refCount_reference] <;> omega

theorem Counted.released (hHolder : 0 < n) : Counted (released r, n - 1) := by
  unfold SessionFileStore.released
  cases h with
  | unmarked hMark hCount =>
    rw [if_neg (by simp [hMark])]
    refine .unmarked hMark ?_
    rw [refCount_release]
    omega
  | marked hMark hBound hUsed hLast =>
    rw [if_pos hMark]
    split
    · rename_i hOne
      rw [hLast hOne]
      exact .gone
    · exact .marked hMark (by omega) hUsed (by omega)

theorem Counted.removed : Counted (removed r, n) := by
  unfold SessionFileStore.removed
  split
  · rename_i hUsed
    cases h with
    | unmarked hMark hCount =>
      refine .marked rfl ?_ ?_ ?_ <;> simp only [setUseAsyncCleanup] <;> omega
    | marked hMark hBound hUsed hLast => exact .marked rfl hBound hUsed hLast
  · rename_i hUnused
    cases h with
    | unmarked hMark hCount =>
      obtain rfl : n = 0 := by omega
      exact .gone
    | marked hMark hBound hUsed hLast => omega

end

theorem Inv.step (h : Inv s) (hop : Admitted s op) : Inv (s.step op) := by
  intro sessionID
  by_cases hOther : op.sessionID ≠ sessionID
  · rw [(step_other hOther).1]
    exact h sessionID
  obtain rfl : op.sessionID = sessionID := not_not.mp hOther
  have hHere := h op.sessionID
  cases op with
  | referenceSession sessionID =>
    change Counted (s.store.sessions.find sessionID, s.holders sessionID) at hHere
    show Counted ((s.step (.referenceSession sessionID)).view sessionID)
    rw [view_reference]
    cases hFind : s.store.sessions.find sessionID <;> rw [hFind] at hHere
    · exact hHere
    · exact hHere.reference
  | releaseSession session entryInfo =>
    change Counted (s.store.sessions.find session.sessionID, s.holders session.sessionID) at hHere
    have hHolder : 0 < s.holders session.sessionID := hop
    show Counted ((s.step (.releaseSession session entryInfo)).view session.sessionID)
    rw [view_release]
    cases hFind : s.store.sessions.find session.sessionID <;> rw [hFind] at hHere
    · generalize s.holders session.sessionID = n at hHere hHolder
      cases hHere
      omega
    · exact hHere.released hHolder
  | removeSession sessionID =>
    change Counted (s.store.sessions.find sessionID, s.holders sessionID) at hHere
    show Counted ((s.step (.removeSession sessionID)).view sessionID)
    rw [view_remove]
    cases hFind : s.store.sessions.find sessionID <;> rw [hFind] at hHere
    · exact hHere
    · exact hHere.removed

theorem inv_of_reachable (h : Reachable step Fresh Admitted s) : Inv s :=
  h.invariant (fun _ hs => Fresh.inv hs) (fun _ _ hs hop => Inv.step hs hop)

theorem Inv.cleanup_alone (h : Inv s)
    (hCleanup : s.cleanups sessionID op ≠ []) : (s.step op).holders sessionID = 0 := by
  cases op with
  | referenceSession _ => exact absurd rfl hCleanup
  | removeSession _ => exact absurd rfl hCleanup
  | releaseSession session entryInfo =>
    by_cases hSame : session.sessionID = sessionID
    · subst hSame
      have hHere := h session.sessionID
      simp only [cleanups, if_true, cleanup_releaseSession] at hCleanup
      unfold view at hHere
      cases hFind : s.store.sessions.find session.sessionID with
      | none => simp [hFind] at hCleanup
      | some r =>
        rw [hFind] at hHere hCleanup
        by_cases hLast : r.referencedObject.useAsyncCleanup = true ∧ r.refCount = 1
        · cases hHere with
          | unmarked hMark _ => simp [hMark] at hLast
          | marked _ _ _ hOne => simp [SharedSessions.step, hOne hLast.2]
        · simp [hLast] at hCleanup
    · simp [cleanups, hSame] at hCleanup

/-! ## Runs after the mark -/

/-- A step that is not about the session, or does nothing to a marked session with more than one
reference. -/
theorem step_stuck (hFind : s.store.sessions.find sessionID = some r)
    (hMark : r.referencedObject.useAsyncCleanup = true) (hUsed : r.refCount ≠ 0)
    (hMore : r.refCount ≠ 1) (hNoNew : op ≠ .referenceSession sessionID) :
    (s.step op).store.sessions.find sessionID = some r := by
  by_cases hOther : op.sessionID ≠ sessionID
  · have hSame := congrArg Prod.fst (step_other (s := s) hOther).1
    exact hSame.trans hFind
  obtain rfl : op.sessionID = sessionID := not_not.mp hOther
  cases op with
  | referenceSession _ => exact absurd rfl hNoNew
  | releaseSession session entryInfo =>
    have hView := congrArg Prod.fst (view_release s session entryInfo)
    refine hView.trans ?_
    change s.store.sessions.find session.sessionID = some r at hFind
    simp [hFind, released, hMark, hMore]
  | removeSession otherID =>
    have hView := congrArg Prod.fst (view_remove s otherID)
    refine hView.trans ?_
    change s.store.sessions.find otherID = some r at hFind
    simp only [hFind, bind_some, removed, ne_eq, hUsed, not_false_eq_true, if_true,
      setUseAsyncCleanup, some.injEq]
    rw [← hMark]

variable {ops : List (SessionOp ι)}

theorem after_stuck (hFind : s.store.sessions.find sessionID = some r)
    (hMark : r.referencedObject.useAsyncCleanup = true) (hUsed : r.refCount ≠ 0)
    (hMore : r.refCount ≠ 1) (hNoNew : ∀ op ∈ ops, op ≠ .referenceSession sessionID) :
    (after step s ops).store.sessions.find sessionID = some r := by
  induction ops generalizing s with
  | nil => exact hFind
  | cons op ops ih =>
    obtain ⟨hHere, hRest⟩ := List.forall_mem_cons.mp hNoNew
    exact ih (step_stuck hFind hMark hUsed hMore hHere) hRest

theorem after_gone (hView : s.view sessionID = (none, 0)) (hOps : EveryStep step Admitted s ops)
    (hNoNew : ∀ op ∈ ops, op ≠ .referenceSession sessionID) :
    (after step s ops).store.sessions.find sessionID = none ∧
      collect step (cleanups sessionID) s ops = [] := by
  induction ops generalizing s with
  | nil => exact ⟨congrArg Prod.fst hView, rfl⟩
  | cons op ops ih =>
    obtain ⟨hHere, hRest⟩ := List.forall_mem_cons.mp hNoNew
    have hStep : (s.step op).view sessionID = (none, 0) ∧ s.cleanups sessionID op = [] := by
      by_cases hOther : op.sessionID ≠ sessionID
      · obtain ⟨hSame, hNone⟩ := step_other (s := s) hOther
        exact ⟨hSame.trans hView, hNone⟩
      obtain rfl : op.sessionID = sessionID := not_not.mp hOther
      have hFind := congrArg Prod.fst hView
      have hHolders := congrArg Prod.snd hView
      cases op with
      | referenceSession _ => exact absurd rfl hHere
      | releaseSession session entryInfo =>
        have hHolder : 0 < s.holders session.sessionID := hOps.1
        change s.holders session.sessionID = 0 at hHolders
        omega
      | removeSession otherID =>
        refine ⟨(view_remove s otherID).trans ?_, rfl⟩
        change s.store.sessions.find otherID = none at hFind
        change s.holders otherID = 0 at hHolders
        rw [hFind, hHolders]
        rfl
    obtain ⟨hGone, hNone⟩ := ih hStep.1 hOps.2 hRest
    refine ⟨hGone, ?_⟩
    unfold collect
    rw [hStep.2, hNone]
    rfl

/-- A marked session with one reference and one holder is cleaned up by the release of the
holder. -/
theorem after_last (hView : s.view sessionID = (some r, 1)) (hOne : r.refCount = 1)
    (hMark : r.referencedObject.useAsyncCleanup = true) (hOps : EveryStep step Admitted s ops)
    (hNoNew : ∀ op ∈ ops, op ≠ .referenceSession sessionID)
    (hReleased : (after step s ops).holders sessionID = 0) :
    (after step s ops).store.sessions.find sessionID = none ∧
      ∃ entryInfo, collect step (cleanups sessionID) s ops =
        [⟨entryInfo, r.referencedObject.inode, r.referencedObject.accessFlags⟩] := by
  induction ops generalizing s with
  | nil =>
    have hHolders : s.holders sessionID = 1 := congrArg Prod.snd hView
    rw [after_nil, hHolders] at hReleased
    cases hReleased
  | cons op ops ih =>
    obtain ⟨hHere, hRest⟩ := List.forall_mem_cons.mp hNoNew
    have hStay : (s.step op).view sessionID = (some r, 1) → s.cleanups sessionID op = [] →
        (after step s (op :: ops)).store.sessions.find sessionID = none ∧
          ∃ entryInfo, collect step (cleanups sessionID) s (op :: ops) =
            [⟨entryInfo, r.referencedObject.inode, r.referencedObject.accessFlags⟩] := by
      intro hSame hNone
      unfold collect
      rw [hNone]
      exact ih hSame hOps.2 hRest hReleased
    by_cases hOther : op.sessionID ≠ sessionID
    · obtain ⟨hSame, hNone⟩ := step_other (s := s) hOther
      exact hStay (hSame.trans hView) hNone
    obtain rfl : op.sessionID = sessionID := not_not.mp hOther
    have hFind := congrArg Prod.fst hView
    have hHolders := congrArg Prod.snd hView
    cases op with
    | referenceSession _ => exact absurd rfl hHere
    | releaseSession session entryInfo =>
      change s.store.sessions.find session.sessionID = some r at hFind
      change s.holders session.sessionID = 1 at hHolders
      have hGone : (s.step (.releaseSession session entryInfo)).view session.sessionID =
          (none, 0) := by
        rw [view_release, hFind, hHolders]
        simp [released, hMark, hOne]
      obtain ⟨hNone, hQuiet⟩ := after_gone hGone hOps.2 hRest
      refine ⟨hNone, entryInfo, ?_⟩
      show s.cleanups session.sessionID (.releaseSession session entryInfo) ++
        collect step (cleanups session.sessionID) _ ops = _
      rw [hQuiet, cleanups, if_pos rfl, cleanup_releaseSession, hFind, bind_some,
        if_pos ⟨hMark, hOne⟩]
      rfl
    | removeSession otherID =>
      change s.store.sessions.find otherID = some r at hFind
      change s.holders otherID = 1 at hHolders
      refine hStay ((view_remove s otherID).trans ?_) rfl
      rw [hFind, hHolders, bind_some, removed, if_pos (by omega)]
      simp only [setUseAsyncCleanup, Prod.mk.injEq, some.injEq, and_true]
      rw [← hMark]

/-- The session has left the store, and its inode was closed by exactly one asynchronous
cleanup. -/
def CleanedUpOnce (sessionID : Nat) (session : SessionFile ι) (s : SharedSessions ι)
    (ops : List (SessionOp ι)) : Prop :=
  (Run.after step s ops).store.sessions.find sessionID = none ∧
    ∃ entryInfo, Run.collect step (cleanups sessionID) s ops =
      [⟨entryInfo, session.inode, session.accessFlags⟩]

/-- A session is found referenced by a removal, and marked. No cleanup of it is performed while
somebody holds a reference. When all references have been released, and no new one was taken,
it has been cleaned up exactly once if and only if the removal found a single reference. -/
theorem asyncCleanup_iff (hReach : Run.Reachable step Fresh Admitted s)
    {r : SessionFileReferencer ι} (hFind : s.store.sessions.find sessionID = some r)
    (hUsed : r.refCount ≠ 0) (ops : List (SessionOp ι))
    (hOps : Run.EveryStep step Admitted (s.step (.removeSession sessionID)) ops) :
    Run.EveryStep step
      (fun t op => t.cleanups sessionID op ≠ [] → (t.step op).holders sessionID = 0)
      (s.step (.removeSession sessionID)) ops ∧
    ((∀ op ∈ ops, op ≠ .referenceSession sessionID) →
      (Run.after step (s.step (.removeSession sessionID)) ops).holders sessionID = 0 →
      (CleanedUpOnce sessionID r.referencedObject (s.step (.removeSession sessionID)) ops ↔
        r.refCount = 1)) := by
  have hInv := inv_of_reachable hReach
  have hMarkedInv : Inv (s.step (.removeSession sessionID)) := hInv.step trivial
  have hView : (s.step (.removeSession sessionID)).view sessionID =
      (some (setUseAsyncCleanup r), s.holders sessionID) := by
    rw [view_remove, hFind, bind_some, removed, if_pos hUsed]
  constructor
  · refine everyStep_imp step (A := Admitted) (fun _ _ ht hop => Inv.step ht hop) ?_
      hMarkedInv hOps
    intro t op ht _
    exact ht.cleanup_alone
  · intro hNoNew hReleased
    constructor
    · rintro ⟨hGone, -⟩
      by_contra hMore
      have hStuck := after_stuck (congrArg Prod.fst hView) rfl hUsed hMore hNoNew
      rw [hGone] at hStuck
      cases hStuck
    · intro hOne
      have hCounted := hMarkedInv sessionID
      rw [hView] at hCounted
      cases hCounted with
      | unmarked hMark _ => cases hMark
      | marked _ _ _ hLast =>
        refine after_last (r := setUseAsyncCleanup r) ?_ hOne rfl hOps hNoNew hReleased
        rw [hView, hLast hOne]

/-! ## Examples -/

def exampleSession : SessionFile Nat :=
  ⟨100, 0, 7, false, ⟨1, "parent", "entry", "file", .REGULARFILE, 0⟩⟩

def exampleStore : SharedSessions Nat :=
  ⟨⟨OrderedSet.empty.insert (7, ObjectReferencer.new exampleSession)⟩, fun _ => 0⟩

theorem fresh_exampleStore : Fresh exampleStore := by
  refine ⟨fun _ => rfl, fun sessionID r hFind => ?_⟩
  rw [OrderedMap.find_eq_some] at hFind
  rcases OrderedSet.mem_insert.mp hFind with hEmpty | ⟨hSame, -⟩
  · exact absurd hEmpty (OrderedSet.not_mem_empty _)
  · cases hSame
    exact ⟨rfl, rfl⟩

/-- A session that is removed by one thread while another one holds its only reference. -/
theorem asyncCleanup_iff_oneHolder :
    CleanedUpOnce 7 exampleSession
      ((exampleStore.step (.referenceSession 7)).step (.removeSession 7))
      [.removeSession 7, .releaseSession exampleSession exampleSession.entryInfo] := by
  have hReach : Reachable step Fresh Admitted (exampleStore.step (.referenceSession 7)) :=
    .next (.start fresh_exampleStore) trivial
  have hOps : EveryStep step Admitted
      ((exampleStore.step (.referenceSession 7)).step (.removeSession 7))
      [.removeSession 7, .releaseSession exampleSession exampleSession.entryInfo] :=
    ⟨trivial, one_pos, trivial⟩
  exact ((asyncCleanup_iff hReach (r := ⟨1, exampleSession⟩) (by decide) (by decide) _ hOps).2
    (by decide) (by decide)).mpr rfl

/-- Two threads hold a reference when the session is removed: it stays, and its inode is never
closed. -/
theorem not_asyncCleanup :
    ¬ ∀ (s : SharedSessions Nat) (sessionID : Nat) (r : SessionFileReferencer Nat)
      (ops : List (SessionOp Nat)), Run.Reachable step Fresh Admitted s →
      s.store.sessions.find sessionID = some r → r.refCount ≠ 0 →
      Run.EveryStep step Admitted (s.step (.removeSession sessionID)) ops →
      (∀ op ∈ ops, op ≠ .referenceSession sessionID) →
      (Run.after step (s.step (.removeSession sessionID)) ops).holders sessionID = 0 →
      CleanedUpOnce sessionID r.referencedObject (s.step (.removeSession sessionID)) ops := by
  intro h
  have hReach : Reachable step Fresh Admitted
      ((exampleStore.step (.referenceSession 7)).step (.referenceSession 7)) :=
    .next (.next (.start fresh_exampleStore) trivial) trivial
  obtain ⟨hGone, -⟩ := h _ 7 ⟨2, exampleSession⟩
    [.releaseSession exampleSession exampleSession.entryInfo,
      .releaseSession exampleSession exampleSession.entryInfo]
    hReach (by decide) (by decide) ⟨Nat.two_pos, one_pos, trivial⟩ (by decide) (by decide)
  revert hGone
  decide

end SharedSessions

end Fhgfs.Session
