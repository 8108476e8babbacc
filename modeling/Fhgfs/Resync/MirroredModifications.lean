import Fhgfs.Lib.Run
import Fhgfs.Resync.ChunkExclusion

/-!
# Mirrored modifications around a resync

The marker of a worker that could not reach the secondary is what makes the next job copy the
chunk. `BuddyResyncJob` removes the marker after success without a look at the time it was set.
A worker that met an offline secondary after the job had copied its chunk is forgotten so
(`not_onBoth`). If no job removes the marker of such a modification, every acknowledged
modification is on both targets, or the marker is set (`onBoth_of_keepsMark`).
-/

namespace Fhgfs.Resync.BuddyGroup

open Function Finset List.Subset
open Nodes (CombinedTargetState)

variable {κ W : Type}

/-- The marker is set, and a job that runs will still copy the chunk or has missed it. -/
def Covered (s : BuddyGroup κ W) (chunkID : κ) : Prop :=
  s.buddyNeedsResync = true ∧ chunkID ∈ s.chunkFiles ∧
    match s.job with
    | .syncing candidates _ => chunkID ∈ candidates ∨ chunkID ∈ s.missed
    | .succeeded => chunkID ∈ s.missed
    | _ => True

/-- A local modification is on the buddy or will be. -/
def Safe (s : BuddyGroup κ W) (request : κ × Nat) : Prop :=
  request.2 ∈ s.chunks request.1 ∧ (request.2 ∈ s.buddyChunks request.1 ∨ s.Covered request.1)

structure WorkSafe (s : BuddyGroup κ W) (work : Work κ) : Prop where
  unmodified : (work.mirror = .unprepared ∨
      work.type = .trunc ∧ (work.mirror = .sent ∨ work.mirror = .applied)) →
    work.localRes = none
  applied : (work.mirror = .applied ∨ work.mirror = .confirmed) →
    work.modification ∈ s.buddyChunks work.chunkID
  modified : work.localRes = some true →
    work.modification ∈ s.chunks work.chunkID ∧ work.chunkID ∈ s.chunkFiles
  off : work.localRes = some true → work.mirror = .off → s.Safe (work.chunkID, work.modification)

structure Inv (s : BuddyGroup κ W) : Prop where
  exclusion : s.Exclusion
  acked : ∀ request ∈ s.acked, s.Safe request
  works : ∀ w work, s.workers w = some work → s.WorkSafe work

/-! ## Steps of the workers -/

/-- What a worker does to what the others rely on. -/
structure Grows (s s' : BuddyGroup κ W) : Prop where
  chunks : ∀ chunkID, s.chunks chunkID ⊆ s'.chunks chunkID
  buddyChunks : ∀ chunkID, s.buddyChunks chunkID ⊆ s'.buddyChunks chunkID
  chunkFiles : s.chunkFiles ⊆ s'.chunkFiles
  marker : s.buddyNeedsResync = true → s'.buddyNeedsResync = true
  missed : s.missed ⊆ s'.missed
  job : s'.job = s.job

variable {s s' : BuddyGroup κ W}

theorem Grows.covered (h : Grows s s') {chunkID : κ} (hCovered : s.Covered chunkID) :
    s'.Covered chunkID := by
  obtain ⟨hMarker, hFile, hJob⟩ := hCovered
  refine ⟨h.marker hMarker, h.chunkFiles hFile, ?_⟩
  rw [h.job]
  cases hPhase : s.job with
  | syncing candidates syncErrors =>
    rw [hPhase] at hJob
    exact hJob.imp_right fun hMissed => h.missed hMissed
  | succeeded =>
    rw [hPhase] at hJob
    exact h.missed hJob
  | _ => trivial

theorem Grows.safe (h : Grows s s') {request : κ × Nat} (hSafe : s.Safe request) :
    s'.Safe request :=
  ⟨h.chunks _ hSafe.1, hSafe.2.imp (fun hBuddy => h.buddyChunks _ hBuddy) h.covered⟩

theorem Grows.workSafe (h : Grows s s') {work : Work κ} (hWork : s.WorkSafe work) :
    s'.WorkSafe work where
  unmodified := hWork.unmodified
  applied := fun hMirror => h.buddyChunks _ (hWork.applied hMirror)
  modified := fun hRes => ⟨h.chunks _ (hWork.modified hRes).1, h.chunkFiles (hWork.modified hRes).2⟩
  off := fun hRes hMirror => h.safe (hWork.off hRes hMirror)

theorem subset_update_append [DecidableEq κ] (chunks : κ → List Nat) (chunkID chunkID' : κ)
    (modification : Nat) :
    chunks chunkID' ⊆ update chunks chunkID (chunks chunkID ++ [modification]) chunkID' := by
  by_cases hEq : chunkID' = chunkID
  · subst hEq
    rw [update_self]
    exact List.subset_append_left _ _
  · rw [update_of_ne hEq]
    exact refl _

theorem subset_recordMissed [DecidableEq κ] (chunkID : κ) : s.missed ⊆ s.recordMissed chunkID := by
  unfold recordMissed
  split
  · split_ifs
    · exact Finset.Subset.refl _
    · exact subset_insert _ _
  · exact subset_insert _ _
  · exact Finset.Subset.refl _

theorem covered_of_recordMissed [DecidableEq κ] {chunkID : κ} (hMarker : s'.buddyNeedsResync = true)
    (hFile : chunkID ∈ s'.chunkFiles) (hJob : s'.job = s.job)
    (hMissed : s'.missed = s.recordMissed chunkID) : s'.Covered chunkID := by
  refine ⟨hMarker, hFile, ?_⟩
  rw [hJob, hMissed]
  unfold recordMissed
  cases s.job with
  | syncing candidates syncErrors =>
    dsimp only
    split_ifs with hCandidate
    · exact Or.inl hCandidate
    · exact Or.inr (mem_insert_self _ _)
  | succeeded => exact mem_insert_self _ _
  | _ => trivial

theorem Inv.setWork [DecidableEq W] (h : s.Inv) (hGrows : Grows s s')
    (hExclusion : s'.Exclusion) {w : W} {work : Work κ}
    (hWorkers : s'.workers = update s.workers w (some work))
    (hAcked : s'.acked = s.acked) (hWork : s'.WorkSafe work) : s'.Inv where
  exclusion := hExclusion
  acked := by
    rw [hAcked]
    exact fun request hRequest => hGrows.safe (h.acked request hRequest)
  works := by
    rw [hWorkers]
    exact ExclusionAt.update_forall hWork fun w' work' _ hw' =>
      hGrows.workSafe (h.works w' work' hw')

theorem Grows.setWork [DecidableEq W] (w : W) (work : Work κ) : Grows s (s.setWork w work) :=
  ⟨fun _ => refl _, fun _ => refl _, Finset.Subset.refl _, id, Finset.Subset.refl _, rfl⟩

theorem Inv.setResult [DecidableEq W] (h : s.Inv) {w : W} {work : Work κ}
    (hExclusion : (s.setWork w work).Exclusion) (hWork : s.WorkSafe work) :
    (s.setWork w work).Inv :=
  h.setWork (Grows.setWork w work) hExclusion rfl rfl ((Grows.setWork w work).workSafe hWork)

section

variable [DecidableEq W] {w : W} {work : Work κ}

theorem Inv.prepareMirroring (h : s.Inv) (hWork : s.WorkSafe work)
    (hUnprepared : work.mirror = .unprepared)
    (hExclusion : (s.prepareMirroring w work).Exclusion) : (s.prepareMirroring w work).Inv := by
  have hNone := hWork.unmodified (Or.inl hUnprepared)
  have hNext : ∀ mirror, (mirror = .off ∨ mirror = .failed ∨ mirror = .sent) →
      s.WorkSafe { work with mirror := mirror } := by
    intro mirror hMirror
    refine ⟨fun _ => hNone, fun hApplied => ?_, hWork.modified, fun hRes => ?_⟩
    · rcases hMirror with rfl | rfl | rfl <;> rcases hApplied with hApplied | hApplied <;>
        cases hApplied
    · rw [show work.localRes = none from hNone] at hRes
      cases hRes
  unfold BuddyGroup.prepareMirroring at hExclusion ⊢
  split_ifs at hExclusion ⊢
  · have hGrows : ∀ work', Grows s { s.setWork w work' with buddyNeedsResync := true } :=
      fun work' => { Grows.setWork w work' with marker := fun _ => rfl }
    exact h.setWork (hGrows _) hExclusion rfl rfl ((hGrows _).workSafe (hNext _ (by simp)))
  · exact h.setResult hExclusion (hNext _ (by simp))
  · exact h.setResult hExclusion (hNext _ (by simp))

variable [DecidableEq κ]

section

variable (h : s.Inv) (hWork : s.WorkSafe work)
include h hWork

theorem Inv.finishMirroring (response : MirrorResponse)
    (hExclusion : (s.finishMirroring w work response).Exclusion) :
    (s.finishMirroring w work response).Inv := by
  cases response with
  | SUCCESS =>
    unfold BuddyGroup.finishMirroring at hExclusion ⊢
    dsimp only at hExclusion ⊢
    split_ifs at hExclusion ⊢ with hGuard
    · refine h.setResult hExclusion ⟨fun hMirror => ?_, fun _ => hWork.applied (Or.inl hGuard.1),
        hWork.modified, fun _ hMirror => ?_⟩
      · simp at hMirror
      · cases hMirror
    · exact h
  | UNKNOWNTARGET =>
    unfold BuddyGroup.finishMirroring at hExclusion ⊢
    dsimp only at hExclusion ⊢
    split_ifs at hExclusion ⊢ with hGuard hRes
    · have hGrows : ∀ work', Grows s { s.setWork w work' with
          buddyNeedsResync := true, missed := s.recordMissed work.chunkID } := fun work' =>
        { Grows.setWork w work' with
          marker := fun _ => rfl, missed := subset_recordMissed work.chunkID }
      have hModified := hWork.modified hRes
      refine h.setWork (hGrows _) hExclusion rfl rfl ⟨fun hMirror => ?_, fun hMirror => ?_,
        fun _ => hModified, fun _ _ => ⟨hModified.1, Or.inr ?_⟩⟩
      · simp at hMirror
      · simp at hMirror
      · exact covered_of_recordMissed (s := s) rfl hModified.2 rfl rfl
    · have hGrows : ∀ work', Grows s { s.setWork w work' with buddyNeedsResync := true } :=
        fun work' => { Grows.setWork w work' with marker := fun _ => rfl }
      refine h.setWork (hGrows _) hExclusion rfl rfl ⟨fun hMirror => ?_, fun hMirror => ?_,
        hWork.modified, fun hSome => absurd hSome hRes⟩
      · simp at hMirror
      · simp at hMirror
    · exact h
  | error =>
    unfold BuddyGroup.finishMirroring at hExclusion ⊢
    dsimp only at hExclusion ⊢
    split_ifs at hExclusion ⊢ with hGuard
    · refine h.setResult hExclusion ⟨fun hMirror => ?_, fun hMirror => ?_, hWork.modified,
        fun _ hMirror => ?_⟩
      · simp at hMirror
      · simp at hMirror
      · cases hMirror
    · exact h
  | retry =>
    unfold BuddyGroup.finishMirroring at hExclusion ⊢
    dsimp only at hExclusion ⊢
    split_ifs at hExclusion ⊢ with hGuard
    · refine h.setResult hExclusion ⟨fun _ => hWork.unmodified (Or.inr hGuard), fun hMirror => ?_,
        hWork.modified, fun _ hMirror => ?_⟩
      · simp at hMirror
      · cases hMirror
    · exact h

theorem Inv.secondaryModifies (hSent : work.mirror = .sent)
    (hExclusion : { s.setWork w { work with mirror := .applied } with
      buddyChunks := update s.buddyChunks work.chunkID
        (s.buddyChunks work.chunkID ++ [work.modification]) }.Exclusion) :
    { s.setWork w { work with mirror := .applied } with
      buddyChunks := update s.buddyChunks work.chunkID
        (s.buddyChunks work.chunkID ++ [work.modification]) }.Inv := by
  have hGrows : ∀ work', Grows s { s.setWork w work' with
      buddyChunks := update s.buddyChunks work.chunkID
        (s.buddyChunks work.chunkID ++ [work.modification]) } := fun work' =>
    { Grows.setWork w work' with
      buddyChunks := fun _ => subset_update_append _ _ _ _ }
  refine h.setWork (hGrows _) hExclusion rfl rfl ⟨fun hMirror => ?_, fun _ => ?_,
    hWork.modified, fun _ hMirror => ?_⟩
  · rcases hMirror with hMirror | ⟨hType, -⟩
    · cases hMirror
    · exact hWork.unmodified (Or.inr ⟨hType, Or.inl hSent⟩)
  · show work.modification ∈ update s.buddyChunks work.chunkID _ work.chunkID
    rw [update_self]
    exact List.mem_append_right _ (List.mem_singleton_self _)
  · cases hMirror

theorem Inv.modify (hMay : work.mayModify = true) {success : Bool}
    (hMark : success = true → work.mirror = .off → s.buddyNeedsResync = true)
    (hExclusion : (s.modify w work success).Exclusion) : (s.modify w work success).Inv := by
  have hLate : ¬ (work.mirror = .unprepared ∨
      work.type = .trunc ∧ (work.mirror = .sent ∨ work.mirror = .applied)) := by
    unfold Work.mayModify at hMay
    rintro (hMirror | ⟨hType, hMirror | hMirror⟩)
    · cases hType : work.type <;> simp [hType, hMirror] at hMay
    · simp [hType, hMirror] at hMay
    · simp [hType, hMirror] at hMay
  unfold BuddyGroup.modify at hExclusion ⊢
  cases success with
  | false =>
    refine h.setResult hExclusion ⟨fun hEarly => absurd hEarly hLate, hWork.applied,
      fun hRes => ?_, fun hRes => ?_⟩
    · cases hRes
    · cases hRes
  | true =>
    rw [if_pos rfl] at hExclusion ⊢
    have hMissed : s.missed ⊆
        if work.mirror = .off then s.recordMissed work.chunkID else s.missed := by
      split_ifs
      · exact subset_recordMissed work.chunkID
      · exact Finset.Subset.refl _
    have hGrows : ∀ work', Grows s { s.setWork w work' with
        chunks := update s.chunks work.chunkID
          (s.chunks work.chunkID ++ [work.modification])
        chunkFiles := insert work.chunkID s.chunkFiles
        missed := if work.mirror = .off then s.recordMissed work.chunkID else s.missed } :=
      fun work' => { Grows.setWork w work' with
        chunks := fun _ => subset_update_append _ _ _ _
        chunkFiles := subset_insert _ _
        missed := hMissed }
    have hThere : work.modification ∈ update s.chunks work.chunkID
        (s.chunks work.chunkID ++ [work.modification]) work.chunkID := by
      rw [update_self]
      exact List.mem_append_right _ (List.mem_singleton_self _)
    refine h.setWork (hGrows _) hExclusion rfl rfl ⟨fun hEarly => absurd hEarly hLate,
      hWork.applied, fun _ => ⟨hThere, mem_insert_self _ _⟩, fun _ hOff => ⟨hThere, ?_⟩⟩
    exact Or.inr (covered_of_recordMissed (s := s) (hMark rfl hOff) (mem_insert_self _ _) rfl
      (if_pos hOff))

theorem Inv.respond (hDone : work.done = true)
    (hExclusion : (s.respond w work).Exclusion) : (s.respond w work).Inv := by
  have hGrows : Grows s (s.respond w work) :=
    ⟨fun _ => refl _, fun _ => refl _, Finset.Subset.refl _, id, Finset.Subset.refl _, rfl⟩
  refine ⟨hExclusion, fun request hRequest => ?_, fun w' work' hw' => ?_⟩
  · unfold BuddyGroup.respond at hRequest
    dsimp only at hRequest
    split_ifs at hRequest with hAck
    · rcases List.mem_append.mp hRequest with hOld | hNew
      · exact hGrows.safe (h.acked request hOld)
      · rw [List.mem_singleton.mp hNew]
        refine hGrows.safe ?_
        rcases of_decide_eq_true hDone with hFailed | ⟨hOff | hConfirmed, -⟩
        · exact absurd hFailed hAck.1
        · exact hWork.off hAck.2 hOff
        · exact ⟨(hWork.modified hAck.2).1, Or.inl (hWork.applied (Or.inr hConfirmed))⟩
    · exact hGrows.safe (h.acked request hRequest)
  · by_cases hEq : w' = w
    · subst hEq
      have hNone : (s.respond w' work).workers w' = none := update_self ..
      rw [hNone] at hw'
      cases hw'
    · have hSame : (s.respond w work).workers w' = s.workers w' := update_of_ne hEq ..
      rw [hSame] at hw'
      exact hGrows.workSafe (h.works w' work' hw')

end

end

/-! ## Steps of the job, and all steps -/

theorem Inv.setJob (h : s.Inv) (hExclusion : s'.Exclusion) (hChunks : s'.chunks = s.chunks)
    (hBuddy : s'.buddyChunks = s.buddyChunks) (hFiles : s'.chunkFiles = s.chunkFiles)
    (hWorkers : s'.workers = s.workers) (hAcked : s'.acked = s.acked)
    (hCovered : ∀ chunkID, s.Covered chunkID → s'.Covered chunkID) : s'.Inv := by
  have hSafe : ∀ request, s.Safe request → s'.Safe request := by
    rintro request ⟨hLocal, hOther⟩
    refine ⟨hChunks ▸ hLocal, ?_⟩
    rw [hBuddy]
    exact hOther.imp_right (hCovered _)
  refine ⟨hExclusion, fun request hRequest => ?_, fun w work hw => ?_⟩
  · rw [hAcked] at hRequest
    exact hSafe request (h.acked request hRequest)
  · rw [hWorkers] at hw
    have hWork := h.works w work hw
    refine ⟨hWork.unmodified, ?_, ?_, fun hRes hMirror => hSafe _ (hWork.off hRes hMirror)⟩
    · rw [hBuddy]
      exact hWork.applied
    · rw [hChunks, hFiles]
      exact hWork.modified

/-- The marker of a modification that the job has missed is kept. -/
def KeepsMark (s : BuddyGroup κ W) : GroupStep κ W → Prop
  | .job .removeMarker => s.job = .succeeded → s.missed = ∅
  | .worker w (.modify true) =>
    match s.workers w with
    | some work => work.mayModify = true → work.mirror = .off → s.buddyNeedsResync = true
    | none => True
  | _ => True

instance [DecidableEq κ] [DecidableEq W] (s : BuddyGroup κ W) (op : GroupStep κ W) :
    Decidable (s.KeepsMark op) := by
  unfold KeepsMark
  split
  · infer_instance
  · split <;> infer_instance
  · infer_instance

theorem Inv.workStep [DecidableEq κ] [DecidableEq W] (h : s.Inv) {w : W} {work : Work κ}
    (hw : s.workers w = some work) (op : WorkerStep κ) (hKeeps : s.KeepsMark (.worker w op)) :
    (s.workStep w work op).Inv := by
  have hExclusion := h.exclusion.workStep hw op
  have hWork := h.works w work hw
  cases op with
  | incCounter => exact h
  | receive type chunkID => exact h
  | isBuddyResyncInProgress =>
    unfold BuddyGroup.workStep at hExclusion ⊢
    dsimp only at hExclusion ⊢
    split_ifs at hExclusion ⊢
    · exact h.setResult hExclusion ⟨hWork.unmodified, hWork.applied, hWork.modified, hWork.off⟩
    · exact h.setResult hExclusion ⟨hWork.unmodified, hWork.applied, hWork.modified, hWork.off⟩
    · exact h
  | lockChunk =>
    unfold BuddyGroup.workStep at hExclusion ⊢
    dsimp only at hExclusion ⊢
    split_ifs at hExclusion ⊢
    · have hGrows : ∀ work', Grows s { s.setWork w work' with
          lockedChunks := insert work.chunkID s.lockedChunks } := fun work' =>
        { Grows.setWork w work' with }
      exact h.setWork (hGrows _) hExclusion rfl rfl ((hGrows _).workSafe
        ⟨hWork.unmodified, hWork.applied, hWork.modified, hWork.off⟩)
    · exact h
  | refuse =>
    unfold BuddyGroup.workStep at hExclusion ⊢
    dsimp only at hExclusion ⊢
    split_ifs at hExclusion ⊢
    · refine h.setResult hExclusion ⟨fun hMirror => ?_, fun hMirror => ?_, hWork.modified,
        fun _ hMirror => ?_⟩
      · simp at hMirror
      · simp at hMirror
      · cases hMirror
    · exact h
  | prepareMirroring =>
    unfold BuddyGroup.workStep at hExclusion ⊢
    dsimp only at hExclusion ⊢
    split_ifs at hExclusion ⊢ with hGuard
    · exact h.prepareMirroring hWork hGuard.2 hExclusion
    · exact h
  | secondaryModifies =>
    unfold BuddyGroup.workStep at hExclusion ⊢
    dsimp only at hExclusion ⊢
    split_ifs at hExclusion ⊢ with hSent
    · exact h.secondaryModifies hWork hSent hExclusion
    · exact h
  | finishMirroring response => exact h.finishMirroring hWork response hExclusion
  | modify success =>
    unfold BuddyGroup.workStep at hExclusion ⊢
    dsimp only at hExclusion ⊢
    split_ifs at hExclusion ⊢ with hMay
    · refine h.modify hWork hMay (fun hSuccess => ?_) hExclusion
      subst hSuccess
      simp only [KeepsMark, hw] at hKeeps
      exact hKeeps hMay
    · exact h
  | respond =>
    unfold BuddyGroup.workStep at hExclusion ⊢
    dsimp only at hExclusion ⊢
    split_ifs at hExclusion ⊢ with hDone
    · exact h.respond hWork hDone hExclusion
    · exact h

section

variable [DecidableEq κ] [DecidableEq W] [Fintype W]

theorem Inv.syncChunk (h : s.Inv) {chunkID : κ} (success : Bool)
    (hExclusion : (s.jobStep (.syncChunk chunkID success)).Exclusion) :
    (s.jobStep (.syncChunk chunkID success)).Inv := by
  unfold BuddyGroup.jobStep at hExclusion ⊢
  dsimp only at hExclusion ⊢
  split at hExclusion
  · next candidates syncErrors data hJob hData =>
    obtain ⟨before, behind, hSyncs, -⟩ := List.lookup_eq_some_iff.mp hData
    have hSync : (chunkID, data) ∈ s.syncs := by simp [hSyncs]
    have hCovered : ∀ {chunkID}, s.Covered chunkID → s.buddyNeedsResync = true ∧
        chunkID ∈ s.chunkFiles ∧ (chunkID ∈ candidates ∨ chunkID ∈ s.missed) := by
      intro chunkID hCovered
      unfold Covered at hCovered
      rwa [hJob] at hCovered
    split_ifs at hExclusion ⊢
    · -- the other chunks stay as they are, and this one is the same on both targets
      have hData' : data = s.chunks chunkID := (h.exclusion.syncLocked _ hSync).2
      have hSafe : ∀ request, s.Safe request → Safe { s with
          lockedChunks := s.lockedChunks.erase chunkID
          syncs := s.syncs.filter fun sync => sync.1 ≠ chunkID
          buddyChunks := update s.buddyChunks chunkID data
          job := .syncing (candidates.erase chunkID) syncErrors
          missed := s.missed.erase chunkID } request := by
        rintro request ⟨hLocal, hOther⟩
        refine ⟨hLocal, ?_⟩
        by_cases hEq : request.1 = chunkID
        · left
          show request.2 ∈ update s.buddyChunks chunkID data request.1
          rwa [hEq, update_self, hData', ← hEq]
        rcases hOther with hBuddy | hOther
        · left
          show request.2 ∈ update s.buddyChunks chunkID data request.1
          rwa [update_of_ne hEq]
        · right
          obtain ⟨hMarker, hFile, hWhere⟩ := hCovered hOther
          exact ⟨hMarker, hFile, hWhere.imp (fun hMem => mem_erase.mpr ⟨hEq, hMem⟩)
            fun hMem => mem_erase.mpr ⟨hEq, hMem⟩⟩
      refine ⟨hExclusion, fun request hRequest => hSafe request (h.acked request hRequest),
        fun w work hw => ?_⟩
      have hWork := h.works w work hw
      refine ⟨hWork.unmodified, fun hMirror => ?_, hWork.modified,
        fun hRes hMirror => hSafe _ (hWork.off hRes hMirror)⟩
      have hNe : work.chunkID ≠ chunkID := h.exclusion.ne_syncing hSync hw
        (h.exclusion.lockingDone hw (by rintro hEq; simp [hEq] at hMirror)
          (by rintro hEq; simp [hEq] at hMirror))
      show work.modification ∈ update s.buddyChunks chunkID data work.chunkID
      rw [update_of_ne hNe]
      exact hWork.applied hMirror
    · exact h.setJob hExclusion rfl rfl rfl rfl rfl fun _ hOther => hCovered hOther
  · exact h

theorem Inv.jobStep (h : s.Inv) (op : JobStep κ) (hKeeps : s.KeepsMark (.job op)) :
    (s.jobStep op).Inv := by
  have hExclusion := h.exclusion.jobStep op
  unfold BuddyGroup.jobStep at hExclusion ⊢
  cases op with
  | setResyncInProgress | informBuddy | clearResyncInProgress =>
    dsimp only at hExclusion ⊢
    split at hExclusion
    · exact h.setJob hExclusion rfl rfl rfl rfl rfl fun _ hCovered =>
        ⟨hCovered.1, hCovered.2.1, trivial⟩
    · exact h
  | startSlaves =>
    dsimp only at hExclusion ⊢
    split at hExclusion
    · split_ifs at hExclusion ⊢
      · -- every chunk is a candidate
        exact h.setJob hExclusion rfl rfl rfl rfl rfl fun _ hCovered =>
          ⟨hCovered.1, hCovered.2.1, Or.inl hCovered.2.1⟩
      · exact h
    · exact h
  | lockChunk chunkID =>
    dsimp only at hExclusion ⊢
    split at hExclusion
    · split_ifs at hExclusion ⊢
      · exact h
      · exact h.setJob hExclusion rfl rfl rfl rfl rfl fun _ hCovered => hCovered
    · exact h
  | syncChunk chunkID success => exact h.syncChunk success hExclusion
  | fail status =>
    dsimp only at hExclusion ⊢
    split at hExclusion
    · exact h.setJob hExclusion rfl rfl rfl rfl rfl fun _ hCovered =>
        ⟨hCovered.1, hCovered.2.1, trivial⟩
    · split_ifs at hExclusion ⊢
      · exact h.setJob hExclusion rfl rfl rfl rfl rfl fun _ hCovered =>
          ⟨hCovered.1, hCovered.2.1, trivial⟩
      · exact h
    · exact h
  | succeed =>
    dsimp only at hExclusion ⊢
    split at hExclusion
    · next candidates syncErrors hJob =>
      split_ifs at hExclusion ⊢ with hGuard
      · -- no candidate is left, so the job has missed the chunk
        refine h.setJob hExclusion rfl rfl rfl rfl rfl fun chunkID hCovered => ?_
        unfold Covered at hCovered
        rw [hJob, hGuard.2.1] at hCovered
        obtain ⟨hMarker, hFile, hCandidate | hMissed⟩ := hCovered
        · exact absurd hCandidate (notMem_empty chunkID)
        · exact ⟨hMarker, hFile, hMissed⟩
      · exact h
    · exact h
  | removeMarker =>
    dsimp only at hExclusion ⊢
    split at hExclusion
    · next hJob =>
      refine h.setJob hExclusion rfl rfl rfl rfl rfl fun chunkID hCovered => ?_
      unfold Covered at hCovered
      rw [hJob, hKeeps hJob] at hCovered
      exact absurd hCovered.2.2 (notMem_empty chunkID)
    · exact h

theorem Inv.step (h : s.Inv) (op : GroupStep κ W) (hKeeps : s.KeepsMark op) : (s.step op).Inv := by
  have hExclusion := h.exclusion.step op
  cases op with
  | worker w op =>
    unfold BuddyGroup.step at hExclusion ⊢
    dsimp only at hExclusion ⊢
    cases hw : s.workers w with
    | some work => exact h.workStep hw op hKeeps
    | none =>
      rw [hw] at hExclusion
      cases op with
      | incCounter =>
        unfold BuddyGroup.idleStep at hExclusion ⊢
        dsimp only at hExclusion ⊢
        split at hExclusion
        · exact h.setJob hExclusion rfl rfl rfl rfl rfl fun _ hCovered =>
            ⟨hCovered.1, hCovered.2.1, trivial⟩
        · exact h
      | receive type chunkID =>
        have hGrows : ∀ work', Grows s { s.setWork w work' with received := s.received + 1 } :=
          fun work' => { Grows.setWork w work' with }
        refine h.setWork (hGrows _) hExclusion rfl rfl ⟨fun _ => rfl, fun hMirror => ?_,
          fun hRes => ?_, fun hRes => ?_⟩
        · simp at hMirror
        · cases hRes
        · cases hRes
      | _ => exact h
  | job op => exact h.jobStep op hKeeps
  | secondaryState state =>
    exact h.setJob hExclusion rfl rfl rfl rfl rfl fun _ hCovered => hCovered

end

theorem Inv.start (state : CombinedTargetState) : (start state : BuddyGroup κ W).Inv where
  exclusion := {
    inProgress := (absurd rfl ·)
    barrier := fun w work hw => by cases hw
    locked := fun w work hw => by cases hw
    alone := fun w w' work work' hw => by cases hw
    early := fun w work hw => by cases hw
    syncLocked := fun sync hSync => by cases hSync
    syncAlone := fun sync hSync => by cases hSync
    syncing := fun hSome => absurd rfl hSome }
  acked := fun request hRequest => by cases hRequest
  works := fun w work hw => by cases hw

theorem Inv.onBoth (h : s.Inv) (hClear : s.buddyNeedsResync = false) : s.OnBoth := by
  intro request hRequest
  obtain ⟨hLocal, hBuddy | hCovered⟩ := h.acked request hRequest
  · exact ⟨hLocal, hBuddy⟩
  · rw [hCovered.1] at hClear
    cases hClear

/-- In every run in which no job removes the marker of a modification that it has missed, every
acknowledged modification is on both targets when all is settled. -/
theorem onBoth_of_keepsMark [DecidableEq κ] [DecidableEq W] [Fintype W]
    (state : CombinedTargetState) (ops : List (GroupStep κ W))
    (hKeeps : Run.EveryStep step KeepsMark (start state) ops)
    (hSettled : (Run.after step (start state) ops).Settled) :
    (Run.after step (start state) ops).OnBoth := by
  have hInv : (Run.after step (start state) ops).Inv :=
    Run.after_invariant step (I := Inv) (A := KeepsMark) (fun _ op h hStep => h.step op hStep)
      (Inv.start state) hKeeps
  exact hInv.onBoth hSettled.1

/-- A write that finds the secondary offline, and a truncate while the job waits for its slaves. -/
theorem onBoth_of_keepsMark_offline :
    let ops : List (GroupStep Unit Unit) := [.worker () (.receive .write ()),
      .worker () .isBuddyResyncInProgress, .worker () .prepareMirroring,
      .worker () (.modify true), .worker () .respond, .secondaryState ⟨.ONLINE, .NEEDS_RESYNC⟩,
      .job .setResyncInProgress, .worker () .incCounter, .job .startSlaves,
      .worker () (.receive .trunc ()), .worker () .isBuddyResyncInProgress,
      .worker () .lockChunk, .worker () .prepareMirroring, .worker () .secondaryModifies,
      .worker () (.finishMirroring .SUCCESS), .worker () (.modify true), .worker () .respond,
      .job (.lockChunk ()), .job (.syncChunk () true), .job .succeed, .job .removeMarker,
      .job .informBuddy, .job .clearResyncInProgress]
    (Run.after step (start ⟨.OFFLINE, .GOOD⟩) ops).acked = [((), 0), ((), 1)] ∧
      (Run.after step (start ⟨.OFFLINE, .GOOD⟩) ops).OnBoth :=
  ⟨by decide +kernel, onBoth_of_keepsMark ⟨.OFFLINE, .GOOD⟩ _ (by decide +kernel)
    (by decide +kernel)⟩

/-- The secondary goes offline between the copy of the chunk and the end of the job. -/
theorem not_onBoth :
    let ops : List (GroupStep Unit Unit) := [.worker () (.receive .write ()),
      .worker () .isBuddyResyncInProgress, .worker () .prepareMirroring,
      .worker () .secondaryModifies, .worker () (.modify true),
      .worker () (.finishMirroring .SUCCESS), .worker () .respond,
      .job .setResyncInProgress, .worker () .incCounter, .job .startSlaves,
      .job (.lockChunk ()), .job (.syncChunk () true),
      .secondaryState ⟨.OFFLINE, .NEEDS_RESYNC⟩,
      .worker () (.receive .write ()), .worker () .isBuddyResyncInProgress,
      .worker () .lockChunk, .worker () .prepareMirroring, .worker () (.modify true),
      .worker () .respond, .job .succeed, .job .removeMarker, .job .informBuddy,
      .job .clearResyncInProgress]
    (Run.after step (start ⟨.ONLINE, .NEEDS_RESYNC⟩) ops).Settled ∧
      ¬ (Run.after step (start ⟨.ONLINE, .NEEDS_RESYNC⟩) ops).OnBoth := by
  decide +kernel

end Fhgfs.Resync.BuddyGroup
