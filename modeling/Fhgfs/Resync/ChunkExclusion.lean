import Fhgfs.Resync.BuddyGroup

/-!
# Slaves and workers on one chunk

While a slave copies a chunk, no worker is past the lock of the chunk. Requests that found the
flag set hold the lock, and the job has waited for the others.
-/

namespace Fhgfs.Resync

open BuddyGroup Function Finset List

variable {κ W : Type}

/-- The job does not rely on the worker having seen the flag. -/
def JobPhase.Awaits (job : JobPhase κ W) (w : W) : Prop :=
  match job with
  | .waiting readyWorkers => w ∉ readyWorkers
  | .syncing _ _ => False
  | _ => True

/-- What the flag, the locks and the barrier guarantee, on the parts of the state they are
about. -/
structure ExclusionAt (inProgress : Bool) (job : JobPhase κ W) (workers : W → Option (Work κ))
    (lockedChunks : Finset κ) (syncs : List (κ × List Nat)) (chunks : κ → List Nat) : Prop where
  inProgress : job ≠ .idle → inProgress = true
  barrier : ∀ w work, workers w = some work → work.locking = .notLocked → job.Awaits w
  locked : ∀ w work, workers w = some work → work.locking = .locked → work.chunkID ∈ lockedChunks
  alone : ∀ w w' work work', workers w = some work → workers w' = some work' →
    work.locking = .locked → work'.locking = .locked → work.chunkID = work'.chunkID → w = w'
  early : ∀ w work, workers w = some work → work.lockingDone = false →
    (work.mirror = .unprepared ∨ work.mirror = .failed) ∧ work.localRes = none
  syncLocked : ∀ sync ∈ syncs, sync.1 ∈ lockedChunks ∧ sync.2 = chunks sync.1
  syncAlone : ∀ sync ∈ syncs, ∀ w work, workers w = some work → work.locking = .locked →
    work.chunkID ≠ sync.1
  syncing : syncs ≠ [] → ∃ candidates syncErrors, job = .syncing candidates syncErrors

def BuddyGroup.Exclusion (s : BuddyGroup κ W) : Prop :=
  ExclusionAt s.buddyResyncInProgress s.job s.workers s.lockedChunks s.syncs s.chunks

theorem Work.lockingDone_iff {work : Work κ} :
    work.lockingDone = true ↔ work.locking = .notLocked ∨ work.locking = .locked := by
  simp [Work.lockingDone]

namespace ExclusionAt

variable {inProgress : Bool} {job : JobPhase κ W} {workers : W → Option (Work κ)}
  {lockedChunks : Finset κ} {syncs : List (κ × List Nat)} {chunks : κ → List Nat}

variable {work : Work κ} {w : W}

section

variable (h : ExclusionAt inProgress job workers lockedChunks syncs chunks)
include h

theorem ne_syncing {sync : κ × List Nat} (hSync : sync ∈ syncs)
    (hWork : workers w = some work) (hDone : work.lockingDone = true) :
    work.chunkID ≠ sync.1 := by
  rcases Work.lockingDone_iff.mp hDone with hNot | hLocked
  · obtain ⟨candidates, syncErrors, hJob⟩ := h.syncing (ne_nil_of_mem hSync)
    have hAwaits := h.barrier w work hWork hNot
    rw [hJob] at hAwaits
    exact hAwaits.elim
  · exact h.syncAlone sync hSync w work hWork hLocked

theorem lockingDone (hWork : workers w = some work) (hPrepared : work.mirror ≠ .unprepared)
    (hRunning : work.mirror ≠ .failed) : work.lockingDone = true := by
  by_contra hDone
  rcases (h.early w work hWork (by simpa using hDone)).1 with hMirror | hMirror
  · exact hPrepared hMirror
  · exact hRunning hMirror

theorem lockingDone_of_mayModify (hWork : workers w = some work) (hMay : work.mayModify = true) :
    work.lockingDone = true := by
  refine h.lockingDone hWork ?_ ?_ <;>
    · intro hMirror
      unfold Work.mayModify at hMay
      rw [hMirror] at hMay
      cases hType : work.type <;> simp [hType] at hMay

end

theorem update_forall [DecidableEq W] {P : W → Work κ → Prop} (hNew : P w work)
    (hOthers : ∀ w' work', w' ≠ w → workers w' = some work' → P w' work') :
    ∀ w' work', update workers w (some work) w' = some work' → P w' work' := by
  intro w' work' hWork'
  by_cases hw : w' = w
  · subst hw
    rw [update_self] at hWork'
    exact Option.some.inj hWork' ▸ hNew
  · rw [update_of_ne hw] at hWork'
    exact hOthers w' work' hw hWork'

section

variable (h : ExclusionAt inProgress job workers lockedChunks syncs chunks)
include h

section

variable [DecidableEq W] {work work' : Work κ} (hWork : workers w = some work)
  (hChunk : work'.chunkID = work.chunkID)
include hWork hChunk

/-- A worker goes on with its request, without the lock of the chunk or with the lock that it
already had. -/
theorem setWork (hLocked : work'.locking = .locked → work.locking = .locked)
    (hBarrier : work'.locking = .notLocked → job.Awaits w) (hEarly : work'.lockingDone = false →
      (work'.mirror = .unprepared ∨ work'.mirror = .failed) ∧ work'.localRes = none) :
    ExclusionAt inProgress job (update workers w (some work')) lockedChunks syncs chunks where
  inProgress := h.inProgress
  barrier := update_forall hBarrier fun w' work' _ => h.barrier w' work'
  locked := update_forall (fun hHeld => hChunk ▸ h.locked w work hWork (hLocked hHeld))
    fun w' work' _ => h.locked w' work'
  alone := by
    intro w₁ w₂ work₁ work₂ h₁ h₂ hHeld₁ hHeld₂ hSame
    -- both were locked before, for the same chunks
    have hBefore : ∀ w₀ work₀, update workers w (some work') w₀ = some work₀ →
        work₀.locking = .locked → ∃ before, workers w₀ = some before ∧
          before.locking = .locked ∧ before.chunkID = work₀.chunkID :=
      update_forall (fun hHeld => ⟨work, hWork, hLocked hHeld, hChunk.symm⟩)
        fun w' work' _ h' hHeld => ⟨work', h', hHeld, rfl⟩
    obtain ⟨before₁, hb₁, hbl₁, hbc₁⟩ := hBefore w₁ work₁ h₁ hHeld₁
    obtain ⟨before₂, hb₂, hbl₂, hbc₂⟩ := hBefore w₂ work₂ h₂ hHeld₂
    exact h.alone w₁ w₂ before₁ before₂ hb₁ hb₂ hbl₁ hbl₂ (hbc₁.trans (hSame.trans hbc₂.symm))
  early := update_forall hEarly fun w' work' _ => h.early w' work'
  syncLocked := h.syncLocked
  syncAlone := fun sync hSync => update_forall
    (fun hHeld => hChunk ▸ h.syncAlone sync hSync w work hWork (hLocked hHeld))
    fun w' work' _ => h.syncAlone sync hSync w' work'
  syncing := h.syncing

theorem setResult (hLocking : work'.locking = work.locking) (hEarly : work'.lockingDone = false →
      (work'.mirror = .unprepared ∨ work'.mirror = .failed) ∧ work'.localRes = none) :
    ExclusionAt inProgress job (update workers w (some work')) lockedChunks syncs chunks :=
  h.setWork hWork hChunk (fun hHeld => hLocking ▸ hHeld)
    (fun hNot => h.barrier w work hWork (hLocking ▸ hNot)) hEarly

end

theorem receive [DecidableEq W]
    (hNew : work.locking = .unchecked) (hMirror : work.mirror = .unprepared)
    (hRes : work.localRes = none) :
    ExclusionAt inProgress job (update workers w (some work)) lockedChunks syncs chunks where
  inProgress := h.inProgress
  barrier := update_forall (fun hNot => by rw [hNew] at hNot; cases hNot)
    fun w' work' _ => h.barrier w' work'
  locked := update_forall (fun hHeld => by rw [hNew] at hHeld; cases hHeld)
    fun w' work' _ => h.locked w' work'
  alone := by
    intro w₁ w₂ work₁ work₂ h₁ h₂ hHeld₁ hHeld₂
    have hBefore : ∀ w₀ work₀, update workers w (some work) w₀ = some work₀ →
        work₀.locking = .locked → workers w₀ = some work₀ :=
      update_forall (fun hHeld => by rw [hNew] at hHeld; cases hHeld)
        fun w' work' _ h' _ => h'
    exact h.alone w₁ w₂ work₁ work₂ (hBefore w₁ work₁ h₁ hHeld₁) (hBefore w₂ work₂ h₂ hHeld₂)
      hHeld₁ hHeld₂
  early := update_forall (fun _ => ⟨Or.inl hMirror, hRes⟩) fun w' work' _ => h.early w' work'
  syncLocked := h.syncLocked
  syncAlone := fun sync hSync => update_forall
    (fun hHeld => by rw [hNew] at hHeld; cases hHeld)
    fun w' work' _ => h.syncAlone sync hSync w' work'
  syncing := h.syncing

theorem lockChunk [DecidableEq κ] [DecidableEq W]
    {work work' : Work κ} (hFree : work.chunkID ∉ lockedChunks)
    (hChunk : work'.chunkID = work.chunkID) (hHeld : work'.locking = .locked) :
    ExclusionAt inProgress job (update workers w (some work'))
      (insert work.chunkID lockedChunks) syncs chunks where
  inProgress := h.inProgress
  barrier := update_forall (fun hNot => by rw [hHeld] at hNot; cases hNot)
    fun w' work' _ => h.barrier w' work'
  locked := update_forall (fun _ => hChunk ▸ mem_insert_self _ _)
    fun w' work' _ hw' hHeld' => mem_insert_of_mem (h.locked w' work' hw' hHeld')
  alone := by
    intro w₁ w₂ work₁ work₂ h₁ h₂ hHeld₁ hHeld₂ hSame
    -- the chunk was not locked, so nobody else holds it
    have hOther : ∀ w₀ work₀, update workers w (some work') w₀ = some work₀ →
        work₀.locking = .locked → w₀ = w ∧ work₀.chunkID = work.chunkID ∨
          workers w₀ = some work₀ ∧ work₀.chunkID ≠ work.chunkID :=
      update_forall (fun _ => Or.inl ⟨rfl, hChunk⟩) fun w' work' _ hw' hHeld' =>
        Or.inr ⟨hw', fun hEq => hFree (hEq ▸ h.locked w' work' hw' hHeld')⟩
    rcases hOther w₁ work₁ h₁ hHeld₁ with ⟨hw₁, hc₁⟩ | ⟨hw₁, hc₁⟩
    · rcases hOther w₂ work₂ h₂ hHeld₂ with ⟨hw₂, -⟩ | ⟨-, hc₂⟩
      · rw [hw₁, hw₂]
      · exact absurd (hSame.symm.trans hc₁) hc₂
    · rcases hOther w₂ work₂ h₂ hHeld₂ with ⟨-, hc₂⟩ | ⟨hw₂, -⟩
      · exact absurd (hSame.trans hc₂) hc₁
      · exact h.alone w₁ w₂ work₁ work₂ hw₁ hw₂ hHeld₁ hHeld₂ hSame
  early := update_forall
    (fun hDone => by rw [Work.lockingDone_iff.mpr (Or.inr hHeld)] at hDone; cases hDone)
    fun w' work' _ => h.early w' work'
  syncLocked := fun sync hSync =>
    ⟨mem_insert_of_mem (h.syncLocked sync hSync).1, (h.syncLocked sync hSync).2⟩
  syncAlone := fun sync hSync => update_forall
    (fun _ hEq => hFree (hChunk ▸ hEq ▸ (h.syncLocked sync hSync).1))
    fun w' work' _ => h.syncAlone sync hSync w' work'
  syncing := h.syncing

theorem modify [DecidableEq κ]
    (hWork : workers w = some work) (hDone : work.lockingDone = true) (content : List Nat) :
    ExclusionAt inProgress job workers lockedChunks syncs (update chunks work.chunkID content) := by
  refine { h with syncLocked := fun sync hSync => ?_ }
  have hNe := h.ne_syncing hSync hWork hDone
  rw [update_of_ne hNe.symm]
  exact h.syncLocked sync hSync

theorem respond [DecidableEq κ] [DecidableEq W] (hWork : workers w = some work) :
    ExclusionAt inProgress job (update workers w none)
      (if work.locking = .locked then lockedChunks.erase work.chunkID else lockedChunks) syncs
      chunks := by
  have hOld : ∀ {w' work'}, update workers w none w' = some work' →
      w' ≠ w ∧ workers w' = some work' := by
    intro w' work' hw'
    by_cases hEq : w' = w
    · rw [hEq, update_self] at hw'
      cases hw'
    · rw [update_of_ne hEq] at hw'
      exact ⟨hEq, hw'⟩
  -- the chunks of the other holders stay locked
  have hStays : ∀ chunkID ∈ lockedChunks, (work.locking = .locked → chunkID ≠ work.chunkID) →
      chunkID ∈ if work.locking = .locked then lockedChunks.erase work.chunkID
        else lockedChunks := by
    intro chunkID hMem hNe
    split_ifs with hHeld
    · exact mem_erase.mpr ⟨hNe hHeld, hMem⟩
    · exact hMem
  exact {
    inProgress := h.inProgress
    barrier := fun w' work' hw' => h.barrier w' work' (hOld hw').2
    locked := fun w' work' hw' hHeld' =>
      hStays _ (h.locked w' work' (hOld hw').2 hHeld') fun hHeld hEq =>
        (hOld hw').1 (h.alone w' w work' work (hOld hw').2 hWork hHeld' hHeld hEq)
    alone := fun w₁ w₂ work₁ work₂ h₁ h₂ =>
      h.alone w₁ w₂ work₁ work₂ (hOld h₁).2 (hOld h₂).2
    early := fun w' work' hw' => h.early w' work' (hOld hw').2
    syncLocked := fun sync hSync =>
      ⟨hStays _ (h.syncLocked sync hSync).1 fun hHeld =>
        (h.syncAlone sync hSync w work hWork hHeld).symm, (h.syncLocked sync hSync).2⟩
    syncAlone := fun sync hSync w' work' hw' => h.syncAlone sync hSync w' work' (hOld hw').2
    syncing := h.syncing }

end

theorem incCounter [DecidableEq W] {readyWorkers : Finset W}
    (h : ExclusionAt inProgress (.waiting readyWorkers) workers lockedChunks syncs chunks)
    (hIdle : workers w = none) :
    ExclusionAt inProgress (.waiting (insert w readyWorkers)) workers lockedChunks syncs
      chunks := by
  refine { h with
    inProgress := fun _ => h.inProgress (by simp)
    barrier := fun w' work' hw' hNot => ?_
    syncing := fun hSome => ?_ }
  · have hAwaits : w' ∉ readyWorkers := h.barrier w' work' hw' hNot
    intro hMem
    rcases mem_insert.mp hMem with hEq | hReady
    · rw [hEq, hIdle] at hw'
      cases hw'
    · exact hAwaits hReady
  · obtain ⟨candidates, syncErrors, hJob⟩ := h.syncing hSome
    cases hJob

theorem setJob (h : ExclusionAt inProgress job workers lockedChunks syncs chunks)
    {job' : JobPhase κ W} {inProgress' : Bool} (hProgress : job' ≠ .idle → inProgress' = true)
    (hAwaits : ∀ w work, workers w = some work → work.locking = .notLocked → job.Awaits w →
      job'.Awaits w) (hSyncs : syncs = []) :
    ExclusionAt inProgress' job' workers lockedChunks syncs chunks :=
  { h with
    inProgress := hProgress
    barrier := fun w work hWork hNot => hAwaits w work hWork hNot (h.barrier w work hWork hNot)
    syncing := fun hSome => absurd hSyncs hSome }

theorem lockForSync [DecidableEq κ] {candidates : Finset κ} {syncErrors : Bool}
    (h : ExclusionAt inProgress (.syncing candidates syncErrors) workers lockedChunks syncs chunks)
    {chunkID : κ} (hFree : chunkID ∉ lockedChunks) :
    ExclusionAt inProgress (.syncing candidates syncErrors) workers
      (insert chunkID lockedChunks) (syncs ++ [(chunkID, chunks chunkID)]) chunks := by
  refine { h with
    locked := fun w work hWork hHeld => Finset.mem_insert_of_mem (h.locked w work hWork hHeld)
    syncLocked := fun sync hSync => ?_
    syncAlone := fun sync hSync w work hWork hHeld => ?_
    syncing := fun _ => ⟨candidates, syncErrors, rfl⟩ }
  · rcases mem_append.mp hSync with hOld | hNew
    · exact ⟨Finset.mem_insert_of_mem (h.syncLocked sync hOld).1, (h.syncLocked sync hOld).2⟩
    · rw [List.mem_singleton.mp hNew]
      exact ⟨Finset.mem_insert_self _ _, rfl⟩
  · rcases mem_append.mp hSync with hOld | hNew
    · exact h.syncAlone sync hOld w work hWork hHeld
    · rw [List.mem_singleton.mp hNew]
      intro hEq
      have hMem := h.locked w work hWork hHeld
      rw [hEq] at hMem
      exact hFree hMem

theorem syncChunk [DecidableEq κ] {candidates candidates' : Finset κ}
    {syncErrors syncErrors' : Bool}
    (h : ExclusionAt inProgress (.syncing candidates syncErrors) workers lockedChunks syncs chunks)
    {chunkID : κ} {data : List Nat} (hSync : (chunkID, data) ∈ syncs) :
    ExclusionAt inProgress (.syncing candidates' syncErrors') workers
      (lockedChunks.erase chunkID) (syncs.filter fun sync => sync.1 ≠ chunkID) chunks := by
  refine { h with
    inProgress := fun _ => h.inProgress (by simp)
    barrier := fun w work hWork hNot => h.barrier w work hWork hNot
    locked := fun w work hWork hHeld => mem_erase.mpr
      ⟨h.syncAlone _ hSync w work hWork hHeld, h.locked w work hWork hHeld⟩
    syncLocked := fun sync hMem => ?_
    syncAlone := fun sync hMem => h.syncAlone sync (mem_filter.mp hMem).1
    syncing := fun _ => ⟨candidates', syncErrors', rfl⟩ }
  obtain ⟨hOld, hNe⟩ := mem_filter.mp hMem
  exact ⟨mem_erase.mpr ⟨by simpa using hNe, (h.syncLocked sync hOld).1⟩, (h.syncLocked sync hOld).2⟩

end ExclusionAt

namespace BuddyGroup

variable [DecidableEq κ] [DecidableEq W] {s : BuddyGroup κ W}

theorem Exclusion.workStep (h : s.Exclusion) {w : W} {work : Work κ}
    (hWork : s.workers w = some work) (op : WorkerStep κ) : (s.workStep w work op).Exclusion := by
  cases op with
  | incCounter => exact h
  | receive type chunkID => exact h
  | isBuddyResyncInProgress =>
    unfold BuddyGroup.workStep
    dsimp only
    split_ifs with hGuard hFlag
    · refine h.setWork hWork rfl (fun hHeld => ?_) (fun hNot => ?_) fun _ => ?_
      · cases hHeld
      · cases hNot
      · exact h.early w work hWork (by simp [Work.lockingDone, hGuard.1])
    · refine h.setWork hWork rfl (fun hHeld => ?_) (fun _ => ?_) fun hDone => ?_
      · cases hHeld
      · have hIdle : s.job = .idle := by
          by_contra hJob
          exact hFlag (h.inProgress hJob)
        rw [hIdle]
        trivial
      · cases hDone
    · exact h
  | lockChunk =>
    unfold BuddyGroup.workStep
    dsimp only
    split_ifs with hGuard
    · exact h.lockChunk hGuard.2 rfl rfl
    · exact h
  | refuse =>
    unfold BuddyGroup.workStep
    dsimp only
    split_ifs with hGuard
    · exact h.setResult hWork rfl rfl fun hDone => ⟨Or.inr rfl, (h.early w work hWork hDone).2⟩
    · exact h
  | prepareMirroring =>
    unfold BuddyGroup.workStep BuddyGroup.prepareMirroring
    dsimp only
    split_ifs with hGuard
    any_goals
      exact h.setResult hWork rfl rfl fun hDone => absurd (hGuard.1.symm.trans hDone) (by simp)
    exact h
  | secondaryModifies =>
    unfold BuddyGroup.workStep
    dsimp only
    split_ifs with hGuard
    · have hDone := h.lockingDone hWork (by simp [hGuard]) (by simp [hGuard])
      exact h.setResult hWork rfl rfl fun hNot => absurd (hDone.symm.trans hNot) (by simp)
    · exact h
  | finishMirroring response =>
    -- the response belongs to a request that was sent
    have hSent : work.mirror = .sent ∨ work.mirror = .applied → work.lockingDone = true := by
      rintro (hMirror | hMirror) <;>
        exact h.lockingDone hWork (by simp [hMirror]) (by simp [hMirror])
    have hNext : ∀ mirror, (work.mirror = .sent ∨ work.mirror = .applied) →
        (s.setWork w { work with mirror := mirror }).Exclusion := fun mirror hMirror =>
      h.setResult hWork rfl rfl fun hNot => absurd ((hSent hMirror).symm.trans hNot) (by simp)
    unfold BuddyGroup.workStep BuddyGroup.finishMirroring
    cases response with
    | SUCCESS =>
      dsimp only
      split_ifs with hGuard
      · exact hNext _ (Or.inr hGuard.1)
      · exact h
    | UNKNOWNTARGET =>
      dsimp only
      split_ifs with hGuard
      · exact hNext _ (Or.inl hGuard.1)
      · exact hNext _ (Or.inl hGuard.1)
      · exact h
    | error =>
      dsimp only
      split_ifs with hGuard
      · exact hNext _ hGuard
      · exact h
    | retry =>
      dsimp only
      split_ifs with hGuard
      · exact hNext _ hGuard.2
      · exact h
  | modify success =>
    unfold BuddyGroup.workStep
    dsimp only
    split_ifs with hMay
    · have hDone := h.lockingDone_of_mayModify hWork hMay
      have hNext : ∀ res, (s.setWork w { work with localRes := res }).Exclusion := fun res =>
        h.setResult hWork rfl rfl fun hNot => absurd (hDone.symm.trans hNot) (by simp)
      have hSet : (s.setWork w { work with localRes := some true }).workers w =
          some { work with localRes := some true } := update_self ..
      unfold BuddyGroup.modify
      split_ifs with hSuccess
      · exact (hNext _).modify hSet hDone _
      · exact (hNext _).modify hSet hDone _
      · exact hNext _
    · exact h
  | respond =>
    unfold BuddyGroup.workStep
    dsimp only
    split_ifs
    · exact ExclusionAt.respond h hWork
    · exact h

theorem Exclusion.jobStep [Fintype W] (h : s.Exclusion) (op : JobStep κ) :
    (s.jobStep op).Exclusion := by
  have hNoSync : (∀ candidates syncErrors, s.job ≠ .syncing candidates syncErrors) →
      s.syncs = [] := by
    intro hJob
    by_contra hSome
    obtain ⟨candidates, syncErrors, hSyncing⟩ := h.syncing hSome
    exact hJob candidates syncErrors hSyncing
  -- the steps from the barrier or the slaves to the end keep the flag
  have hNext : ∀ {job : JobPhase κ W}, s.job ≠ .idle → (∀ w, job.Awaits w) → s.syncs = [] →
      ExclusionAt s.buddyResyncInProgress job s.workers s.lockedChunks s.syncs s.chunks :=
    fun hJob hAwaits hSyncs => h.setJob (fun _ => h.inProgress hJob)
      (fun w _ _ _ _ => hAwaits w) hSyncs
  unfold BuddyGroup.jobStep
  cases op with
  | setResyncInProgress =>
    dsimp only
    split
    · exact h.setJob (fun _ => rfl) (fun w work _ _ _ => Finset.notMem_empty w)
        (hNoSync (by simp [*]))
    · exact h
  | startSlaves =>
    dsimp only
    split
    · next readyWorkers hJob =>
      split_ifs with hReady
      · refine h.setJob (fun _ => h.inProgress (by simp [hJob])) (fun w work _ _ hAwaits => ?_)
          (hNoSync (by simp [hJob]))
        rw [hJob] at hAwaits
        exact (hAwaits (hReady w)).elim
      · exact h
    · exact h
  | lockChunk chunkID =>
    dsimp only
    split
    · next candidates syncErrors hJob =>
      split_ifs with hLocked
      · exact h
      · unfold Exclusion at h ⊢
        rw [hJob] at h
        rw [hJob]
        exact h.lockForSync hLocked
    · exact h
  | syncChunk chunkID success =>
    dsimp only
    split
    · next candidates syncErrors data hJob hData =>
      obtain ⟨before, behind, hSyncs, -⟩ := lookup_eq_some_iff.mp hData
      have hSync : (chunkID, data) ∈ s.syncs := by simp [hSyncs]
      unfold Exclusion at h
      rw [hJob] at h
      split_ifs
      · exact h.syncChunk hSync
      · exact h.syncChunk hSync
    · exact h
  | fail status =>
    dsimp only
    split
    · next readyWorkers hJob =>
      exact hNext (by simp [hJob]) (fun _ => trivial) (hNoSync (by simp [hJob]))
    · next candidates syncErrors hJob =>
      split_ifs with hGuard
      · exact hNext (by simp [hJob]) (fun _ => trivial) hGuard.1
      · exact h
    · exact h
  | succeed =>
    dsimp only
    split
    · next candidates syncErrors hJob =>
      split_ifs with hGuard
      · exact hNext (by simp [hJob]) (fun _ => trivial) hGuard.1
      · exact h
    · exact h
  | removeMarker | informBuddy =>
    dsimp only
    split
    · next hJob => exact hNext (by simp [hJob]) (fun _ => trivial) (hNoSync (by simp [hJob]))
    · exact h
  | clearResyncInProgress =>
    dsimp only
    split
    · next hJob =>
      exact h.setJob (absurd rfl ·) (fun _ _ _ _ _ => trivial)
        (hNoSync (by simp [hJob]))
    · exact h

theorem Exclusion.step [Fintype W] (h : s.Exclusion) (op : GroupStep κ W) :
    (s.step op).Exclusion := by
  cases op with
  | worker w op =>
    unfold BuddyGroup.step
    dsimp only
    cases hWork : s.workers w with
    | some work => exact h.workStep hWork op
    | none =>
      cases op with
      | incCounter =>
        unfold BuddyGroup.idleStep
        dsimp only
        split
        · next readyWorkers hJob =>
          unfold Exclusion at h
          rw [hJob] at h
          exact h.incCounter hWork
        · exact h
      | receive type chunkID => exact ExclusionAt.receive h rfl rfl rfl
      | _ => exact h
  | job op => exact h.jobStep op
  | secondaryState state => exact h

end BuddyGroup

end Fhgfs.Resync
