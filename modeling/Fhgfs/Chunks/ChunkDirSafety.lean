import Fhgfs.Chunks.ChunkDirAccounts

/-!
# Chunk directories stay while they are used

A thread that makes the elements of a path relies on the directory that it has come to. It has
the read lock of that directory's ID, and `rmdirChunkDirPath` removes a directory only with the
write lock (`ChunkServer.Safe`). Above the locked directory nothing can go away, as a directory
with entries is not removed.

The old layout has no locks. Its threads are safe only from those that remove directories below
another first path element (`ChunkServer.OldLayoutApart`).
-/

namespace Fhgfs.Chunks

open DirPath ChunkTree Finset.Subset List Thread OpenCall Function Run
open Function (update)

/-! ## Directories -/

namespace DirPath

@[simp] theorem elems_take (path : DirPath) (n : Nat) :
    (path.take n).elems = path.elems.take n := rfl

theorem take_take (path : DirPath) (m n : Nat) : (path.take m).take n = path.take (min n m) := by
  simp [take, List.take_take]

theorem take_of_length_le {path : DirPath} {n : Nat} (h : path.elems.length ≤ n) :
    path.take n = path := by
  simp [take, List.take_of_length_le h]

end DirPath

namespace ChunkTree

variable {tree tree' : ChunkTree} {path dir : DirPath}

theorem isDir_of_elems_eq_nil (h : path.elems = []) : tree.isDir path := by
  intro n hn
  rw [h] at hn
  exact absurd hn (Nat.not_lt_zero n)

theorem isDir_mono (hDirs : tree.dirs ⊆ tree'.dirs) (h : tree.isDir path) : tree'.isDir path :=
  fun n hn => hDirs (h n hn)

theorem dirs_subset_mkdirat (tree : ChunkTree) (path : DirPath) :
    tree.dirs ⊆ (tree.mkdirat path).2.dirs := by
  unfold mkdirat
  split
  · exact Finset.Subset.refl _
  · split
    · exact Finset.subset_insert _ _
    · exact Finset.Subset.refl _

theorem dirs_openat (tree : ChunkTree) (path : DirPath) (fileName : String) :
    (tree.openat path fileName).2.dirs = tree.dirs := by
  unfold openat
  split <;> rfl

theorem mkdirat_of_isDir (h : tree.isDir (path.take (path.elems.length - 1))) :
    ((tree.mkdirat path).1 = .ok ∨ (tree.mkdirat path).1 = .EEXIST) ∧
      (tree.mkdirat path).2.isDir path := by
  unfold mkdirat
  by_cases hThere : tree.isDir path
  · rw [if_pos hThere]
    exact ⟨Or.inr rfl, hThere⟩
  rw [if_neg hThere, if_pos h]
  refine ⟨Or.inl rfl, ?_⟩
  intro n hn
  by_cases hLast : path.elems.length ≤ n + 1
  · rw [DirPath.take_of_length_le hLast]
    exact Finset.mem_insert_self _ _
  · apply Finset.mem_insert_of_mem
    have hPrefix := h n (by rw [DirPath.elems_take, length_take]; omega)
    rwa [DirPath.take_take, min_eq_left (by omega)] at hPrefix

theorem openat_of_isDir (h : tree.isDir path) (fileName : String) :
    (tree.openat path fileName).1 = .ok := by
  unfold openat
  rw [if_pos h]

theorem isDir_rmdirat (h : tree.isDir path) (hNe : path ≠ dir) :
    (tree.rmdirat dir).2.isDir path := by
  unfold rmdirat
  split
  · exact h
  split
  · exact h
  rename_i hEmpty
  rw [not_not] at hEmpty
  intro n hn
  apply Finset.mem_erase_of_ne_of_mem _ (h n hn)
  rintro rfl
  have hLonger : n + 1 < path.elems.length := by
    by_contra hLast
    exact hNe (DirPath.take_of_length_le (by omega)).symm
  have hEntry := h (n + 1) hLonger
  have hLen : (path.take (n + 1 + 1)).elems.length = n + 1 + 1 := by
    rw [DirPath.elems_take, length_take]
    omega
  have hNil := hEmpty.1 _ hEntry (by
    rw [hLen, DirPath.take_take, min_eq_left (Nat.sub_le _ _), Nat.add_sub_cancel])
  rw [hNil] at hLen
  exact Nat.succ_ne_zero _ hLen.symm

end ChunkTree

/-! ## What a thread relies on -/

/-- The parent is locked at every element but the first one. -/
def OpenCall.HoldsParent (call : OpenCall) (depth : Nat) (parentChunkDir : Option ChunkDirPtr) :
    Prop :=
  parentChunkDir.map ChunkDirPtr.id =
    if depth = 0 then none else some (call.chunkDirPath.take depth).dirID

/-- The arguments of a stage. In no stage has anything failed. -/
def OpenStage.Ok (call : OpenCall) : OpenStage → Prop
  | .openat => True
  | .mkdirV2 depth => call.hasOrigFeature = false ∧ depth < call.chunkDirPath.elems.length
  | .referenceDir depth parentChunkDir =>
      depth < call.chunkDirPath.elems.length ∧ call.HoldsParent depth parentChunkDir
  | .readLock depth parentChunkDir chunkDir =>
      depth < call.chunkDirPath.elems.length ∧ call.HoldsParent depth parentChunkDir ∧
        chunkDir.id = (call.chunkDirPath.take (depth + 1)).dirID
  | .mkdirat depth parentChunkDir chunkDir =>
      depth < call.chunkDirPath.elems.length ∧ call.HoldsParent depth parentChunkDir ∧
        chunkDir.id = (call.chunkDirPath.take (depth + 1)).dirID
  | .unlockParent depth _ chunkDir mkdirRes =>
      depth < call.chunkDirPath.elems.length ∧
        chunkDir.id = (call.chunkDirPath.take (depth + 1)).dirID ∧
        (mkdirRes = .ok ∨ mkdirRes = .EEXIST)
  | .releaseParent depth _ chunkDir mkdirRes =>
      depth < call.chunkDirPath.elems.length ∧
        chunkDir.id = (call.chunkDirPath.take (depth + 1)).dirID ∧
        (mkdirRes = .ok ∨ mkdirRes = .EEXIST)
  | .unlockFailed _ => False
  | .releaseFailed _ => False
  | .openAgain none => call.hasOrigFeature = false
  | .openAgain (some chunkDir) => chunkDir.id = call.chunkDirPath.dirID
  | .unlock chunkDir openRes => chunkDir.id = call.chunkDirPath.dirID ∧ openRes = .ok
  | .releaseDir _ openRes => openRes = .ok
  | .done res => res = .ok

def RmdirStage.Ok (chunkDirPath : DirPath) : RmdirStage → Prop
  | .referenceDir num => 0 < num ∧ num ≤ chunkDirPath.elems.length
  | .writeLock num chunkDir => 0 < num ∧ num ≤ chunkDirPath.elems.length ∧
      chunkDir.id = (chunkDirPath.take num).dirID
  | .rmdirat num chunkDir => 0 < num ∧ num ≤ chunkDirPath.elems.length ∧
      chunkDir.id = (chunkDirPath.take num).dirID
  | .unlock num _ _ => num ≤ chunkDirPath.elems.length
  | .releaseDir num _ _ => num ≤ chunkDirPath.elems.length
  | .done => True

namespace Thread

def Ok : Thread → Prop
  | .openChunkFile call stage => stage.Ok call
  | .rmdirChunkDirPath chunkDirPath stage => stage.Ok chunkDirPath

/-- The directory that a thread needs for its next calls. -/
def relies : Thread → Option DirPath
  | .openChunkFile call stage =>
    match stage with
    | .mkdirV2 depth => some (call.chunkDirPath.take depth)
    | .referenceDir depth _ => some (call.chunkDirPath.take depth)
    | .readLock depth _ _ => some (call.chunkDirPath.take depth)
    | .mkdirat depth _ _ => some (call.chunkDirPath.take depth)
    | .unlockParent depth _ _ _ => some (call.chunkDirPath.take (depth + 1))
    | .releaseParent depth _ _ _ => some (call.chunkDirPath.take (depth + 1))
    | .openAgain _ => some call.chunkDirPath
    | .unlock _ _ => some call.chunkDirPath
    | _ => none
  | .rmdirChunkDirPath _ _ => none

def job : Thread → OpenCall ⊕ DirPath
  | .openChunkFile call _ => .inl call
  | .rmdirChunkDirPath chunkDirPath _ => .inr chunkDirPath

/-- The thread is in order, and has the directory that it relies on. -/
structure Secure (tree : ChunkTree) (th : Thread) : Prop where
  ok : th.Ok
  isDir : ∀ path, th.relies = some path → tree.isDir path

variable {tree : ChunkTree} {th : Thread} {path : DirPath}

theorem not_failed (h : th.Ok) : ¬ th.Failed := by
  cases th with
  | rmdirChunkDirPath chunkDirPath stage => exact id
  | openChunkFile call stage =>
    cases stage with
    | unlockParent depth parent chunkDir mkdirRes =>
      obtain ⟨-, -, hMade | hMade⟩ := h <;> simp [Failed, hMade]
    | releaseParent depth parent chunkDir mkdirRes =>
      obtain ⟨-, -, hMade | hMade⟩ := h <;> simp [Failed, hMade]
    | unlock chunkDir openRes => exact fun hFailed => hFailed h.2
    | releaseDir chunkDir openRes => exact fun hFailed => hFailed h
    | done res => exact fun hFailed => hFailed h
    | unlockFailed chunkDir => exact False.elim h
    | releaseFailed chunkDir => exact False.elim h
    | _ => exact id

theorem relies_of_handedBack (h : th.handedBack = some path) : th.relies = some path := by
  cases th with
  | rmdirChunkDirPath chunkDirPath stage => cases h
  | openChunkFile call stage =>
    cases stage with
    | openAgain outChunkDir =>
      cases outChunkDir with
      | none => cases h
      | some chunkDir => exact h
    | unlock chunkDir openRes => exact h
    | _ => cases h

theorem locked_of_holdsParent {call : OpenCall} {depth : Nat}
    {parentChunkDir : Option ChunkDirPtr} (h : call.HoldsParent depth parentChunkDir) :
    (call.chunkDirPath.take depth).elems = [] ∨
      ∃ d ∈ parentChunkDir.toList, d.id = (call.chunkDirPath.take depth).dirID := by
  unfold HoldsParent at h
  by_cases hDepth : depth = 0
  · left
    rw [hDepth]
    rfl
  · right
    rw [if_neg hDepth] at h
    obtain ⟨d, rfl, hID⟩ := Option.map_eq_some_iff.mp h
    exact ⟨d, mem_singleton_self d, hID⟩

theorem locked_of_relies (h : th.Ok) (hRelies : th.relies = some path) :
    path.elems = [] ∨ (∃ d ∈ th.readLocks, d.id = path.dirID) ∨
      ∃ call n, th.job = .inl call ∧ call.hasOrigFeature = false ∧
        path = call.chunkDirPath.take n := by
  cases th with
  | rmdirChunkDirPath chunkDirPath stage => cases hRelies
  | openChunkFile call stage =>
    cases stage with
    | mkdirV2 depth =>
      cases hRelies
      exact Or.inr (Or.inr ⟨call, depth, rfl, h.1, rfl⟩)
    | referenceDir depth parentChunkDir =>
      cases hRelies
      exact (locked_of_holdsParent h.2).imp_right Or.inl
    | readLock depth parentChunkDir chunkDir =>
      cases hRelies
      exact (locked_of_holdsParent h.2.1).imp_right Or.inl
    | mkdirat depth parentChunkDir chunkDir =>
      cases hRelies
      refine (locked_of_holdsParent h.2.1).imp_right fun hLocked => Or.inl ?_
      obtain ⟨d, hd, hID⟩ := hLocked
      exact ⟨d, mem_cons_of_mem _ hd, hID⟩
    | unlockParent depth parent chunkDir mkdirRes =>
      cases hRelies
      exact Or.inr (Or.inl ⟨chunkDir, mem_cons_of_mem _ (mem_singleton_self _), h.2.1⟩)
    | releaseParent depth parent chunkDir mkdirRes =>
      cases hRelies
      exact Or.inr (Or.inl ⟨chunkDir, mem_singleton_self _, h.2.1⟩)
    | openAgain outChunkDir =>
      cases hRelies
      cases outChunkDir with
      | none =>
        exact Or.inr (Or.inr ⟨call, _, rfl, h, (DirPath.take_of_length_le le_rfl).symm⟩)
      | some chunkDir => exact Or.inr (Or.inl ⟨chunkDir, mem_singleton_self _, h⟩)
    | unlock chunkDir openRes =>
      cases hRelies
      exact Or.inr (Or.inl ⟨chunkDir, mem_singleton_self _, h.1⟩)
    | _ => cases hRelies

theorem locked_of_rmdirat {thread : SysRes → Thread} (h : th.Ok)
    (hNext : th.next = .rmdirat path thread) :
    path.elems ≠ [] ∧ (∃ d ∈ th.writeLocks, d.id = path.dirID) ∧
      ∃ chunkDirPath n, 0 < n ∧ th.job = .inr chunkDirPath ∧ path = chunkDirPath.take n := by
  cases th with
  | openChunkFile call stage => cases stage <;> cases hNext
  | rmdirChunkDirPath chunkDirPath stage =>
    cases stage with
    | rmdirat num chunkDir =>
      cases hNext
      obtain ⟨hPos, hLen, hID⟩ := h
      refine ⟨?_, ⟨chunkDir, mem_singleton_self _, hID⟩, ⟨chunkDirPath, num, hPos, rfl, rfl⟩⟩
      rw [← length_pos_iff, elems_take, length_take]
      omega
    | _ => cases hNext

end Thread

def Next.Goes (tree : ChunkTree) : Next → Prop
  | .referenceDir dirID thread => ∀ d : ChunkDirPtr, d.id = dirID → (thread d).Secure tree
  | .readLock _ thread => thread.Secure tree
  | .writeLock _ thread => thread.Secure tree
  | .unlock _ thread => thread.Secure tree
  | .releaseDir _ thread => thread.Secure tree
  | .mkdirat path thread => (thread (tree.mkdirat path).1).Secure (tree.mkdirat path).2
  | .rmdirat _ thread => ∀ tree' res, (thread res).Secure tree'
  | .openat path fileName thread =>
      (thread (tree.openat path fileName).1).Secure (tree.openat path fileName).2
  | .finished => True

namespace Thread

variable {tree : ChunkTree} {call : OpenCall}

section

variable {depth : Nat} {mkdirRes : SysRes} (hRes : mkdirRes = .ok ∨ mkdirRes = .EEXIST)
  (hDir : tree.isDir (call.chunkDirPath.take (depth + 1)))
include hRes hDir

theorem secure_afterMkdir {chunkDir : ChunkDirPtr} (hDepth : depth < call.chunkDirPath.elems.length)
    (hID : chunkDir.id = (call.chunkDirPath.take (depth + 1)).dirID) :
    (openChunkFile call (call.afterMkdir depth chunkDir mkdirRes)).Secure tree := by
  have hMade : ¬ (mkdirRes ≠ .ok ∧ mkdirRes ≠ .EEXIST) := by tauto
  unfold OpenCall.afterMkdir
  rw [if_neg hMade]
  split
  · rename_i hMore
    refine ⟨⟨hMore, ?_⟩, ?_⟩
    · simp [OpenCall.HoldsParent, hID]
    · rintro path ⟨⟩
      exact hDir
  rename_i hLast
  rw [DirPath.take_of_length_le (by omega)] at hID hDir
  refine ⟨hID, ?_⟩
  rintro path ⟨⟩
  exact hDir

theorem secure_afterMkdirV2 (hV2 : call.hasOrigFeature = false) :
    (openChunkFile call (call.afterMkdirV2 depth mkdirRes)).Secure tree := by
  have hMade : ¬ (mkdirRes ≠ .ok ∧ mkdirRes ≠ .EEXIST) := by tauto
  unfold OpenCall.afterMkdirV2
  rw [if_neg hMade]
  split
  · rename_i hMore
    refine ⟨⟨hV2, hMore⟩, ?_⟩
    rintro path ⟨⟩
    exact hDir
  rename_i hLast
  rw [DirPath.take_of_length_le (by omega)] at hDir
  refine ⟨hV2, ?_⟩
  rintro path ⟨⟩
  exact hDir

end

theorem secure_mkdirChunkDirPath (hElems : call.chunkDirPath.elems ≠ []) :
    (openChunkFile call call.mkdirChunkDirPath).Secure tree := by
  have hPos := length_pos_iff.mpr hElems
  unfold mkdirChunkDirPath
  rw [if_neg hElems]
  split
  · refine ⟨⟨hPos, by simp [HoldsParent]⟩, ?_⟩
    rintro path ⟨⟩
    exact isDir_of_elems_eq_nil rfl
  · rename_i hOrig
    refine ⟨⟨by simpa using hOrig, hPos⟩, ?_⟩
    rintro path ⟨⟩
    exact isDir_of_elems_eq_nil rfl

theorem secure_rmdirFrom (chunkDirPath : DirPath) {num : Nat}
    (h : num ≤ chunkDirPath.elems.length) :
    (rmdirChunkDirPath chunkDirPath (rmdirFrom num)).Secure tree := by
  unfold rmdirFrom
  split
  · exact ⟨trivial, nofun⟩
  · exact ⟨⟨by omega, h⟩, nofun⟩

theorem secure_afterOpenat {openRes : SysRes}
    (hRes : call.chunkDirPath.elems = [] → openRes = .ok) :
    (openChunkFile call
      (if openRes = .ok then .done .ok else call.mkdirChunkDirPath)).Secure tree := by
  split
  · exact ⟨rfl, nofun⟩
  · rename_i hFailed
    exact secure_mkdirChunkDirPath fun hNil => hFailed (hRes hNil)

theorem isDir_mkdirat_take {path : DirPath} {depth : Nat} (hDepth : depth < path.elems.length)
    (h : tree.isDir (path.take depth)) :
    ((tree.mkdirat (path.take (depth + 1))).1 = .ok ∨
      (tree.mkdirat (path.take (depth + 1))).1 = .EEXIST) ∧
      (tree.mkdirat (path.take (depth + 1))).2.isDir (path.take (depth + 1)) := by
  apply ChunkTree.mkdirat_of_isDir
  have hLen : (path.take (depth + 1)).elems.length = depth + 1 := by
    rw [DirPath.elems_take, length_take, min_eq_left hDepth]
  rwa [hLen, DirPath.take_take, Nat.add_sub_cancel, min_eq_left (Nat.le_succ depth)]

theorem Secure.next {th : Thread} (h : th.Secure tree) : th.next.Goes tree := by
  cases th with
  | openChunkFile call stage =>
    obtain ⟨hOk, hDir⟩ := h
    cases stage with
    | openat =>
      apply secure_afterOpenat
      exact fun hNil => openat_of_isDir (isDir_of_elems_eq_nil hNil) _
    | mkdirV2 depth =>
      obtain ⟨hV2, hDepth⟩ := hOk
      obtain ⟨hRes, hMade⟩ := isDir_mkdirat_take hDepth (hDir _ rfl)
      exact secure_afterMkdirV2 hRes hMade hV2
    | referenceDir depth parentChunkDir => exact fun d hID => ⟨⟨hOk.1, hOk.2, hID⟩, hDir⟩
    | readLock depth parentChunkDir chunkDir => exact ⟨hOk, hDir⟩
    | mkdirat depth parentChunkDir chunkDir =>
      obtain ⟨hDepth, -, hID⟩ := hOk
      obtain ⟨hRes, hMade⟩ := isDir_mkdirat_take hDepth (hDir _ rfl)
      cases parentChunkDir with
      | none => exact secure_afterMkdir hRes hMade hDepth hID
      | some parent =>
        refine ⟨⟨hDepth, hID, hRes⟩, ?_⟩
        rintro path ⟨⟩
        exact hMade
    | unlockParent depth parent chunkDir mkdirRes => exact ⟨hOk, hDir⟩
    | releaseParent depth parent chunkDir mkdirRes =>
      exact secure_afterMkdir hOk.2.2 (hDir _ rfl) hOk.1 hOk.2.1
    | unlockFailed chunkDir => exact False.elim hOk
    | releaseFailed chunkDir => exact False.elim hOk
    | openAgain outChunkDir =>
      have hOpened := openat_of_isDir (hDir _ rfl) call.fileName
      cases outChunkDir with
      | none => exact ⟨hOpened, nofun⟩
      | some chunkDir =>
        refine ⟨⟨hOk, hOpened⟩, ?_⟩
        rintro path ⟨⟩
        exact isDir_mono (dirs_openat _ _ _).ge (hDir _ rfl)
    | unlock chunkDir openRes => exact ⟨hOk.2, nofun⟩
    | releaseDir chunkDir openRes => exact ⟨hOk, nofun⟩
    | done res => trivial
  | rmdirChunkDirPath chunkDirPath stage =>
    have hOk := h.ok
    cases stage with
    | referenceDir num => exact fun d hID => ⟨⟨hOk.1, hOk.2, hID⟩, nofun⟩
    | writeLock num chunkDir => exact ⟨hOk, nofun⟩
    | rmdirat num chunkDir => exact fun _ _ => ⟨hOk.2.1, nofun⟩
    | unlock num chunkDir rmdirRes => exact ⟨hOk, nofun⟩
    | releaseDir num chunkDir rmdirRes =>
      show Secure tree (rmdirChunkDirPath chunkDirPath _)
      split
      · exact secure_rmdirFrom chunkDirPath (le_trans (Nat.sub_le _ _) hOk)
      · exact ⟨trivial, nofun⟩
    | done => trivial

end Thread

/-! ## The server -/

/-- The threads that an access can go on as. -/
inductive Next.Leads : Next → Thread → Prop
  | referenceDir (dirID : String) (thread : ChunkDirPtr → Thread) (d : ChunkDirPtr) :
      Leads (.referenceDir dirID thread) (thread d)
  | readLock (d : ChunkDirPtr) (thread : Thread) : Leads (.readLock d thread) thread
  | writeLock (d : ChunkDirPtr) (thread : Thread) : Leads (.writeLock d thread) thread
  | unlock (d : ChunkDirPtr) (thread : Thread) : Leads (.unlock d thread) thread
  | releaseDir (dirID : String) (thread : Thread) : Leads (.releaseDir dirID thread) thread
  | mkdirat (path : DirPath) (thread : SysRes → Thread) (res : SysRes) :
      Leads (.mkdirat path thread) (thread res)
  | rmdirat (path : DirPath) (thread : SysRes → Thread) (res : SysRes) :
      Leads (.rmdirat path thread) (thread res)
  | openat (path : DirPath) (fileName : String) (thread : SysRes → Thread) (res : SysRes) :
      Leads (.openat path fileName thread) (thread res)

theorem Thread.job_of_leads {th th' : Thread} (h : th.next.Leads th') : th'.job = th.job := by
  cases th with
  | openChunkFile call stage | rmdirChunkDirPath chunkDirPath stage =>
    cases stage <;> cases h <;> rfl

namespace ChunkServer

variable {T : Type}

/-- No thread removes directories where another one makes directories of the old layout. -/
def OldLayoutApart (s : ChunkServer T) : Prop :=
  ∀ t u call chunkDirPath, (s.threads t).job = .inl call → (s.threads u).job = .inr chunkDirPath →
    call.hasOrigFeature = false → call.chunkDirPath.take 1 ≠ chunkDirPath.take 1

section Steps

variable [DecidableEq T]

theorem threads_threadStep (s : ChunkServer T) (t : T) (rand : Nat) :
    (s.threadStep t rand).threads = s.threads ∨
      ∃ th, (s.threads t).next.Leads th ∧
        (s.threadStep t rand).threads = update s.threads t th := by
  unfold threadStep
  cases (s.threads t).next with
  | referenceDir dirID thread => exact Or.inr ⟨_, .referenceDir _ _ _, rfl⟩
  | readLock d thread =>
    simp only
    split
    · exact Or.inr ⟨_, .readLock _ _, rfl⟩
    · exact Or.inl rfl
  | writeLock d thread =>
    simp only
    split
    · exact Or.inr ⟨_, .writeLock _ _, rfl⟩
    · exact Or.inl rfl
  | unlock d thread => exact Or.inr ⟨_, .unlock _ _, rfl⟩
  | releaseDir dirID thread => exact Or.inr ⟨_, .releaseDir _ _, rfl⟩
  | mkdirat path thread => exact Or.inr ⟨_, .mkdirat _ _ _, rfl⟩
  | rmdirat path thread => exact Or.inr ⟨_, .rmdirat _ _ _, rfl⟩
  | openat path fileName thread => exact Or.inr ⟨_, .openat _ _ _ _, rfl⟩
  | finished => exact Or.inl rfl

theorem job_step (s : ChunkServer T) (e : ServerStep T) (u : T) :
    ((s.step e).threads u).job = (s.threads u).job := by
  cases e with
  | thread t rand =>
    rcases s.threads_threadStep t rand with hSame | ⟨th, hLeads, hThreads⟩
    · exact congrArg (fun threads => (threads u).job) hSame
    refine (congrArg (fun threads => (threads u).job) hThreads).trans ?_
    by_cases hu : u = t
    · simp only [hu, update_self]
      exact job_of_leads hLeads
    · simp only [update_of_ne hu]
  | cacheSweepAsync rand => rfl
  | unlinkat path fileName => rfl

theorem OldLayoutApart.step {s : ChunkServer T} (h : s.OldLayoutApart) (e : ServerStep T) :
    (s.step e).OldLayoutApart := by
  intro t u call chunkDirPath hCall hPath
  rw [job_step] at hCall hPath
  exact h t u call chunkDirPath hCall hPath

end Steps

/-- The invariant of the server. -/
structure Safe [Fintype T] (ext : String → Nat) (s : ChunkServer T) : Prop where
  accounts : s.Accounts ext
  secure : ∀ t, (s.threads t).Secure s.tree
  apart : s.OldLayoutApart

namespace Safe

variable [Fintype T] {ext : String → Nat} {s : ChunkServer T}

theorem ne_of_rmdirat (h : Safe ext s) {t u : T} {path dir : DirPath} {thread : SysRes → Thread}
    (hNext : (s.threads t).next = .rmdirat dir thread)
    (hRelies : (s.threads u).relies = some path) : path ≠ dir := by
  rintro rfl
  obtain ⟨hElems, ⟨d, hd, hID⟩, chunkDirPath, n, hPos, hJob, hTake⟩ :=
    Thread.locked_of_rmdirat (h.secure t).ok hNext
  rcases Thread.locked_of_relies (h.secure u).ok hRelies with
    hNil | ⟨d', hd', hID'⟩ | ⟨call, m, hCall, hV2, hTake'⟩
  · exact hElems hNil
  · exact h.accounts.exclusion hd' hd (hID'.trans hID.symm)
  have hm : 0 < m := by
    by_contra hZero
    rw [Nat.eq_zero_of_not_pos hZero] at hTake'
    exact hElems (congrArg DirPath.elems hTake')
  apply h.apart u t call chunkDirPath hCall hJob hV2
  have hFirst := congrArg (DirPath.take · 1) (hTake'.symm.trans hTake)
  simpa only [DirPath.take_take, Nat.min_eq_left hm, Nat.min_eq_left hPos] using hFirst

variable [DecidableEq T]

theorem secure_update (h : Safe ext s) {t : T} {th : Thread} {tree : ChunkTree}
    (hHere : th.Secure tree) (hDirs : s.tree.dirs ⊆ tree.dirs) (u : T) :
    (update s.threads t th u).Secure tree := by
  by_cases hu : u = t
  · rw [hu, update_self]
    exact hHere
  · rw [update_of_ne hu]
    exact ⟨(h.secure u).ok, fun path hRelies =>
      isDir_mono hDirs ((h.secure u).isDir path hRelies)⟩

theorem secure_threadStep (h : Safe ext s) (t : T) (rand : Nat) (u : T) :
    ((s.threadStep t rand).threads u).Secure (s.threadStep t rand).tree := by
  have hGoes := (h.secure t).next
  unfold threadStep
  cases hNext : (s.threads t).next with
  | referenceDir dirID thread =>
    rw [hNext] at hGoes
    obtain ⟨dir, hCounts, -⟩ := h.accounts.counts
    obtain ⟨dir', hCounts', hNew, -⟩ := hCounts.referenceDir rand dirID
    exact h.secure_update (hGoes _ (by rw [hNew, hCounts'.ids])) (Finset.Subset.refl _) u
  | readLock d thread | writeLock d thread =>
    rw [hNext] at hGoes
    simp only
    split
    · exact h.secure_update hGoes (Finset.Subset.refl _) u
    · exact h.secure u
  | unlock d thread | releaseDir dirID thread =>
    rw [hNext] at hGoes
    exact h.secure_update hGoes (Finset.Subset.refl _) u
  | mkdirat path thread =>
    rw [hNext] at hGoes
    exact h.secure_update hGoes (ChunkTree.dirs_subset_mkdirat _ _) u
  | rmdirat path thread =>
    rw [hNext] at hGoes
    show (update s.threads t _ u).Secure _
    by_cases hu : u = t
    · rw [hu, update_self]
      exact hGoes _ _
    · rw [update_of_ne hu]
      refine ⟨(h.secure u).ok, fun dir hRelies => ?_⟩
      exact ChunkTree.isDir_rmdirat ((h.secure u).isDir dir hRelies) (h.ne_of_rmdirat hNext hRelies)
  | openat path fileName thread =>
    rw [hNext] at hGoes
    exact h.secure_update hGoes (ChunkTree.dirs_openat _ _ _).ge u
  | finished => exact h.secure u

theorem step (h : Safe ext s) (e : ServerStep T) : Safe ext (s.step e) where
  accounts := h.accounts.step e
  secure := by
    cases e with
    | thread t rand => exact h.secure_threadStep t rand
    | cacheSweepAsync rand => exact h.secure
    | unlinkat path fileName => exact fun t => ⟨(h.secure t).ok, (h.secure t).isDir⟩
  apart := h.apart.step e

theorem after (h : Safe ext s) (es : List (ServerStep T)) :
    Safe ext (after ChunkServer.step s es) :=
  after_invariant (A := fun _ _ => True) _ (fun _ e hSafe _ => hSafe.step e) h
    (everyStep_of_forall _ fun _ _ _ => trivial)

end Safe

/-! ## Runs -/

/-- No thread has done anything. Others may have references, but no locks. -/
structure Fresh (s : ChunkServer T) : Prop where
  started : ∀ t, (s.threads t).Started
  locks : ∀ addr, s.locks addr = RWLock.free
  store : ∃ dir ext, s.store.Counts dir ext

end ChunkServer

namespace Thread

variable {th : Thread}

theorem Started.held (h : th.Started) : th.refs = [] ∧ th.readLocks = [] ∧ th.writeLocks = [] := by
  cases h with
  | openChunkFile call => exact ⟨rfl, rfl, rfl⟩
  | rmdirChunkDirPath chunkDirPath =>
    have hHeld := held_afterRmdir chunkDirPath chunkDirPath.elems.length .ok
    exact ⟨hHeld.1, rfl, hHeld.2⟩

theorem Started.secure (h : th.Started) (tree : ChunkTree) : th.Secure tree := by
  cases h with
  | openChunkFile call => exact ⟨trivial, nofun⟩
  | rmdirChunkDirPath chunkDirPath => exact secure_rmdirFrom chunkDirPath (le_rfl)

theorem Finished.held (h : th.Finished) :
    th.refs = [] ∧ th.readLocks = [] ∧ th.writeLocks = [] := by
  cases th with
  | openChunkFile call stage =>
    cases stage with
    | done res => exact ⟨rfl, rfl, rfl⟩
    | _ => exact False.elim h
  | rmdirChunkDirPath chunkDirPath stage =>
    cases stage with
    | done => exact ⟨rfl, rfl, rfl⟩
    | _ => exact False.elim h

theorem shares_of_held (h : th.refs = [] ∧ th.readLocks = [] ∧ th.writeLocks = []) :
    (∀ dirID, th.refsTo dirID = 0) ∧ (∀ addr, th.readersAt addr = 0) ∧
      ∀ addr, th.writersAt addr = 0 := by
  obtain ⟨hRefs, hRead, hWrite⟩ := h
  refine ⟨fun dirID => ?_, fun addr => ?_, fun addr => ?_⟩
  · rw [refsTo, hRefs]
    rfl
  · rw [readersAt, hRead]
    rfl
  · rw [writersAt, hWrite]
    rfl

end Thread

namespace ChunkServer

variable {T : Type} [Fintype T] {s : ChunkServer T}

theorem Fresh.safe (h : s.Fresh) (hApart : s.OldLayoutApart) : ∃ ext, Safe ext s := by
  obtain ⟨dir, ext, hCounts⟩ := h.store
  have hNone := fun t => shares_of_held (h.started t).held
  refine ⟨ext, ⟨⟨dir, ?_, ?_⟩, ?_⟩, fun t => (h.started t).secure _, hApart⟩
  · convert hCounts using 1
    funext dirID
    rw [allShares_eq_zero _ fun t => (hNone t).1 dirID, add_zero]
  · intro t d hd
    rw [(h.started t).held.1] at hd
    exact absurd hd not_mem_nil
  · intro addr
    rw [h.locks addr, allShares_eq_zero _ fun t => (hNone t).2.1 addr,
      allShares_eq_zero _ fun t => (hNone t).2.2 addr]
    exact RWLock.HeldBy.free

theorem Safe.of_finished {ext : String → Nat} (h : Safe ext s)
    (hFinished : ∀ t, (s.threads t).refs = [] ∧ (s.threads t).readLocks = [] ∧
      (s.threads t).writeLocks = []) :
    (∀ addr, s.locks addr = RWLock.free) ∧
      ∀ dirID, s.store.refCount dirID = ext dirID + s.store.cached dirID := by
  have hNone := fun t => shares_of_held (hFinished t)
  constructor
  · intro addr
    apply RWLock.HeldBy.eq_free
    have hHeld := h.accounts.locks addr
    rwa [allShares_eq_zero _ fun t => (hNone t).2.1 addr,
      allShares_eq_zero _ fun t => (hNone t).2.2 addr] at hHeld
  · intro dirID
    obtain ⟨dir, hCounts, -⟩ := h.accounts.counts
    rw [hCounts.refCount_eq, allShares_eq_zero _ fun t => (hNone t).1 dirID, add_zero]

/-- At any time of any run no thread has failed, and the directories that were handed back are
there. At the end the locks are free, and the references are those of the start, apart from the
ones of the cache. -/
theorem chunkDirs_safe [DecidableEq T] (hFresh : s.Fresh) (hApart : s.OldLayoutApart)
    (es : List (ServerStep T)) :
    (∀ t, ¬ ((Run.after step s es).threads t).Failed) ∧
      (∀ t path, ((Run.after step s es).threads t).handedBack = some path →
        (Run.after step s es).tree.isDir path) ∧
      ((∀ t, ((Run.after step s es).threads t).Finished) →
        (∀ addr, (Run.after step s es).locks addr = RWLock.free) ∧
          ∀ dirID, (Run.after step s es).store.refCount dirID + s.store.cached dirID =
            s.store.refCount dirID + (Run.after step s es).store.cached dirID) := by
  obtain ⟨ext, hSafe⟩ := hFresh.safe hApart
  have hAfter := hSafe.after es
  refine ⟨fun t => not_failed (hAfter.secure t).ok, ?_, fun hFinished => ?_⟩
  · intro t path hBack
    exact (hAfter.secure t).isDir path (relies_of_handedBack hBack)
  · obtain ⟨hLocks, hCounts⟩ := hAfter.of_finished fun t => (hFinished t).held
    refine ⟨hLocks, fun dirID => ?_⟩
    have hStart := (hSafe.of_finished fun t => (hFresh.started t).held).2 dirID
    rw [hCounts dirID, hStart]
    omega

/-- A server without open chunks, before its threads run. -/
def start (threads : T → Thread) : ChunkServer T :=
  ⟨ChunkStore.init 1024, fun _ => RWLock.free, ⟨∅, ∅⟩, threads⟩

omit [Fintype T] in
theorem Fresh.start {threads : T → Thread} (h : ∀ t, (threads t).Started) : (start threads).Fresh :=
  ⟨h, fun _ => rfl, ⟨_, _, ChunkStore.Counts.init 1024⟩⟩

/-- A chunk in a directory of the new layout. -/
def firstOpen : OpenCall := ⟨⟨3, ["u0"]⟩, "chunk", true⟩

/-- Another thread tries to remove the inner directory. -/
def deepOpen : OpenCall := ⟨⟨3, ["u0", "1"]⟩, "chunk", true⟩

def openOrRmdir : Bool → Thread
  | true => Thread.startOpen deepOpen
  | false => Thread.startRmdir ⟨3, ["u0", "1"]⟩

/-- The second thread waits for its write lock, then the directory has an entry. -/
def openOrRmdirRun : List (ServerStep Bool) :=
  (replicate 8 true ++ [false, false] ++ replicate 4 true ++ replicate 4 false).map
    fun t => .thread t 0

theorem chunkDirs_safe_openOrRmdir :
    (∀ t, ((Run.after step (start openOrRmdir) openOrRmdirRun).threads t).Finished) ∧
      ∀ addr, (Run.after step (start openOrRmdir) openOrRmdirRun).locks addr = RWLock.free := by
  have hFinished : ∀ t, ((after step (start openOrRmdir) openOrRmdirRun).threads t).Finished := by
    intro t
    cases t with
    | true =>
      have hEnd : (after step (start openOrRmdir) openOrRmdirRun).threads true =
        .openChunkFile deepOpen (.done .ok) := by decide
      rw [hEnd]
      trivial
    | false =>
      have hEnd : (after step (start openOrRmdir) openOrRmdirRun).threads false =
        .rmdirChunkDirPath ⟨3, ["u0", "1"]⟩ .done := by decide
      rw [hEnd]
      trivial
  refine ⟨hFinished, ((chunkDirs_safe (Fresh.start ?_) ?_ openOrRmdirRun).2.2 hFinished).1⟩
  · intro t
    cases t with
    | true => exact .openChunkFile _
    | false => exact .rmdirChunkDirPath _
  · rintro t u call chunkDirPath hCall - hV2
    cases t with
    | true =>
      cases hCall
      cases hV2
    | false => cases hCall

/-- A chunk of the old layout, whose first directory another thread removes at once. -/
def oldLayoutOpen : OpenCall := ⟨⟨3, ["2A", "7F"]⟩, "chunk", false⟩

def openOldOrRmdir : Bool → Thread
  | true => Thread.startOpen oldLayoutOpen
  | false => Thread.startRmdir ⟨3, ["2A"]⟩

/-- The cache has a reference of its own at the end of a run. A `mkdirat` of the old layout fails
after another thread has removed the directory above. -/
theorem chunkDirs_not_restored :
    ((start fun _ : Unit => Thread.startOpen firstOpen).Fresh ∧
      (∀ t, ((Run.after step (start fun _ : Unit => Thread.startOpen firstOpen)
        (List.replicate 7 (.thread () 0))).threads t).Finished) ∧
      (Run.after step (start fun _ : Unit => Thread.startOpen firstOpen)
        (List.replicate 7 (.thread () 0))).store.refCount "u0-l0" = 1 ∧
      (start fun _ : Unit => Thread.startOpen firstOpen).store.refCount "u0-l0" = 0) ∧
    (start openOldOrRmdir).Fresh ∧
      ((Run.after step (start openOldOrRmdir)
        ([true, true, false, false, false, true].map fun t => .thread t 0)).threads
          true).Failed := by
  refine ⟨⟨Fresh.start fun _ => .openChunkFile _, ?_, by decide, by decide⟩, Fresh.start ?_, ?_⟩
  · intro t
    have hEnd : (after step (start fun _ : Unit => startOpen firstOpen)
        (replicate 7 (.thread () 0))).threads t = .openChunkFile firstOpen (.done .ok) := by
      decide +revert
    rw [hEnd]
    trivial
  · intro t
    cases t with
    | true => exact .openChunkFile _
    | false => exact .rmdirChunkDirPath _
  · have hEnd : (after step (start openOldOrRmdir)
        ([true, true, false, false, false, true].map fun t => .thread t 0)).threads true =
        .openChunkFile oldLayoutOpen (.done .ENOENT) := by decide
    rw [hEnd]
    exact nofun

end ChunkServer

end Fhgfs.Chunks
