import Fhgfs.Chunks.ChunkDirThreads

/-!
# References and locks of chunk directories

The reference counts and the locks agree with what the threads hold, after every step. A
directory object stays the same while anybody has a reference, so two threads that lock the
same ID use the same lock, and a reader excludes a writer.
-/

namespace Fhgfs.Chunks

open Thread Function List
open Function (update)

/-! ## What a step trades -/

def Thread.SameLocks (th th' : Thread) : Prop :=
  th'.readLocks.Perm th.readLocks ∧ th'.writeLocks = th.writeLocks

/-- The references and locks before and after an access. -/
def Next.Trades (th : Thread) : Next → Prop
  | .referenceDir _ thread => ∀ d, (thread d).refs.Perm (d :: th.refs) ∧ th.SameLocks (thread d)
  | .readLock d thread => thread.refs = th.refs ∧
      thread.readLocks = d :: th.readLocks ∧ thread.writeLocks = th.writeLocks
  | .writeLock d thread => thread.refs = th.refs ∧
      thread.readLocks = th.readLocks ∧ thread.writeLocks = d :: th.writeLocks
  | .unlock d thread => thread.refs = th.refs ∧
      (th.readLocks = d :: thread.readLocks ∧ thread.writeLocks = th.writeLocks ∨
        thread.readLocks = th.readLocks ∧ th.writeLocks = d :: thread.writeLocks)
  | .releaseDir dirID thread =>
      ∃ d, d.id = dirID ∧ th.refs.Perm (d :: thread.refs) ∧ th.SameLocks thread
  | .mkdirat _ thread => ∀ res, (thread res).refs = th.refs ∧ th.SameLocks (thread res)
  | .rmdirat _ thread => ∀ res, (thread res).refs = th.refs ∧ th.SameLocks (thread res)
  | .openat _ _ thread => ∀ res, (thread res).refs = th.refs ∧ th.SameLocks (thread res)
  | .finished => True

namespace Thread

variable {th th' : Thread}

theorem sameLocks_of_eq (hRead : th'.readLocks = th.readLocks)
    (hWrite : th'.writeLocks = th.writeLocks) : th.SameLocks th' :=
  ⟨.of_eq hRead, hWrite⟩

variable (call : OpenCall)

theorem held_afterMkdir (depth : Nat) (chunkDir : ChunkDirPtr) (mkdirRes : SysRes) :
    (openChunkFile call (call.afterMkdir depth chunkDir mkdirRes)).refs = [chunkDir] ∧
      (openChunkFile call (call.afterMkdir depth chunkDir mkdirRes)).readLocks = [chunkDir] := by
  unfold OpenCall.afterMkdir
  split
  · exact ⟨rfl, rfl⟩
  · split <;> exact ⟨rfl, rfl⟩

theorem held_afterMkdirV2 (depth : Nat) (mkdirRes : SysRes) :
    (openChunkFile call (call.afterMkdirV2 depth mkdirRes)).refs = [] ∧
      (openChunkFile call (call.afterMkdirV2 depth mkdirRes)).readLocks = [] := by
  unfold OpenCall.afterMkdirV2
  split
  · exact ⟨rfl, rfl⟩
  · split <;> exact ⟨rfl, rfl⟩

theorem held_afterOpenat (openRes : SysRes) :
    (openChunkFile call (if openRes = .ok then .done .ok else call.mkdirChunkDirPath)).refs = [] ∧
      (openChunkFile call
        (if openRes = .ok then .done .ok else call.mkdirChunkDirPath)).readLocks = [] := by
  unfold OpenCall.mkdirChunkDirPath
  split
  · exact ⟨rfl, rfl⟩
  · split <;> split <;> exact ⟨rfl, rfl⟩

theorem held_afterRmdir (chunkDirPath : DirPath) (num : Nat) (rmdirRes : SysRes) :
    (rmdirChunkDirPath chunkDirPath
      (if rmdirRes = .ok then DirPath.rmdirFrom num else .done)).refs = [] ∧
      (rmdirChunkDirPath chunkDirPath
        (if rmdirRes = .ok then DirPath.rmdirFrom num else .done)).writeLocks = [] := by
  unfold DirPath.rmdirFrom
  split
  · split <;> exact ⟨rfl, rfl⟩
  · exact ⟨rfl, rfl⟩

theorem next_trades (th : Thread) : th.next.Trades th := by
  cases th with
  | openChunkFile call stage =>
    cases stage with
    | openat =>
      intro res
      have hHeld := held_afterOpenat call res
      exact ⟨hHeld.1, sameLocks_of_eq hHeld.2 rfl⟩
    | mkdirV2 depth =>
      intro res
      have hHeld := held_afterMkdirV2 call depth res
      exact ⟨hHeld.1, sameLocks_of_eq hHeld.2 rfl⟩
    | referenceDir depth parentChunkDir => exact fun d => ⟨.refl _, sameLocks_of_eq rfl rfl⟩
    | readLock depth parentChunkDir chunkDir => exact ⟨rfl, rfl, rfl⟩
    | mkdirat depth parentChunkDir chunkDir =>
      intro res
      cases parentChunkDir with
      | some parent => exact ⟨rfl, .swap _ _ _, rfl⟩
      | none =>
        have hHeld := held_afterMkdir call depth chunkDir res
        exact ⟨hHeld.1, sameLocks_of_eq hHeld.2 rfl⟩
    | unlockParent depth parent chunkDir mkdirRes | unlockFailed chunkDir
    | unlock chunkDir openRes => exact ⟨rfl, Or.inl ⟨rfl, rfl⟩⟩
    | releaseParent depth parent chunkDir mkdirRes =>
      have hHeld := held_afterMkdir call depth chunkDir mkdirRes
      refine ⟨parent, rfl, ?_, sameLocks_of_eq hHeld.2 rfl⟩
      rw [hHeld.1]
      exact .swap _ _ _
    | releaseFailed chunkDir | releaseDir chunkDir openRes =>
      exact ⟨chunkDir, rfl, .refl _, sameLocks_of_eq rfl rfl⟩
    | openAgain outChunkDir =>
      intro res
      cases outChunkDir <;> exact ⟨rfl, sameLocks_of_eq rfl rfl⟩
    | done res => trivial
  | rmdirChunkDirPath chunkDirPath stage =>
    cases stage with
    | referenceDir num => exact fun d => ⟨.refl _, sameLocks_of_eq rfl rfl⟩
    | writeLock num chunkDir => exact ⟨rfl, rfl, rfl⟩
    | rmdirat num chunkDir => exact fun res => ⟨rfl, sameLocks_of_eq rfl rfl⟩
    | unlock num chunkDir rmdirRes => exact ⟨rfl, Or.inr ⟨rfl, rfl⟩⟩
    | releaseDir num chunkDir rmdirRes =>
      have hHeld := held_afterRmdir chunkDirPath (num - 1) rmdirRes
      refine ⟨chunkDir, rfl, ?_, sameLocks_of_eq rfl hHeld.2⟩
      rw [hHeld.1]
      exact .refl _
    | done => trivial

theorem readLocks_subset_refs (th : Thread) : th.readLocks ⊆ th.refs := by
  cases th with
  | openChunkFile call stage => cases stage <;> simp [readLocks, refs]
  | rmdirChunkDirPath chunkDirPath stage => simp [readLocks]

theorem writeLocks_subset_refs (th : Thread) : th.writeLocks ⊆ th.refs := by
  cases th with
  | openChunkFile call stage => simp [writeLocks]
  | rmdirChunkDirPath chunkDirPath stage => cases stage <;> simp [writeLocks, refs]

/-! ## Shares -/

def refsTo (dirID : String) (th : Thread) : Nat := (th.refs.map ChunkDirPtr.id).count dirID

def readersAt (addr : Nat) (th : Thread) : Nat := (th.readLocks.map ChunkDirPtr.addr).count addr

def writersAt (addr : Nat) (th : Thread) : Nat := (th.writeLocks.map ChunkDirPtr.addr).count addr

theorem count_map_cons {α β : Type} [DecidableEq β] (f : α → β) (x : α) (xs : List α) (b : β) :
    ((x :: xs).map f).count b = (xs.map f).count b + if f x = b then 1 else 0 := by
  rw [map_cons, count_cons]
  simp only [beq_iff_eq]

variable {d : ChunkDirPtr}

theorem refsTo_of_perm (h : th'.refs.Perm (d :: th.refs))
    (dirID : String) : th'.refsTo dirID = th.refsTo dirID + if d.id = dirID then 1 else 0 := by
  unfold refsTo
  rw [(h.map _).count_eq, count_map_cons]

theorem refsTo_congr (h : th'.refs = th.refs) (dirID : String) :
    th'.refsTo dirID = th.refsTo dirID := by rw [refsTo, refsTo, h]

theorem readersAt_cons (h : th'.readLocks = d :: th.readLocks)
    (addr : Nat) : th'.readersAt addr = th.readersAt addr + if d.addr = addr then 1 else 0 := by
  rw [readersAt, readersAt, h, count_map_cons]

theorem writersAt_cons (h : th'.writeLocks = d :: th.writeLocks) (addr : Nat) :
    th'.writersAt addr = th.writersAt addr + if d.addr = addr then 1 else 0 := by
  rw [writersAt, writersAt, h, count_map_cons]

theorem readersAt_congr (h : th'.readLocks.Perm th.readLocks) (addr : Nat) :
    th'.readersAt addr = th.readersAt addr := (h.map _).count_eq addr

theorem writersAt_congr (h : th'.writeLocks = th.writeLocks) (addr : Nat) :
    th'.writersAt addr = th.writersAt addr := by rw [writersAt, writersAt, h]

theorem refsTo_pos {th : Thread} (h : d ∈ th.refs) : 0 < th.refsTo d.id :=
  count_pos_iff.mpr (mem_map_of_mem h)

end Thread

/-! ## The accounts of the server -/

namespace ChunkServer

variable {T : Type} [Fintype T]

/-- `ext` has the references that none of the threads holds. -/
structure Accounts (ext : String → Nat) (s : ChunkServer T) : Prop where
  counts : ∃ dir, s.store.Counts dir
      (fun dirID => ext dirID + allShares (Thread.refsTo dirID) s.threads) ∧
    ∀ t, ∀ d ∈ (s.threads t).refs, d = dir d.id
  locks : ∀ addr, (s.locks addr).HeldBy (allShares (Thread.readersAt addr) s.threads)
    (allShares (Thread.writersAt addr) s.threads)

namespace Accounts

variable {ext : String → Nat} {s : ChunkServer T}

theorem eq_of_id_eq (h : Accounts ext s) {t u : T} {d d' : ChunkDirPtr}
    (hd : d ∈ (s.threads t).refs) (hd' : d' ∈ (s.threads u).refs) (hID : d.id = d'.id) :
    d = d' := by
  obtain ⟨dir, -, hHeld⟩ := h.counts
  rw [hHeld t d hd, hHeld u d' hd', hID]

theorem exclusion (h : Accounts ext s) {t u : T} {d d' : ChunkDirPtr}
    (hRead : d ∈ (s.threads t).readLocks) (hWrite : d' ∈ (s.threads u).writeLocks) :
    d.id ≠ d'.id := by
  intro hID
  have hSame := h.eq_of_id_eq (readLocks_subset_refs _ hRead)
    (writeLocks_subset_refs _ hWrite) hID
  apply (h.locks d.addr).not_both
  · apply lt_of_lt_of_le _ (share_le_allShares _ s.threads t)
    exact count_pos_iff.mpr (mem_map_of_mem hRead)
  · apply lt_of_lt_of_le _ (share_le_allShares _ s.threads u)
    rw [hSame]
    exact count_pos_iff.mpr (mem_map_of_mem hWrite)

variable [DecidableEq T]

variable {t : T}

section

variable (h : Accounts ext s) {th : Thread}
include h

theorem locks_of_sameLocks (hLocks : (s.threads t).SameLocks th) (addr : Nat) :
    (s.locks addr).HeldBy (allShares (readersAt addr) (update s.threads t th))
      (allShares (writersAt addr) (update s.threads t th)) := by
  rw [allShares_update_eq (readersAt_congr hLocks.1 addr),
    allShares_update_eq (writersAt_congr hLocks.2 addr)]
  exact h.locks addr

theorem counts_of_sameRefs (hRefs : th.refs = (s.threads t).refs) :
    ∃ dir, s.store.Counts dir (fun dirID => ext dirID +
        allShares (refsTo dirID) (update s.threads t th)) ∧
      ∀ u, ∀ d ∈ (update s.threads t th u).refs, d = dir d.id := by
  obtain ⟨dir, hCounts, hHeld⟩ := h.counts
  refine ⟨dir, ?_, fun u => ?_⟩
  · simpa only [allShares_update_eq (refsTo_congr hRefs _)] using hCounts
  · by_cases hu : u = t
    · simp only [hu, update_self, hRefs]
      exact hHeld t
    · simp only [update_of_ne hu]
      exact hHeld u

theorem of_same (tree : ChunkTree) (hRefs : th.refs = (s.threads t).refs)
    (hLocks : (s.threads t).SameLocks th) :
    Accounts ext { s with tree := tree, threads := update s.threads t th } where
  counts := h.counts_of_sameRefs hRefs
  locks := h.locks_of_sameLocks hLocks

end

variable {d : ChunkDirPtr}

theorem of_lock (h : Accounts ext s) {th : Thread} {lock : RWLock}
    (hRefs : th.refs = (s.threads t).refs)
    (hHere : lock.HeldBy (allShares (readersAt d.addr) (update s.threads t th))
      (allShares (writersAt d.addr) (update s.threads t th)))
    (hRead : ∀ addr, d.addr ≠ addr → th.readersAt addr = (s.threads t).readersAt addr)
    (hWrite : ∀ addr, d.addr ≠ addr → th.writersAt addr = (s.threads t).writersAt addr) :
    Accounts ext { s with
      locks := update s.locks d.addr lock, threads := update s.threads t th } where
  counts := h.counts_of_sameRefs hRefs
  locks := by
    intro addr
    by_cases hAddr : d.addr = addr
    · subst hAddr
      simp only [update_self]
      exact hHere
    · simp only [update_of_ne (Ne.symm hAddr)]
      rw [allShares_update_eq (hRead addr hAddr), allShares_update_eq (hWrite addr hAddr)]
      exact h.locks addr

theorem referenceDir (h : Accounts ext s) {dirID : String} (rand : Nat)
    {thread : ChunkDirPtr → Thread}
    (hTrades : (Next.referenceDir dirID thread).Trades (s.threads t)) :
    Accounts ext { s with
      store := (s.store.referenceDir rand dirID).2
      threads := update s.threads t (thread (s.store.referenceDir rand dirID).1) } := by
  obtain ⟨dir, hCounts, hHeld⟩ := h.counts
  obtain ⟨dir', hCounts', hNew, hKept⟩ := hCounts.referenceDir rand dirID
  obtain ⟨hRefs, hLocks⟩ := hTrades (s.store.referenceDir rand dirID).1
  have hID : (s.store.referenceDir rand dirID).1.id = dirID := by rw [hNew, hCounts'.ids]
  constructor
  · refine ⟨dir', ?_, ?_⟩
    · convert hCounts' using 1
      funext k
      rw [allShares_update_add (refsTo_of_perm hRefs k), hID, update_apply]
      by_cases hk : k = dirID
      · simp [hk, add_assoc]
      · simp [hk, Ne.symm hk]
    · have hOld : ∀ u, ∀ d ∈ (s.threads u).refs, d = dir' d.id := by
        intro u d hd
        rw [hKept, ← hHeld u d hd]
        have hPos := refsTo_pos hd
        have hLe := share_le_allShares (refsTo d.id) s.threads u
        omega
      intro u
      by_cases hu : u = t
      · simp only [hu, update_self]
        intro d hd
        rcases mem_cons.mp (hRefs.subset hd) with rfl | hBefore
        · rw [hID]
          exact hNew
        · exact hOld t d hBefore
      · simp only [update_of_ne hu]
        exact hOld u
  · exact h.locks_of_sameLocks hLocks

variable {thread : Thread}

variable (h : Accounts ext s)
include h

theorem releaseDir {dirID : String}
    (hTrades : (Next.releaseDir dirID thread).Trades (s.threads t)) :
    Accounts ext { s with
      store := s.store.releaseDirUnlocked dirID, threads := update s.threads t thread } := by
  obtain ⟨dir, hCounts, hHeld⟩ := h.counts
  obtain ⟨d, rfl, hRefs, hLocks⟩ := hTrades
  have hShare := fun k => allShares_update_sub (refsTo_of_perm hRefs k)
  constructor
  · refine ⟨dir, ?_, ?_⟩
    · have hPos : 0 < ext d.id + allShares (refsTo d.id) s.threads := by
        rw [hShare d.id, if_pos rfl]
        omega
      convert hCounts.releaseDir hPos using 1
      funext k
      rw [update_apply]
      by_cases hk : k = d.id
      · subst hk
        simp only [hShare d.id, ↓reduceIte]
        exact (Nat.add_sub_cancel (ext d.id + allShares (refsTo d.id)
          (update s.threads t thread)) 1).symm
      · rw [if_neg hk, hShare k, if_neg (Ne.symm hk), add_zero]
    · intro u
      by_cases hu : u = t
      · simp only [hu, update_self]
        exact fun d' hd' => hHeld t d' (hRefs.symm.subset (mem_cons_of_mem _ hd'))
      · simp only [update_of_ne hu]
        exact hHeld u
  · exact h.locks_of_sameLocks hLocks

theorem readLock (hTrades : (Next.readLock d thread).Trades (s.threads t))
    (hMay : (s.locks d.addr).mayRead = true) :
    Accounts ext { s with
      locks := update s.locks d.addr (s.locks d.addr).readLock
      threads := update s.threads t thread } := by
  obtain ⟨hRefs, hRead, hWrite⟩ := hTrades
  apply h.of_lock hRefs
  · rw [allShares_update_add (readersAt_cons hRead d.addr), if_pos rfl,
      allShares_update_eq (writersAt_congr hWrite d.addr)]
    exact (h.locks d.addr).readLock hMay
  · intro addr hAddr
    rw [readersAt_cons hRead, if_neg hAddr, add_zero]
  · exact fun addr _ => writersAt_congr hWrite addr

theorem writeLock (hTrades : (Next.writeLock d thread).Trades (s.threads t))
    (hMay : (s.locks d.addr).mayWrite = true) :
    Accounts ext { s with
      locks := update s.locks d.addr (s.locks d.addr).writeLock
      threads := update s.threads t thread } := by
  obtain ⟨hRefs, hRead, hWrite⟩ := hTrades
  apply h.of_lock hRefs
  · rw [allShares_update_eq (readersAt_congr (.of_eq hRead) d.addr),
      allShares_update_add (writersAt_cons hWrite d.addr), if_pos rfl]
    exact (h.locks d.addr).writeLock hMay
  · exact fun addr _ => readersAt_congr (.of_eq hRead) addr
  · intro addr hAddr
    rw [writersAt_cons hWrite, if_neg hAddr, add_zero]

theorem unlock (hTrades : (Next.unlock d thread).Trades (s.threads t)) :
    Accounts ext { s with
      locks := update s.locks d.addr (s.locks d.addr).unlock
      threads := update s.threads t thread } := by
  obtain ⟨hRefs, ⟨hRead, hWrite⟩ | ⟨hRead, hWrite⟩⟩ := hTrades
  · have hHeld := h.locks d.addr
    rw [allShares_update_sub (readersAt_cons hRead d.addr), if_pos rfl,
      ← allShares_update_eq (writersAt_congr hWrite d.addr)] at hHeld
    apply h.of_lock hRefs hHeld.unlockRead
    · intro addr hAddr
      rw [readersAt_cons hRead, if_neg hAddr, add_zero]
    · exact fun addr _ => writersAt_congr hWrite addr
  · have hHeld := h.locks d.addr
    rw [← allShares_update_eq (readersAt_congr (.of_eq hRead) d.addr),
      allShares_update_sub (writersAt_cons hWrite d.addr), if_pos rfl] at hHeld
    apply h.of_lock hRefs hHeld.unlockWrite
    · exact fun addr _ => readersAt_congr (.of_eq hRead) addr
    · intro addr hAddr
      rw [writersAt_cons hWrite, if_neg hAddr, add_zero]

theorem threadStep (t : T) (rand : Nat) : Accounts ext (s.threadStep t rand) := by
  have hTrades := (s.threads t).next_trades
  unfold ChunkServer.threadStep
  cases hNext : (s.threads t).next with
  | referenceDir dirID thread => exact h.referenceDir rand (hNext ▸ hTrades)
  | readLock d thread =>
    simp only
    split
    · next hMay => exact h.readLock (hNext ▸ hTrades) hMay
    · exact h
  | writeLock d thread =>
    simp only
    split
    · next hMay => exact h.writeLock (hNext ▸ hTrades) hMay
    · exact h
  | unlock d thread => exact h.unlock (hNext ▸ hTrades)
  | releaseDir dirID thread => exact h.releaseDir (hNext ▸ hTrades)
  | mkdirat path thread | rmdirat path thread | openat path fileName thread =>
    rw [hNext] at hTrades
    exact h.of_same _ (hTrades _).1 (hTrades _).2
  | finished => exact h

theorem step (e : ServerStep T) : Accounts ext (s.step e) := by
  cases e with
  | thread t rand => exact h.threadStep t rand
  | cacheSweepAsync rand =>
    obtain ⟨dir, hCounts, hHeld⟩ := h.counts
    exact ⟨⟨dir, hCounts.cacheSweepUnlocked false rand, hHeld⟩, h.locks⟩
  | unlinkat path fileName => exact ⟨h.counts, h.locks⟩

end Accounts

end ChunkServer

end Fhgfs.Chunks
