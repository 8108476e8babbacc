import Fhgfs.Session.MetaSessionBytes
import Fhgfs.Storage.OpenedFiles
import Fhgfs.Storage.ReferenceAccounting

/-!
# Restored sessions of a metadata server

The sessions of a metadata server come back with all their files, opened again, and with the
granted locks of the inodes, exactly if all entries have an ID, all inodes can be read from disk
again, and less than 2^32 bytes are written (`metaSessions_restored_iff`).

* `Serving.relinkInodes`: after the files were opened, each of them has a handle of the meta store.
* `Serving.readLockStates`: the locks of one inode after the other are read into its new object.
-/

namespace Fhgfs.Session

open Wire Serialization Locking Storage List MetaStore FileInodeLocks Function

variable {ι : Type}

/-! ## Files that are opened again -/

/-- The meta store while the sessions are loaded, with the handles of the files. -/
structure Serving (env : LoadEnv) (s : LoadState) (handles : List Handle) : Prop where
  accounted : s.metaStore.Accounted handles (fun _ => 0)
  global : ∀ fileID, s.metaStore.lookup none fileID = none
  onDisk : ∀ handle ∈ handles, env.onDisk handle.parentEntryID handle.inode.entryID = true

/-- The inode of the entry can be read from disk. -/
def LoadEnv.OnDisk (env : LoadEnv) (entryInfo : EntryInfo) : Prop :=
  env.onDisk entryInfo.parentEntryID entryInfo.entryID = true

/-- The inode object of a loaded file, with its handle. -/
structure OpenedAs (s : LoadState) (handles : List Handle)
    (entry : ByteString × Nat × SessionFile ι) (inode : FileInode) : Prop where
  linked : s.inodes entry.1 entry.2.1 = some inode
  entryID : inode.entryID = entry.2.2.entryInfo.entryID
  handle : ⟨entry.2.2.entryInfo.parentEntryID, inode⟩ ∈ handles

variable {env : LoadEnv} {s : LoadState} {handles : List Handle}

theorem serving_start (env : LoadEnv) (tuneDirMetadataCacheLimit : Nat) :
    Serving env (env.start tuneDirMetadataCacheLimit) [] where
  accounted := SharedMetaStore.inv_initial tuneDirMetadataCacheLimit
  global := fun _ => rfl
  onDisk := nofun

theorem Serving.opened (h : Serving env s handles) (entryInfo : EntryInfo) :
    (∃ inode, (s.metaStore.openInSubDir env.posixTID (env.outcomes entryInfo s.numCalls)
        entryInfo).2 = .ok inode ∧ inode.entryID = entryInfo.entryID ∧ env.OnDisk entryInfo) ∨
      (∃ e, (s.metaStore.openInSubDir env.posixTID (env.outcomes entryInfo s.numCalls)
        entryInfo).2 = .error e) ∧ ¬ env.OnDisk entryInfo ∧
          ∀ handle ∈ handles, handle.parentEntryID = entryInfo.parentEntryID →
            handle.inode.entryID ≠ entryInfo.entryID := by
  rcases h.accounted.openInSubDir_result env.posixTID (env.outcomes entryInfo s.numCalls)
    entryInfo with ⟨inode, hOpened, hID, hFound⟩ | ⟨hError, hCreate, hNone⟩
  · refine Or.inl ⟨inode, hOpened, hID, ?_⟩
    rcases hFound with hCreate | ⟨r, hFind⟩
    · exact hCreate
    · obtain ⟨handle, hIn, hParent, hSame⟩ := h.accounted.ledger.exists_handle_of_find hFind
      have hDisk := h.onDisk handle hIn
      rwa [hParent, hSame] at hDisk
  refine Or.inr ⟨hError, fun hDisk => ?_, fun handle hIn hParent hSame => ?_⟩
  · exact nomatch hCreate.symm.trans hDisk
  · have hDisk := h.onDisk handle hIn
    rw [hParent, hSame] at hDisk
    exact nomatch hCreate.symm.trans hDisk

theorem Serving.relinkInode (h : Serving env s handles)
    (entry : ByteString × Nat × SessionFile Unit) : ∃ handles', handles ⊆ handles' ∧
      Serving env (env.relinkInode entry s).1 handles' ∧
      ((env.relinkInode entry s).2 = true ↔ env.OnDisk entry.2.2.entryInfo) ∧
      (env.OnDisk entry.2.2.entryInfo →
        ∃ inode, OpenedAs (env.relinkInode entry s).1 handles' entry inode) := by
  have hAccounted := h.accounted.openFile env.posixTID
    (env.outcomes entry.2.2.entryInfo s.numCalls) entry.2.2.entryInfo
  have hGlobal := lookup_openInSubDir h.global env.posixTID
    (env.outcomes entry.2.2.entryInfo s.numCalls) entry.2.2.entryInfo
  unfold LoadEnv.relinkInode
  simp only [openFile_eq h.global] at hAccounted ⊢
  rcases h.opened entry.2.2.entryInfo with ⟨inode, hOpened, hID, hDisk⟩ | ⟨⟨e, hError⟩, hDisk, -⟩
  · simp only [hOpened] at hAccounted ⊢
    refine ⟨⟨entry.2.2.entryInfo.parentEntryID, inode⟩ :: handles, subset_cons_self _ _,
      ⟨hAccounted, hGlobal, ?_⟩, ⟨fun _ => hDisk, fun _ => rfl⟩, fun _ => ⟨inode, ?_, hID, ?_⟩⟩
    · intro handle hIn
      rcases mem_cons.mp hIn with rfl | hIn
      · rwa [hID]
      · exact h.onDisk handle hIn
    · exact if_pos ⟨rfl, rfl⟩
    · exact mem_cons_self
  · simp only [hError] at hAccounted ⊢
    refine ⟨handles, List.Subset.refl _, ⟨hAccounted, hGlobal, h.onDisk⟩, ?_,
      fun hOn => absurd hOn hDisk⟩
    exact ⟨nofun, fun hOn => absurd hOn hDisk⟩

theorem inodes_relinkInodes {entries : List (ByteString × Nat × SessionFile Unit)}
    {sessionID : ByteString} {key : Nat}
    (h : (sessionID, key) ∉ entries.map fun entry => (entry.1, entry.2.1)) :
    (env.relinkInodes entries s).1.inodes sessionID key = s.inodes sessionID key := by
  induction entries generalizing s with
  | nil => rfl
  | cons entry entries ih =>
    rw [map_cons, mem_cons, not_or] at h
    show (env.relinkInodes entries (env.relinkInode entry s).1).1.inodes sessionID key = _
    rw [ih h.2]
    apply if_neg
    rintro ⟨rfl, rfl⟩
    exact h.1 rfl

theorem locks_relinkInodes (entries : List (ByteString × Nat × SessionFile Unit)) :
    (env.relinkInodes entries s).1.locks = s.locks := by
  induction entries generalizing s with
  | nil => rfl
  | cons entry entries ih => exact ih

theorem Serving.relinkInodes (h : Serving env s handles)
    {entries : List (ByteString × Nat × SessionFile Unit)}
    (hKeys : (entries.map fun entry => (entry.1, entry.2.1)).Nodup) :
    ∃ handles', handles ⊆ handles' ∧ Serving env (env.relinkInodes entries s).1 handles' ∧
      ((env.relinkInodes entries s).2 = true ↔ ∀ entry ∈ entries, env.OnDisk entry.2.2.entryInfo) ∧
      ∀ entry ∈ entries, env.OnDisk entry.2.2.entryInfo →
        ∃ inode, OpenedAs (env.relinkInodes entries s).1 handles' entry inode := by
  induction entries generalizing s handles with
  | nil => exact ⟨handles, List.Subset.refl _, h, ⟨fun _ => nofun, fun _ => rfl⟩, nofun⟩
  | cons entry entries ih =>
    obtain ⟨hHead, hTail⟩ := nodup_cons.mp hKeys
    obtain ⟨handles₁, hSub₁, hServing₁, hOk₁, hOpened₁⟩ := h.relinkInode entry
    obtain ⟨handles₂, hSub₂, hServing₂, hOk₂, hOpened₂⟩ := ih hServing₁ hTail
    refine ⟨handles₂, fun _ hIn => hSub₂ (hSub₁ hIn), hServing₂, ?_, ?_⟩
    · show ((env.relinkInode entry s).2 && (env.relinkInodes entries _).2) = true ↔ _
      rw [Bool.and_eq_true, hOk₁, hOk₂, forall_mem_cons]
    · intro other hIn hDisk
      rcases mem_cons.mp hIn with rfl | hIn
      · obtain ⟨inode, hInode, hID, hHandle⟩ := hOpened₁ hDisk
        refine ⟨inode, ?_, hID, hSub₂ hHandle⟩
        exact (inodes_relinkInodes hHead).trans hInode
      · exact hOpened₂ other hIn hDisk

/-! ## Locks of the opened inodes -/

def stateBytes (locks : ι → FileInodeLocks) (file : SessionFile ι) : Encoding :=
  file.entryInfo.encoding ++ (locks file.inode).encoding

/-- Locks whose numbers fit the counts that are written. -/
structure Storable (locks : FileInodeLocks) : Prop where
  typed : locks.Typed
  shared : locks.flock.sharedLocks.elems.length < 2 ^ 32
  rangeExcl : locks.range.exclRangeFLocks.elems.length < 2 ^ 32
  rangeShared : locks.range.sharedRangeFLocks.elems.length < 2 ^ 32

theorem Storable.plain {locks : FileInodeLocks} (h : Storable locks) :
    locks.serializeLockState.Plain locks.encoding :=
  plain_lockState h.typed h.shared h.rangeExcl h.rangeShared

theorem Storable.restored {locks : FileInodeLocks} (h : Storable locks)
    (hFits : locks.encoding.length < 2 ^ 32) : locks.RestoredAs locks.granted :=
  restoredAs_granted h.typed (length_lockState h.typed ▸ hFits)

theorem Serving.referenced (h : Serving env s handles) {entryInfo : EntryInfo} {inode : FileInode}
    (hHandle : ⟨entryInfo.parentEntryID, inode⟩ ∈ handles) (hID : inode.entryID = entryInfo.entryID)
    (locks : Nat → FileInodeLocks) :
    (s.metaStore.referenceFileUnlocked env.posixTID (env.outcomes entryInfo s.numCalls)
        entryInfo).2 = some inode ∧
      Serving env { s with
          metaStore := ((s.metaStore.referenceFileUnlocked env.posixTID
            (env.outcomes entryInfo s.numCalls) entryInfo).1.releaseFileUnlocked
              (env.outcomes entryInfo (s.numCalls + 1)) entryInfo.parentEntryID inode).1
          locks := locks
          numCalls := s.numCalls + 2 } handles := by
  have hAccounted := h.accounted.referenceFile env.posixTID (env.outcomes entryInfo s.numCalls)
    entryInfo
  have hGlobal := lookup_openInSubDir h.global env.posixTID
    (env.outcomes entryInfo s.numCalls) entryInfo
  simp only [referenceFileUnlocked_eq h.global] at hAccounted ⊢
  rcases h.opened entryInfo with ⟨inode', hOpened, hID', -⟩ | ⟨-, -, hNot⟩
  · simp only [hOpened] at hAccounted ⊢
    change Accounted _ (⟨entryInfo.parentEntryID, inode'⟩ :: handles) _ at hAccounted
    obtain rfl : inode' = inode := hAccounted.ledger.inode_eq mem_cons_self
      (mem_cons_of_mem _ hHandle) rfl (hID'.trans hID.symm)
    refine ⟨rfl, ?_, ?_, h.onDisk⟩
    · have hReleased := hAccounted.releaseFile (env.outcomes entryInfo (s.numCalls + 1))
        mem_cons_self
      rwa [erase_cons_head] at hReleased
    · exact lookup_releaseFileUnlocked hGlobal _ _ _
  · exact absurd hID (hNot _ hHandle rfl)

def LoadEnv.unset (env : LoadEnv) (address : Nat) : FileInodeLocks :=
  .init (env.unsetLocks address).1 (env.unsetLocks address).2

/-- A file whose inode has locks to be read. -/
structure Pending (env : LoadEnv) (s : LoadState) (handles : List Handle)
    (locks : ι → FileInodeLocks) (inodeOf : SessionFile ι → FileInode) (file : SessionFile ι) :
    Prop where
  received : file.entryInfo.Received
  hasID : file.entryInfo.entryID ≠ ""
  storable : Storable (locks file.inode)
  entryID : (inodeOf file).entryID = file.entryInfo.entryID
  handle : ⟨file.entryInfo.parentEntryID, inodeOf file⟩ ∈ handles
  unset : s.locks (inodeOf file).address = env.unset (inodeOf file).address

theorem Serving.readLockStates {locks : ι → FileInodeLocks} {inodeOf : SessionFile ι → FileInode}
    {files : List (SessionFile ι)} (h : Serving env s handles)
    (hFiles : ∀ file ∈ files, Pending env s handles locks inodeOf file)
    (hFits : (files.flatMap (stateBytes locks)).length < 2 ^ 32)
    (hDistinct : files.Pairwise fun file other => (inodeOf file).address ≠ (inodeOf other).address)
    {mem : List UInt8} (rest : List UInt8) (hFills : Fills (files.flatMap (stateBytes locks)) mem) :
    ∃ s', env.readLockStates files.length s (.of (mem ++ rest)) = some s' ∧ s'.inodes = s.inodes ∧
      (∀ file ∈ files, s'.locks (inodeOf file).address = (locks file.inode).granted) ∧
      ∀ address, (∀ file ∈ files, (inodeOf file).address ≠ address) →
        s'.locks address = s.locks address := by
  induction files generalizing s mem with
  | nil =>
    cases hFills
    exact ⟨s, rfl, rfl, nofun, fun _ _ => rfl⟩
  | cons file files ih =>
    obtain ⟨hHead, hTail⟩ := pairwise_cons.mp hDistinct
    have hFile := hFiles file mem_cons_self
    rw [flatMap_cons] at hFits hFills
    rw [length_append, stateBytes, length_append] at hFits
    obtain ⟨front, memRest, rfl, hFront, hMemRest⟩ := fills_append hFills
    obtain ⟨memInfo, memLocks, rfl, hInfo, hLocks⟩ := fills_append hFront
    have hRestored := hFile.storable.restored (by omega)
    have hBytes := (hFile.storable.plain.fits (by omega)).1
    have hReadInfo := (EntryInfo.reads_encoding hFile.received hFile.hasID (by omega)).of
      (memLocks ++ (memRest ++ rest)) hInfo
    have hReadLocks := hRestored.read (env.unsetLocks (inodeOf file).address).1
      (env.unsetLocks (inodeOf file).address).2 memLocks (memRest ++ rest) (hBytes ▸ hLocks)
    obtain ⟨hReference, hServing⟩ := h.referenced hFile.handle hFile.entryID
      (update s.locks (inodeOf file).address (locks file.inode).granted)
    obtain ⟨s', hRun, hInodes, hSet, hKept⟩ := ih hServing
      (fun other hOther => by
        have hPending := hFiles other (mem_cons_of_mem _ hOther)
        exact ⟨hPending.received, hPending.hasID, hPending.storable, hPending.entryID,
          hPending.handle,
          (update_of_ne (hHead other hOther).symm _ _).trans hPending.unset⟩)
        (by omega) hTail hMemRest
    refine ⟨s', ?_, hInodes, ?_, ?_⟩
    · rw [length_cons, append_assoc, append_assoc, LoadEnv.readLockStates, hReadInfo]
      dsimp only
      rw [hReference]
      dsimp only
      rwa [hFile.unset, LoadEnv.unset, hReadLocks]
    · intro other hOther
      rcases mem_cons.mp hOther with rfl | hOther
      · rw [hKept _ fun later hLater => (hHead later hLater).symm]
        exact update_self _ _ _
      · exact hSet other hOther
    · intro address hNot
      rw [hKept address fun other hOther => hNot other (mem_cons_of_mem _ hOther)]
      exact update_of_ne (hNot file mem_cons_self).symm _ _

/-! ## One file of each inode -/

section FilesOfInodes

variable [DecidableEq ι] {inodesSeen : List ι} {files : List (SessionFile ι)}

theorem mem_of_filesOfInodes {file : SessionFile ι} (h : file ∈ filesOfInodes inodesSeen files) :
    file ∈ files ∧ file.inode ∉ inodesSeen := by
  induction files generalizing inodesSeen with
  | nil => cases h
  | cons head files ih =>
    rw [filesOfInodes] at h
    split at h
    · obtain ⟨hIn, hNew⟩ := ih h
      exact ⟨mem_cons_of_mem _ hIn, hNew⟩
    rename_i hNotSeen
    rcases mem_cons.mp h with rfl | h
    · exact ⟨mem_cons_self, hNotSeen⟩
    · obtain ⟨hIn, hNew⟩ := ih h
      exact ⟨mem_cons_of_mem _ hIn, fun hSeen => hNew (mem_cons_of_mem _ hSeen)⟩

theorem exists_filesOfInodes {file : SessionFile ι} (h : file ∈ files)
    (hNew : file.inode ∉ inodesSeen) :
    ∃ other ∈ filesOfInodes inodesSeen files, other.inode = file.inode := by
  induction files generalizing inodesSeen with
  | nil => cases h
  | cons head files ih =>
    rw [filesOfInodes]
    split
    · rename_i hSeen
      rcases mem_cons.mp h with rfl | h
      · exact absurd hSeen hNew
      · exact ih h hNew
    by_cases hSame : file.inode = head.inode
    · exact ⟨head, mem_cons_self, hSame.symm⟩
    rcases mem_cons.mp h with rfl | h
    · exact absurd rfl hSame
    · have hNotSeen : file.inode ∉ head.inode :: inodesSeen :=
        fun hSeen => (mem_cons.mp hSeen).elim hSame hNew
      obtain ⟨other, hOther, hInode⟩ := ih h hNotSeen
      exact ⟨other, mem_cons_of_mem _ hOther, hInode⟩

theorem pairwise_filesOfInodes : (filesOfInodes inodesSeen files).Pairwise fun file other =>
    file.inode ≠ other.inode := by
  induction files generalizing inodesSeen with
  | nil => exact .nil
  | cons head files ih =>
    rw [filesOfInodes]
    split
    · exact ih
    · refine .cons (fun other hOther hSame => ?_) ih
      exact (mem_of_filesOfInodes hOther).2 (hSame ▸ mem_cons_self)

end FilesOfInodes

end Fhgfs.Session
