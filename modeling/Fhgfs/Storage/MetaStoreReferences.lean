import Fhgfs.Storage.HandleLedger
import Fhgfs.Storage.MetaStore

/-!
# Accounting of the meta store

`Accounted` is the invariant of a meta store, with its users: the ledger of the file references
is right, and the references to a directory are those that the users hold themselves, those of
the inodes in its file store, and that of the cache. Each operation of the store is shown to keep
it here, `moveReferenceToMetaFileStoreUnlocked` for an inode that no other directory has.
-/

namespace Fhgfs.Storage

namespace MetaStore

open InodeFileStore InodeDirStore MetaStore InodeFileStore ObjectReferencer Option

def lookup (s : MetaStore) : Places
  | none, fileID => s.fileStore.find fileID
  | some dirID, fileID => (s.dirStore.fileStoreOf dirID).find fileID

/-- The references to each directory apart from that of the cache: those which the users hold
directly, and one for each reference to an inode in its file store. -/
def owed (s : MetaStore) (direct : String → Nat) : String → Int :=
  fun dirID => direct dirID + (s.dirStore.fileStoreOf dirID).totalRefs

structure Accounted (s : MetaStore) (handles : List Handle) (direct : String → Nat) : Prop where
  ledger : Ledger s.lookup handles s.numParentRefs s.nextAddress
  balanced : Balanced s.dirStore (s.owed direct)

/-- The handles after a call that may have returned an inode. -/
def addHandle (parentEntryID : String) : Option FileInode → List Handle → List Handle
  | none, handles => handles
  | some inode, handles => ⟨parentEntryID, inode⟩ :: handles

section Accounted

variable {s s' : MetaStore} {handles : List Handle} {direct : String → Nat}
  {parentEntryID fileID : String}

theorem positive_fileStoreOf (h : Ledger s.lookup handles s.numParentRefs s.nextAddress)
    (dirID : String) : (s.dirStore.fileStoreOf dirID).Positive := by
  intro k r hFind
  have hLookup : s.lookup (some dirID) k = some r := hFind
  exact (h.sound hLookup).positive

variable {dirStore : InodeDirStore}

theorem accounted_of_rebalanced (h : Ledger s.lookup handles s.numParentRefs s.nextAddress)
    {dirOwed : String → Int} (hStore : Rebalanced s.dirStore dirStore dirOwed)
    (hOwed : ∀ k, s.owed direct k = dirOwed k) {nextAddress : Nat}
    (hNext : s.nextAddress ≤ nextAddress) :
    Accounted { s with dirStore := dirStore, nextAddress := nextAddress } handles direct := by
  constructor
  · refine h.unchanged (fun p k => ?_) hNext
    cases p with
    | none => rfl
    | some dirID =>
      show (dirStore.fileStoreOf dirID).find k = (s.dirStore.fileStoreOf dirID).find k
      rw [hStore.files]
  · refine hStore.balanced.congr fun k => ?_
    rw [← hOwed]
    show direct k + (dirStore.fileStoreOf k).totalRefs =
      direct k + (s.dirStore.fileStoreOf k).totalRefs
    rw [hStore.files]

/-! ## References to directories -/

section

variable (h : Accounted s handles direct)
include h

theorem Accounted.referenceDir (o : StoreOutcomes) (dirID : String) (forceLoad : Bool) :
    Accounted (s.referenceDirUnlocked o dirID forceLoad).1 handles (fun k => direct k +
        if k = dirID ∧ (s.referenceDirUnlocked o dirID forceLoad).2 = true then 1 else 0) := by
  have hReferenced := (h.balanced.referenceDir o.toDirStoreOutcomes dirID forceLoad).1
  unfold referenceDirUnlocked
  refine accounted_of_rebalanced h.ledger hReferenced (fun k => ?_) le_rfl
  simp only [owed, owe]
  by_cases hk : k = dirID
  · simp only [hk, true_and, if_true]
    split <;> omega
  · simp [hk]

theorem Accounted.releaseDir (o : StoreOutcomes) {dirID : String} (hHeld : 0 < direct dirID) :
    Accounted (s.releaseDirUnlocked o dirID) handles
      (fun k => direct k - if k = dirID then 1 else 0) := by
  have hPositive := positive_fileStoreOf h.ledger dirID
  have hNonneg := hPositive.totalRefs_nonneg
  have hHere : s.owed direct dirID = direct dirID + (s.dirStore.fileStoreOf dirID).totalRefs := rfl
  have hRelease := h.balanced.release o.selfTerminate dirID (by omega)
    (fun hOne => hPositive.eq_empty (by omega))
  refine accounted_of_rebalanced h.ledger hRelease (fun k => ?_) le_rfl
  simp only [owed, owe]
  split
  · rename_i hk
    rw [hk]
    omega
  · omega

theorem Accounted.cacheSweep (o : DirStoreOutcomes) :
    Accounted { s with dirStore := (s.dirStore.cacheSweepAsync o).1 } handles direct :=
  accounted_of_rebalanced h.ledger (h.balanced.sweep false o) (fun _ => rfl) le_rfl

end

/-! ## References through a directory -/

variable {fileStore : InodeFileStore}

theorem lookup_of_fileStore {new : Option FileInodeReferencer}
    (hGlobal : s'.fileStore = s.fileStore) (hFiles : ∀ k, s'.dirStore.fileStoreOf k =
      if k = parentEntryID then fileStore else s.dirStore.fileStoreOf k)
    (hFind : ∀ k, fileStore.find k =
      if k = fileID then new else (s.dirStore.fileStoreOf parentEntryID).find k) (p : Place)
    (k : String) :
    s'.lookup p k = if p = some parentEntryID ∧ k = fileID then new else s.lookup p k := by
  cases p with
  | none => simp [lookup, hGlobal]
  | some dirID =>
    by_cases hDir : dirID = parentEntryID
    · simp [lookup, hFiles, hDir, hFind]
    · simp [lookup, hFiles, hDir]

theorem owed_of_fileStore {n : Int} (hFiles : ∀ k, s'.dirStore.fileStoreOf k =
      if k = parentEntryID then fileStore else s.dirStore.fileStoreOf k)
    (hTotal : fileStore.totalRefs = (s.dirStore.fileStoreOf parentEntryID).totalRefs + n)
    (k : String) : s'.owed direct k = owe (s.owed direct) parentEntryID n k := by
  simp only [owed, owe, hFiles]
  split
  · rename_i hk
    rw [hk]
    omega
  · omega

variable {r : FileInodeReferencer}

theorem lookupOrLoad_true {store : InodeFileStore} {created : Option Nat}
    (h : lookupOrLoad created true store fileID = some r) :
    store.find fileID = some r ∨ store.find fileID = none ∧
      ∃ address, created = some address ∧ r = new ⟨fileID, 0, address⟩ := by
  rcases or_eq_some_iff.mp h with hFind | ⟨hNone, hLoad⟩
  · exact Or.inl hFind
  · obtain ⟨address, hCreated, hNew⟩ := map_eq_some_iff.mp hLoad
    exact Or.inr ⟨hNone, address, hCreated, hNew.symm⟩

theorem createFromEntryInfo_eq_some {o : StoreOutcomes} {address : Nat}
    (h : s.createFromEntryInfo o = some address) : address = s.nextAddress := by
  unfold createFromEntryInfo at h
  split at h
  · exact (some.inj h).symm
  · cases h

theorem Accounted.release_untouched (h : Accounted s handles direct)
    (hReferenced : Rebalanced s.dirStore dirStore (owe (s.owed direct) parentEntryID 1))
    (selfTerminate : Bool) {nextAddress : Nat} (hNext : s.nextAddress ≤ nextAddress) :
    Accounted { s with
        dirStore := (dirStore.setFileStore parentEntryID
          (s.dirStore.fileStoreOf parentEntryID)).releaseDirUnlocked selfTerminate parentEntryID
        nextAddress := nextAddress } handles direct := by
  have hNonneg := h.balanced.nonneg parentEntryID
  have hOwed := owe_self (s.owed direct) parentEntryID 1
  obtain ⟨hSet, hFiles⟩ := hReferenced.balanced.setFileStore parentEntryID
    (s.dirStore.fileStoreOf parentEntryID) (by omega)
  have hSame : ∀ k, (dirStore.setFileStore parentEntryID
      (s.dirStore.fileStoreOf parentEntryID)).fileStoreOf k = s.dirStore.fileStoreOf k := by
    intro k
    rw [hFiles, hReferenced.files]
    split
    · rename_i hk
      rw [hk]
    · rfl
  have hRelease := hSet.release selfTerminate parentEntryID (by omega) (fun hOne => by
    rw [hSame]
    exact h.balanced.empty _ (by omega))
  rw [owe_owe] at hRelease
  have hBack : Rebalanced s.dirStore (dirStore.setFileStore parentEntryID
      (s.dirStore.fileStoreOf parentEntryID)) (owe (s.owed direct) parentEntryID 1) := ⟨hSet, hSame⟩
  exact accounted_of_rebalanced h.ledger (hBack.trans hRelease) (by simp) hNext

theorem Accounted.openInSubDir (h : Accounted s handles direct) (posixTID : Int)
    (o : StoreOutcomes) (entryInfo : EntryInfo)
    (hGlobal : s.lookup none entryInfo.entryID = none) :
    Accounted (s.openInSubDir posixTID o entryInfo).1
      (addHandle entryInfo.parentEntryID (s.openInSubDir posixTID o entryInfo).2.toOption handles)
      direct := by
  obtain ⟨hReferenced, hFound⟩ :=
    h.balanced.referenceDir o.toDirStoreOutcomes entryInfo.parentEntryID false
  have hNonneg := h.balanced.nonneg entryInfo.parentEntryID
  unfold MetaStore.openInSubDir referenceDirUnlocked
  simp only [hFound rfl, if_true] at hReferenced ⊢
  generalize (s.dirStore.referenceDirInode o.toDirStoreOutcomes entryInfo.parentEntryID false).1 =
    dirStore at hReferenced ⊢
  have hOwed := owe_self (s.owed direct) entryInfo.parentEntryID 1
  have hOpened := (dirStore.fileStoreOf entryInfo.parentEntryID).referenceFileInode_referenced
    posixTID (s.createFromEntryInfo o) entryInfo true
  unfold InodeFileStore.openFile
  generalize (dirStore.fileStoreOf entryInfo.parentEntryID).referenceFileInode posixTID
    (s.createFromEntryInfo o) entryInfo true = opened at hOpened ⊢
  cases hOpened with
  | failure _ =>
    rw [hReferenced.files]
    exact h.release_untouched hReferenced o.selfTerminate (Nat.le_succ _)
  | @success r fileStore hLookup hUnlocked hFind =>
    obtain ⟨hSet, hFiles⟩ := hReferenced.balanced.setFileStore
      entryInfo.parentEntryID fileStore (by omega)
    have hStores : ∀ k, dirStore.fileStoreOf k = s.dirStore.fileStoreOf k := hReferenced.files
    constructor
    · have hRef : Acquirable s.lookup handles s.numParentRefs (s.nextAddress + 1)
          (some entryInfo.parentEntryID) entryInfo.entryID r := by
        rcases lookupOrLoad_true hLookup with hStored | ⟨hNone, address, hCreated, rfl⟩
        · rw [hStores] at hStored
          exact h.ledger.acquirable (Nat.le_succ _) hStored (entryID_of_find hStored)
        · rw [hStores] at hNone
          rw [createFromEntryInfo_eq_some hCreated]
          exact h.ledger.acquirable_new (Nat.lt_succ_self _) hNone
      refine h.ledger.opened (Nat.le_succ _) hRef (Or.inr rfl) (by simp) (fun _ => hGlobal) ?_
        (by simp [incParentRef])
      exact lookup_of_fileStore rfl (fun k => by rw [← hStores]; exact hFiles k)
        (fun k => by rw [← hStores]; exact hFind k)
    · have hCount := refCount_reference hLookup hFind entryInfo.entryID
      have hTotal := totalRefs_of_agree entryInfo.entryID (fun k hk =>
        (hFind k).trans (if_neg hk))
      rw [if_pos rfl] at hCount
      refine hSet.congr (owed_of_fileStore (fun k => by rw [← hStores]; exact hFiles k) ?_)
      rw [← hStores]
      omega

/-! ## References in the global store -/

theorem lookup_of_global {new : Option FileInodeReferencer}
    (hGlobal : s'.fileStore = fileStore) (hDirs : s'.dirStore = s.dirStore)
    (hFind : ∀ k, fileStore.find k = if k = fileID then new else s.fileStore.find k) (p : Place)
    (k : String) : s'.lookup p k = if p = none ∧ k = fileID then new else s.lookup p k := by
  cases p with
  | none => simp [lookup, hGlobal, hFind]
  | some dirID => simp [lookup, hDirs]

theorem Accounted.openGlobal (h : Accounted s handles direct)
    (hLookup : s.lookup none fileID = some r) (hFind : ∀ k, fileStore.find k =
      if k = fileID then some r.reference else s.fileStore.find k) :
    Accounted { s with fileStore := fileStore } (⟨parentEntryID, r.referencedObject⟩ :: handles)
      direct := by
  refine ⟨?_, h.balanced⟩
  refine h.ledger.opened le_rfl
    (h.ledger.acquirable le_rfl hLookup (entryID_of_find hLookup)) (Or.inl rfl)
    (fun _ => hLookup) (by simp) (lookup_of_global rfl rfl hFind) (by simp)

section

variable (h : Accounted s handles direct) (posixTID : Int) (o : StoreOutcomes)
  (entryInfo : EntryInfo)
include h

theorem Accounted.referenceFile : Accounted (s.referenceFileUnlocked posixTID o entryInfo).1
      (addHandle entryInfo.parentEntryID (s.referenceFileUnlocked posixTID o entryInfo).2 handles)
      direct := by
  unfold referenceFileUnlocked
  have hGlobal := s.fileStore.referenceFileInode_referenced posixTID (s.createFromEntryInfo o)
    entryInfo false
  generalize s.fileStore.referenceFileInode posixTID (s.createFromEntryInfo o) entryInfo false =
    fromGlobal at hGlobal ⊢
  cases hGlobal with
  | success hLookup _ hFind =>
    rw [lookupOrLoad_false] at hLookup
    exact h.openGlobal hLookup hFind
  | failure hLocked =>
    refine h.openInSubDir posixTID o entryInfo ?_
    cases hFind : s.lookup none entryInfo.entryID with
    | none => rfl
    | some r =>
      -- no inode of the ledger is locked
      have hUnlocked := (h.ledger.sound hFind).unlocked
      have hRefused := hLocked r ((lookupOrLoad_false _).trans hFind)
      simp [FileInode.unlockedFor, hUnlocked] at hRefused

theorem Accounted.openFile : Accounted (s.openFile posixTID o entryInfo).1
      (addHandle entryInfo.parentEntryID (s.openFile posixTID o entryInfo).2.toOption handles)
      direct := by
  unfold MetaStore.openFile InodeFileStore.openFile
  have hGlobal := s.fileStore.referenceFileInode_referenced posixTID (s.createFromEntryInfo o)
    entryInfo false
  generalize s.fileStore.referenceFileInode posixTID (s.createFromEntryInfo o) entryInfo false =
    fromGlobal at hGlobal ⊢
  split
  · cases hGlobal with
    | success hLookup _ hFind =>
      rw [lookupOrLoad_false] at hLookup
      exact h.openGlobal hLookup hFind
    | failure _ => exact h
  · rename_i hNotIn
    exact h.openInSubDir posixTID o entryInfo (not_isSome_iff_eq_none.mp hNotIn)

end

/-! ## Releases -/

theorem totalRefs_releaseFileInode {store : InodeFileStore} {inode : FileInode}
    (h : store.isInStore inode.entryID = true) :
    (store.releaseFileInode inode).1.totalRefs = store.totalRefs + -1 := by
  have hCount := refCount_releaseFileInode h inode.entryID
  have hAgree : ∀ k, k ≠ inode.entryID →
      (store.releaseFileInode inode).1.find k = store.find k := by
    intro k hk
    rw [find_releaseFileInode, if_neg hk]
  have hTotal := totalRefs_of_agree inode.entryID hAgree
  rw [if_pos rfl] at hCount
  omega

variable {handle : Handle}

section

variable (h : Accounted s handles direct)
include h

theorem Accounted.releaseInSubDir {β : Type} (o : StoreOutcomes) (hIn : handle ∈ handles)
    (hFind : s.lookup (some handle.parentEntryID) handle.inode.entryID = some r)
    (hObject : r.referencedObject = handle.inode)
    {release : InodeFileStore → InodeFileStore × β} (notReleased : β)
    (hRelease : ∀ store, (release store).1 = (store.releaseFileInode handle.inode).1) :
    Accounted (s.releaseInSubDir o handle.parentEntryID handle.inode release notReleased).1
      (handles.erase handle) direct := by
  obtain ⟨hReferenced, hFound⟩ :=
    h.balanced.referenceDir o.toDirStoreOutcomes handle.parentEntryID false
  unfold MetaStore.releaseInSubDir referenceDirUnlocked
  simp only [hFound rfl, if_true] at hReferenced ⊢
  generalize (s.dirStore.referenceDirInode o.toDirStoreOutcomes handle.parentEntryID false).1 =
    dirStore at hReferenced ⊢
  simp only [decParentRef, MetaStore.releaseDirUnlocked, hRelease]
  have hStores := hReferenced.files
  rw [hStores]
  -- the file store, and what is owed to the directory, before and afterwards
  have hIsIn : (s.dirStore.fileStoreOf handle.parentEntryID).isInStore handle.inode.entryID =
      true := isInStore_of_find hFind
  have hTotal := totalRefs_releaseFileInode hIsIn
  have hFindAfter : ∀ k, ((s.dirStore.fileStoreOf handle.parentEntryID).releaseFileInode
      handle.inode).1.find k = if k = handle.inode.entryID then decreased r else
      (s.dirStore.fileStoreOf handle.parentEntryID).find k := by
    intro k
    rw [find_releaseFileInode, show InodeFileStore.find _ _ = some r from hFind, bind_some]
  generalize ((s.dirStore.fileStoreOf handle.parentEntryID).releaseFileInode
    handle.inode).1 = fileStore at hTotal hFindAfter ⊢
  have hOwed := owe_self (s.owed direct) handle.parentEntryID 1
  have hHere : s.owed direct handle.parentEntryID = direct handle.parentEntryID +
    (s.dirStore.fileStoreOf handle.parentEntryID).totalRefs := rfl
  have hNonneg := (positive_fileStoreOf h.ledger handle.parentEntryID).totalRefs_nonneg
  obtain ⟨hSet, hFiles⟩ := hReferenced.balanced.setFileStore
    handle.parentEntryID fileStore (by omega)
  simp only [hStores] at hFiles
  -- the state before the directory is released
  generalize hClosed : MetaStore.mk s.fileStore
    (dirStore.setFileStore handle.parentEntryID fileStore)
    (fun a => s.numParentRefs a - if a = handle.inode.address then 1 else 0) s.nextAddress = closed
  have hLedger : Ledger closed.lookup (handles.erase handle) closed.numParentRefs
      closed.nextAddress := by
    rw [← hClosed]
    exact h.ledger.closed hIn hFind hObject (lookup_of_fileStore rfl hFiles hFindAfter) (by simp)
  have hOwedAfter : ∀ k,
      closed.owed direct k = owe (s.owed direct) handle.parentEntryID (-1) k := by
    rw [← hClosed]
    exact owed_of_fileStore hFiles hTotal
  have hPositive : fileStore.Positive := by
    have hHerePositive := positive_fileStoreOf hLedger handle.parentEntryID
    rw [← hClosed] at hHerePositive
    rwa [hFiles, if_pos rfl] at hHerePositive
  have hRest := hPositive.totalRefs_nonneg
  have hFirst := hSet.release o.selfTerminate handle.parentEntryID (by omega)
    (fun hOne => by omega)
  rw [owe_owe] at hFirst
  have hSecond := hFirst.balanced.release o.selfTerminate handle.parentEntryID
    (by rw [owe_self]; omega) (fun hOne => by
      rw [owe_self] at hOne
      rw [hFirst.files, hFiles, if_pos rfl]
      exact hPositive.eq_empty (by omega))
  rw [owe_owe] at hSecond
  have hReleased := hFirst.trans hSecond
  have hResult := accounted_of_rebalanced hLedger (by rw [← hClosed]; exact hReleased)
    hOwedAfter le_rfl
  rwa [← hClosed] at hResult

theorem Accounted.closeGlobal (hIn : handle ∈ handles)
    (hFind : s.lookup none handle.inode.entryID = some r)
    (hObject : r.referencedObject = handle.inode) :
    Accounted { s with fileStore := (s.fileStore.releaseFileInode handle.inode).1 }
      (handles.erase handle) direct := by
  refine ⟨?_, h.balanced⟩
  refine h.ledger.closed hIn hFind hObject (lookup_of_global rfl rfl fun k => ?_) (by simp)
  rw [find_releaseFileInode, show InodeFileStore.find _ _ = some r from hFind, bind_some]

theorem Accounted.lookup_global
    (hFind : s.lookup (some parentEntryID) fileID = some r) : s.lookup none fileID = none := by
  cases hGlobal : s.lookup none fileID with
  | none => rfl
  | some r' =>
    rw [h.ledger.disjoint hGlobal] at hFind
    cases hFind

theorem Accounted.releaseFile (o : StoreOutcomes) (hIn : handle ∈ handles) :
    Accounted (s.releaseFileUnlocked o handle.parentEntryID handle.inode).1
      (handles.erase handle) direct := by
  obtain ⟨place, r, hPlace, hFind, hObject⟩ := h.ledger.stored handle hIn
  unfold releaseFileUnlocked
  rcases hPlace with rfl | rfl
  · have hIsIn : s.fileStore.isInStore handle.inode.entryID = true := isInStore_of_find hFind
    simp only [releaseFileInode_found, hIsIn, if_true]
    exact h.closeGlobal hIn hFind hObject
  · have hNotIn := isInStore_eq_false (h.lookup_global hFind)
    simp only [releaseFileInode_of_not_inStore hNotIn, Bool.false_eq_true, if_false]
    exact h.releaseInSubDir o hIn hFind hObject false (fun _ => rfl)

theorem Accounted.closeFile (o : StoreOutcomes) (hIn : handle ∈ handles) {entryInfo : EntryInfo}
    (hParent : entryInfo.parentEntryID = handle.parentEntryID) :
    Accounted (s.closeFile o entryInfo handle.inode).1 (handles.erase handle) direct := by
  obtain ⟨place, r, hPlace, hFind, hObject⟩ := h.ledger.stored handle hIn
  obtain ⟨hStore, hFound⟩ := closeFile_released handle.inode s.fileStore
  unfold MetaStore.closeFile
  rcases hPlace with rfl | rfl
  · have hIsIn : s.fileStore.isInStore handle.inode.entryID = true := isInStore_of_find hFind
    rw [hIsIn] at hFound
    obtain ⟨outNumRefs, hClosed⟩ := isSome_iff_exists.mp hFound
    simp only [hClosed, hStore]
    exact h.closeGlobal hIn hFind hObject
  · have hNotIn := isInStore_eq_false (h.lookup_global hFind)
    rw [hNotIn] at hFound
    have hClosed := isNone_iff_eq_none.mp (isSome_eq_false_iff.mp hFound)
    simp only [hClosed, hStore, releaseFileInode_of_not_inStore hNotIn, hParent]
    exact h.releaseInSubDir o hIn hFind hObject none
      (fun store => (closeFile_released handle.inode store).1)

end

/-! ## The move to the global store -/

theorem releaseParentRefs_spec (o : StoreOutcomes) (parentEntryID : String) (inode : FileInode)
    (numParentRefs : Nat) {dirOwed : String → Int} (h : Balanced s.dirStore dirOwed)
    (hOwed : numParentRefs < dirOwed parentEntryID) :
    Rebalanced s.dirStore (s.releaseParentRefs o parentEntryID inode numParentRefs).dirStore
        (owe dirOwed parentEntryID (-numParentRefs)) ∧
      (s.releaseParentRefs o parentEntryID inode numParentRefs).fileStore = s.fileStore ∧
      (s.releaseParentRefs o parentEntryID inode numParentRefs).nextAddress = s.nextAddress ∧
      ∀ a, a ≠ inode.address →
        (s.releaseParentRefs o parentEntryID inode numParentRefs).numParentRefs a =
          s.numParentRefs a := by
  induction numParentRefs generalizing s dirOwed with
  | zero =>
    refine ⟨?_, rfl, rfl, fun _ _ => rfl⟩
    simpa [releaseParentRefs] using Rebalanced.refl h
  | succ numParentRefs ih =>
    have hRelease := h.release o.selfTerminate parentEntryID (by omega) (fun hOne => by omega)
    have hLess := owe_self dirOwed parentEntryID (-1)
    obtain ⟨hRest, hGlobal, hNext, hParent⟩ :=
      ih (s := (s.releaseDirUnlocked o parentEntryID).decParentRef inode) hRelease.balanced
        (by omega)
    refine ⟨?_, hGlobal, hNext, fun a ha => (hParent a ha).trans ?_⟩
    · have hSum : (-1 : Int) + -numParentRefs = -((numParentRefs + 1 : Nat) : Int) := by
        omega
      rw [owe_owe, hSum] at hRest
      exact hRelease.trans hRest
    · simp [decParentRef, releaseDirUnlocked, ha]

/-- The inode is in the store of no other directory. -/
def OnlyIn (s : MetaStore) (parentEntryID entryID : String) : Prop :=
  (s.lookup (some parentEntryID) entryID).isSome → ∀ dirID, dirID ≠ parentEntryID →
    s.lookup (some dirID) entryID = none

/-- What a move to the global store has changed: the inode is there, and not in the store of the
directory, and the references to the directory still add up. -/
structure MovedToGlobal (s s' : MetaStore) (direct : String → Nat) (parentEntryID fileID : String)
    (r : FileInodeReferencer) : Prop where
  fileStore : ∀ k, s'.fileStore.find k = if k = fileID then some r else s.fileStore.find k
  fileStoreOf : ∀ k, s'.dirStore.fileStoreOf k =
    if k = parentEntryID then (s.dirStore.fileStoreOf parentEntryID).remove fileID
    else s.dirStore.fileStoreOf k
  parentRefs : ∀ a, a ≠ r.referencedObject.address → s'.numParentRefs a = s.numParentRefs a
  nextAddress : s'.nextAddress = s.nextAddress
  balanced : Balanced s'.dirStore (s'.owed direct)

section

variable (h : Accounted s handles direct) (o : StoreOutcomes)
include h

/-- The move of an inode from the store of its directory, after its insertion into the global
store. -/
theorem Accounted.moveInserted
    (hReferenced : Rebalanced s.dirStore dirStore (owe (s.owed direct) parentEntryID 1))
    (hFind : s.lookup (some parentEntryID) fileID = some r) {inserted moved : MetaStore}
    (hInserted : inserted = ⟨s.fileStore.put r.reference, dirStore.setFileStore parentEntryID
      ((s.dirStore.fileStoreOf parentEntryID).remove fileID), s.numParentRefs, s.nextAddress⟩)
    (hMoved : moved = inserted.releaseParentRefs o parentEntryID r.referencedObject
      (s.numParentRefs r.referencedObject.address).toNat) :
    MovedToGlobal s (MetaStore.releaseDirUnlocked o parentEntryID
      { moved with fileStore := moved.fileStore.put r.reference.release }) direct parentEntryID
      fileID r := by
  have hSound := h.ledger.sound hFind
  have hNonneg := h.balanced.nonneg parentEntryID
  have hOwed := owe_self (s.owed direct) parentEntryID 1
  have hHere : s.owed direct parentEntryID = direct parentEntryID +
    (s.dirStore.fileStoreOf parentEntryID).totalRefs := rfl
  obtain ⟨hSet, hFiles⟩ := hReferenced.balanced.setFileStore parentEntryID
    ((s.dirStore.fileStoreOf parentEntryID).remove fileID) (by omega)
  simp only [hReferenced.files] at hFiles
  have hRemoved : ∀ k, ((s.dirStore.fileStoreOf parentEntryID).remove fileID).find k =
      if k = fileID then none else (s.dirStore.fileStoreOf parentEntryID).find k :=
    fun k => find_remove fileID
  generalize hFileStore : (s.dirStore.fileStoreOf parentEntryID).remove fileID = fileStore
    at hSet hFiles hRemoved hInserted
  have hPositive : fileStore.Positive := by
    intro k r' hFind'
    rw [hRemoved] at hFind'
    split at hFind'
    · cases hFind'
    · exact positive_fileStoreOf h.ledger parentEntryID k r' hFind'
  have hRest := hPositive.totalRefs_nonneg
  -- the references of the inode are those of the directory that are given back
  have hRefs : ((s.numParentRefs r.referencedObject.address).toNat : Int) = r.refCount := by
    rw [hSound.parentRefs (by simp)]
    exact Int.toNat_of_nonneg hSound.positive.le
  have hTotal : fileStore.totalRefs =
      (s.dirStore.fileStoreOf parentEntryID).totalRefs + -r.refCount := by
    have hAgree := totalRefs_of_agree fileID (fun k hk => (hRemoved k).trans (if_neg hk))
    have hBefore : (s.dirStore.fileStoreOf parentEntryID).refCount fileID = r.refCount := by
      rw [InodeFileStore.refCount, show InodeFileStore.find _ _ = some r from hFind]
    have hAfter : fileStore.refCount fileID = 0 := by
      rw [InodeFileStore.refCount, hRemoved, if_pos rfl]
    omega
  have hBalanced : Balanced inserted.dirStore (owe (s.owed direct) parentEntryID 1) := by
    rwa [hInserted]
  obtain ⟨hLoop, hLoopGlobal, hLoopNext, hLoopParent⟩ := releaseParentRefs_spec o parentEntryID
    r.referencedObject (s.numParentRefs r.referencedObject.address).toNat hBalanced (by omega)
  rw [← hMoved, owe_owe, hRefs] at hLoop
  rw [← hMoved, hInserted] at hLoopGlobal hLoopNext
  rw [← hMoved] at hLoopParent
  have hMovedFiles : ∀ k, moved.dirStore.fileStoreOf k =
      if k = parentEntryID then fileStore else s.dirStore.fileStoreOf k := by
    intro k
    rw [hLoop.files, hInserted]
    exact hFiles k
  have hLess := owe_self (s.owed direct) parentEntryID (1 + -r.refCount)
  have hLast := hLoop.balanced.release o.selfTerminate parentEntryID (by omega) (fun hOne => by
    rw [hMovedFiles, if_pos rfl]
    exact hPositive.eq_empty (by omega))
  have hAfterFiles : ∀ k, (moved.dirStore.releaseDirUnlocked o.selfTerminate
      parentEntryID).fileStoreOf k =
      if k = parentEntryID then fileStore else s.dirStore.fileStoreOf k :=
    fun k => (hLast.files k).trans (hMovedFiles k)
  rw [← hFileStore] at hAfterFiles hTotal
  refine ⟨fun k => ?_, hAfterFiles, fun a ha => ?_, hLoopNext, ?_⟩
  · have hID := entryID_of_find hFind
    have hBack : r.reference.release = r := by
      simp [ObjectReferencer.reference, ObjectReferencer.release]
    show (moved.fileStore.put r.reference.release).find k = _
    rw [hBack, InodeFileStore.find_put, hLoopGlobal, InodeFileStore.find_put,
      ObjectReferencer.referencedObject_reference, hID]
    split <;> rfl
  · show moved.numParentRefs a = s.numParentRefs a
    rw [hLoopParent a ha, hInserted]
  · refine hLast.balanced.congr fun k => ?_
    rw [owed_of_fileStore hAfterFiles hTotal, owe_owe]
    congr 1
    omega

theorem Accounted.movedToGlobal (hFind : s.lookup (some parentEntryID) fileID = some r) :
    MovedToGlobal s (s.moveReferenceToMetaFileStoreUnlocked o parentEntryID fileID).1 direct
      parentEntryID fileID r := by
  obtain ⟨hReferenced, hFound⟩ := h.balanced.referenceDir o.toDirStoreOutcomes parentEntryID false
  unfold moveReferenceToMetaFileStoreUnlocked referenceDirUnlocked
  simp only [hFound rfl, if_true, Bool.not_true, Bool.false_eq_true, if_false] at hReferenced ⊢
  generalize (s.dirStore.referenceDirInode o.toDirStoreOutcomes parentEntryID false).1 =
    dirStore at hReferenced ⊢
  have hHere : (s.dirStore.fileStoreOf parentEntryID).find fileID = some r := hFind
  have hFree : s.fileStore.isInStore r.reference.referencedObject.entryID = false := by
    rw [referencedObject_reference, entryID_of_find hHere]
    exact isInStore_eq_false (h.lookup_global hFind)
  have hInsert : s.fileStore.insertReferencer r.reference =
      (s.fileStore.put r.reference, true) := by
    rw [insertReferencer, hFree, if_neg Bool.false_ne_true]
  unfold getReferencerAndDeleteFromMap
  rw [hReferenced.files, hHere]
  simp only [hInsert, if_true]
  exact h.moveInserted o hReferenced hFind rfl rfl

theorem Accounted.moveReference
    (parentEntryID entryID : String) (hOnly : s.OnlyIn parentEntryID entryID) :
    Accounted (s.moveReferenceToMetaFileStoreUnlocked o parentEntryID entryID).1 handles
      direct := by
  cases hFind : s.lookup (some parentEntryID) entryID with
  | none =>
    obtain ⟨hReferenced, hFound⟩ := h.balanced.referenceDir o.toDirStoreOutcomes parentEntryID false
    have hHere : (s.dirStore.fileStoreOf parentEntryID).find entryID = none := hFind
    unfold moveReferenceToMetaFileStoreUnlocked referenceDirUnlocked getReferencerAndDeleteFromMap
    simp only [hFound rfl, if_true, Bool.not_true, Bool.false_eq_true, if_false,
      hReferenced.files, hHere] at hReferenced ⊢
    exact h.release_untouched hReferenced o.selfTerminate le_rfl
  | some r =>
    have hAlone : ∀ place, place ≠ some parentEntryID → s.lookup place entryID = none := by
      intro place hPlace
      cases place with
      | none => exact h.lookup_global hFind
      | some dirID =>
        refine hOnly (by rw [hFind]; rfl) dirID fun hSame => hPlace ?_
        rw [hSame]
    obtain ⟨hGlobal, hFiles, hParent, hNext, hBalanced⟩ := h.movedToGlobal o hFind
    refine ⟨?_, hBalanced⟩
    rw [hNext]
    refine h.ledger.moved hFind hAlone (fun p k => ?_) hParent
    cases p with
    | none =>
      rw [MetaStore.lookup, hGlobal]
      simp [MetaStore.lookup]
    | some dirID =>
      rw [MetaStore.lookup, hFiles]
      by_cases hDir : dirID = parentEntryID
      · simp [hDir, InodeFileStore.find_remove, MetaStore.lookup]
      · rw [if_neg hDir]
        by_cases hk : k = entryID
        · have hNone := hAlone (some dirID) (by simpa using hDir)
          simpa [hk, MetaStore.lookup] using hNone
        · simp [hk, MetaStore.lookup]

end

end Accounted

end MetaStore

end Fhgfs.Storage
