import Fhgfs.Storage.MetaStoreReferences

/-!
# Opened files

Handles of one place belong to one inode object. As long as the global file store is empty, a file
is opened through its directory: that succeeds if there is a reference to its inode, or if the inode
can be loaded.
-/

namespace Fhgfs.Storage

open Bool Option

/-! ## Handles of one place -/

section Ledger

variable {lookup : Places} {handles : List Handle} {numParentRefs : Nat → Int} {nextAddress : Nat}

section

variable (h : Ledger lookup handles numParentRefs nextAddress)
include h

theorem Ledger.exists_handle_of_find {dirID fileID : String} {r : FileInodeReferencer}
    (hFind : lookup (some dirID) fileID = some r) :
    ∃ handle ∈ handles, handle.parentEntryID = dirID ∧ handle.inode.entryID = fileID := by
  have hSound := h.sound hFind
  have hUsed : 0 < refsTo handles r.referencedObject.address := by
    have hCount := hSound.refCount
    have hPositive := hSound.positive
    omega
  obtain ⟨handle, hIn, hSame⟩ := List.countP_pos_iff.mp hUsed
  obtain ⟨place, r', hPlace, hFind', hObject⟩ := h.stored handle hIn
  have hAddress : r'.referencedObject.address = r.referencedObject.address := by
    rw [hObject]
    exact of_decide_eq_true hSame
  obtain ⟨rfl, hID⟩ := h.unique hFind' hFind hAddress
  refine ⟨handle, hIn, ?_, hID⟩
  simpa [eq_comm] using hPlace

/-- Two handles that were taken through one directory, of inodes with one ID, are the same. -/
theorem Ledger.inode_eq {handle handle' : Handle}
    (hIn : handle ∈ handles) (hIn' : handle' ∈ handles)
    (hParent : handle.parentEntryID = handle'.parentEntryID)
    (hID : handle.inode.entryID = handle'.inode.entryID) : handle.inode = handle'.inode := by
  obtain ⟨place, r, hPlace, hFind, hObject⟩ := h.stored handle hIn
  obtain ⟨place', r', hPlace', hFind', hObject'⟩ := h.stored handle' hIn'
  have hSame : lookup place handle.inode.entryID = lookup place' handle'.inode.entryID := by
    rw [hID] at hFind ⊢
    rcases hPlace with rfl | rfl <;> rcases hPlace' with rfl | rfl
    · rfl
    · rw [h.disjoint hFind] at hFind'
      cases hFind'
    · rw [h.disjoint hFind'] at hFind
      cases hFind
    · rw [hParent]
  rw [hFind, hFind'] at hSame
  rw [← hObject, ← hObject', some.inj hSame]

theorem Ledger.place_of_address
    (hGlobal : ∀ fileID, lookup none fileID = none) {handle handle' : Handle}
    (hIn : handle ∈ handles)
    (hIn' : handle' ∈ handles) (hSame : handle.inode.address = handle'.inode.address) :
    handle.parentEntryID = handle'.parentEntryID ∧
      handle.inode.entryID = handle'.inode.entryID := by
  obtain ⟨place, r, hPlace, hFind, hObject⟩ := h.stored handle hIn
  obtain ⟨place', r', hPlace', hFind', hObject'⟩ := h.stored handle' hIn'
  obtain ⟨hPlaces, hID⟩ := h.unique hFind hFind' (by rw [hObject, hObject', hSame])
  refine ⟨?_, hID⟩
  rcases hPlace with rfl | rfl
  · rw [hGlobal] at hFind
    cases hFind
  rcases hPlace' with rfl | rfl
  · rw [hGlobal] at hFind'
    cases hFind'
  exact some.inj hPlaces

end

end Ledger

namespace MetaStore

open InodeFileStore InodeDirStore

/-! ## Opened files -/

section Accounted

variable {s : MetaStore} {handles : List Handle} {direct : String → Nat}

theorem fileStore_openInSubDir (posixTID : Int) (o : StoreOutcomes) (entryInfo : EntryInfo) :
    (s.openInSubDir posixTID o entryInfo).1.fileStore = s.fileStore := by
  unfold openInSubDir
  dsimp only
  split
  · split <;> rfl
  · rfl

theorem Accounted.openInSubDir_result (h : Accounted s handles direct) (posixTID : Int)
    (o : StoreOutcomes) (entryInfo : EntryInfo) :
    (∃ inode, (s.openInSubDir posixTID o entryInfo).2 = .ok inode ∧
        inode.entryID = entryInfo.entryID ∧ (o.createFromEntryInfo = true ∨ ∃ r,
          s.lookup (some entryInfo.parentEntryID) entryInfo.entryID = some r)) ∨
      (∃ e, (s.openInSubDir posixTID o entryInfo).2 = .error e) ∧ o.createFromEntryInfo = false ∧
        s.lookup (some entryInfo.parentEntryID) entryInfo.entryID = none := by
  obtain ⟨hReferenced, hFound⟩ :=
    h.balanced.referenceDir o.toDirStoreOutcomes entryInfo.parentEntryID false
  unfold MetaStore.openInSubDir referenceDirUnlocked
  simp only [hFound rfl, if_true] at hReferenced ⊢
  generalize (s.dirStore.referenceDirInode o.toDirStoreOutcomes entryInfo.parentEntryID false).1 =
    dirStore at hReferenced ⊢
  have hStores : dirStore.fileStoreOf entryInfo.parentEntryID =
    s.dirStore.fileStoreOf entryInfo.parentEntryID := hReferenced.files _
  have hOpened := (dirStore.fileStoreOf entryInfo.parentEntryID).referenceFileInode_referenced
    posixTID (s.createFromEntryInfo o) entryInfo true
  unfold InodeFileStore.openFile
  generalize (dirStore.fileStoreOf entryInfo.parentEntryID).referenceFileInode posixTID
    (s.createFromEntryInfo o) entryInfo true = opened at hOpened ⊢
  rw [hStores] at hOpened
  cases hOpened with
  | @success r fileStore hLookup hUnlocked hFind =>
    refine Or.inl ⟨r.referencedObject, rfl, entryID_of_lookupOrLoad hLookup, ?_⟩
    rcases lookupOrLoad_true hLookup with hStored | ⟨-, address, hCreated, -⟩
    · exact Or.inr ⟨r, hStored⟩
    · left
      unfold createFromEntryInfo at hCreated
      split at hCreated
      · assumption
      · cases hCreated
  | failure hLocked =>
    have hNone : s.lookup (some entryInfo.parentEntryID) entryInfo.entryID = none := by
      cases hFind : s.lookup (some entryInfo.parentEntryID) entryInfo.entryID with
      | none => rfl
      | some r =>
        have hHere : (s.dirStore.fileStoreOf entryInfo.parentEntryID).find entryInfo.entryID =
          some r := hFind
        have hRefused := hLocked r (by rw [lookupOrLoad, hHere, some_or])
        simp [FileInode.unlockedFor, (h.ledger.sound hFind).unlocked] at hRefused
    refine Or.inr ⟨⟨_, rfl⟩, ?_, hNone⟩
    have hHere : (s.dirStore.fileStoreOf entryInfo.parentEntryID).find entryInfo.entryID = none :=
      hNone
    by_contra hCreate
    have hRefused := hLocked (ObjectReferencer.new ⟨entryInfo.entryID, 0, s.nextAddress⟩) (by
      rw [lookupOrLoad, hHere, none_or, if_pos rfl, createFromEntryInfo,
        if_pos (eq_true_of_not_eq_false hCreate), map_some])
    simp [FileInode.unlockedFor, ObjectReferencer.new] at hRefused

end Accounted

/-! ## Without files in the global store -/

section NotGlobal

variable {s : MetaStore} (h : ∀ fileID, s.lookup none fileID = none)
include h

section

variable (posixTID : Int) (o : StoreOutcomes) (entryInfo : EntryInfo)

theorem openFile_eq : s.openFile posixTID o entryInfo = s.openInSubDir posixTID o entryInfo := by
  unfold MetaStore.openFile
  rw [isInStore_eq_false (h entryInfo.entryID), if_neg Bool.false_ne_true]

theorem referenceFileUnlocked_eq : s.referenceFileUnlocked posixTID o entryInfo =
      ((s.openInSubDir posixTID o entryInfo).1,
        (s.openInSubDir posixTID o entryInfo).2.toOption) := by
  have hNone : s.fileStore.find entryInfo.entryID = none := h entryInfo.entryID
  have hGlobal : s.fileStore.referenceFileInode posixTID (s.createFromEntryInfo o) entryInfo false =
      (s.fileStore, none) := by
    unfold referenceFileInode
    simp only [Bool.and_false, Bool.false_eq_true, if_false, hNone]
  unfold referenceFileUnlocked
  simp only [hGlobal]

theorem lookup_openInSubDir
    (fileID : String) : (s.openInSubDir posixTID o entryInfo).1.lookup none fileID = none := by
  show (s.openInSubDir posixTID o entryInfo).1.fileStore.find fileID = none
  rw [fileStore_openInSubDir]
  exact h fileID

end

theorem lookup_releaseFileUnlocked (o : StoreOutcomes) (parentEntryID : String) (inode : FileInode)
    (fileID : String) :
    (s.releaseFileUnlocked o parentEntryID inode).1.lookup none fileID = none := by
  have hStore : (s.releaseFileUnlocked o parentEntryID inode).1.fileStore = s.fileStore := by
    unfold releaseFileUnlocked
    simp only [releaseFileInode_of_not_inStore (isInStore_eq_false (h inode.entryID)),
      false_eq_true, if_false]
    unfold MetaStore.releaseInSubDir
    dsimp only
    split <;> rfl
  show (s.releaseFileUnlocked o parentEntryID inode).1.fileStore.find fileID = none
  rw [hStore]
  exact h fileID

end NotGlobal

end MetaStore

end Fhgfs.Storage
