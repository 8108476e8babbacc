import Fhgfs.Lib.Run
import Fhgfs.Storage.MetaStoreReferences

/-!
# Runs of the meta store

Calls of the meta store in any order, by users who give each reference back once. The reference
counts agree with the references that are held throughout a run, as long as no inode is moved to
the global store from one directory while another directory has an inode of the same ID in its
file store (`countsAgree_throughout_iff`). Such a move leaves the ID in both stores.
-/

namespace Fhgfs.Storage

open InodeDirStore InodeFileStore Option

/-- The meta store, with the handles of its users and their direct references to
directories. -/
structure SharedMetaStore where
  store : MetaStore
  handles : List Handle
  direct : String → Nat

inductive StoreOp
  | openFile (posixTID : Int) (o : StoreOutcomes) (entryInfo : EntryInfo)
  | referenceFile (posixTID : Int) (o : StoreOutcomes) (entryInfo : EntryInfo)
  | closeFile (o : StoreOutcomes) (entryInfo : EntryInfo) (handle : Handle)
  | releaseFile (o : StoreOutcomes) (handle : Handle)
  | moveReferenceToMetaFileStoreUnlocked (o : StoreOutcomes) (parentEntryID entryID : String)
  | referenceDir (o : StoreOutcomes) (dirID : String) (forceLoad : Bool)
  | releaseDir (o : StoreOutcomes) (dirID : String)
  | cacheSweepAsync (o : DirStoreOutcomes)

namespace SharedMetaStore

def step (s : SharedMetaStore) : StoreOp → SharedMetaStore
  | .openFile posixTID o entryInfo =>
    let opened := s.store.openFile posixTID o entryInfo
    { s with
      store := opened.1
      handles := MetaStore.addHandle entryInfo.parentEntryID opened.2.toOption s.handles }
  | .referenceFile posixTID o entryInfo =>
    let referenced := s.store.referenceFileUnlocked posixTID o entryInfo
    { s with
      store := referenced.1
      handles := MetaStore.addHandle entryInfo.parentEntryID referenced.2 s.handles }
  | .closeFile o entryInfo handle =>
    { s with
      store := (s.store.closeFile o entryInfo handle.inode).1
      handles := s.handles.erase handle }
  | .releaseFile o handle =>
    { s with
      store := (s.store.releaseFileUnlocked o handle.parentEntryID handle.inode).1
      handles := s.handles.erase handle }
  | .moveReferenceToMetaFileStoreUnlocked o parentEntryID entryID =>
    { s with store := (s.store.moveReferenceToMetaFileStoreUnlocked o parentEntryID entryID).1 }
  | .referenceDir o dirID forceLoad =>
    let referenced := s.store.referenceDirUnlocked o dirID forceLoad
    { s with
      store := referenced.1
      direct := fun k => s.direct k + if k = dirID ∧ referenced.2 = true then 1 else 0 }
  | .releaseDir o dirID =>
    { s with
      store := s.store.releaseDirUnlocked o dirID
      direct := fun k => s.direct k - if k = dirID then 1 else 0 }
  | .cacheSweepAsync o =>
    { s with store := { s.store with dirStore := (s.store.dirStore.cacheSweepAsync o).1 } }

def initial (tuneDirMetadataCacheLimit : Nat) : SharedMetaStore :=
  ⟨.empty tuneDirMetadataCacheLimit, [], fun _ => 0⟩

/-- Users give back what they hold, and files with the directory they were opened through. -/
def Admitted (s : SharedMetaStore) : StoreOp → Prop
  | .closeFile _ entryInfo handle =>
    handle ∈ s.handles ∧ entryInfo.parentEntryID = handle.parentEntryID
  | .releaseFile _ handle => handle ∈ s.handles
  | .releaseDir _ dirID => 0 < s.direct dirID
  | _ => True

/-- An inode is moved to the global store only if no other directory has one of the same ID. -/
def MovesOnlyInode (s : SharedMetaStore) : StoreOp → Prop
  | .moveReferenceToMetaFileStoreUnlocked _ parentEntryID entryID =>
    s.store.OnlyIn parentEntryID entryID
  | _ => True

/-- The agreement of the reference counts with the references that are held. -/
structure CountsAgree (s : SharedMetaStore) : Prop where
  notInBoth : ∀ fileID dirID, s.store.fileStore.isInStore fileID = true →
    (s.store.dirStore.fileStoreOf dirID).isInStore fileID = false
  refCount : ∀ place fileID r, s.store.lookup place fileID = some r →
    r.refCount = refsTo s.handles r.referencedObject.address
  stored : ∀ h ∈ s.handles, ∃ place r, (place = none ∨ place = some h.parentEntryID) ∧
    s.store.lookup place h.inode.entryID = some r ∧ r.referencedObject = h.inode
  dirRefCount : ∀ dirID, s.store.dirStore.refCount dirID = s.direct dirID +
    s.store.dirStore.cacheRef dirID + (s.store.dirStore.fileStoreOf dirID).inodes.total
      (fun r => s.store.numParentRefs r.referencedObject.address)
  released : ∀ dirID, (∀ h ∈ s.handles, h.parentEntryID ≠ dirID) →
    s.store.dirStore.refCount dirID = s.direct dirID + s.store.dirStore.cacheRef dirID

def Inv (s : SharedMetaStore) : Prop := s.store.Accounted s.handles s.direct

variable {s : SharedMetaStore}

theorem inv_initial (tuneDirMetadataCacheLimit : Nat) :
    Inv (initial tuneDirMetadataCacheLimit) := by
  have hNone : ∀ place fileID, MetaStore.lookup (.empty tuneDirMetadataCacheLimit) place fileID =
      none := by
    intro place fileID
    cases place <;> rfl
  constructor
  · constructor
    · intro fileID r hFind
      simp [initial, hNone] at hFind
    · intro place fileID r hFind
      simp [initial, hNone] at hFind
    · intro place fileID r place' fileID' r' hFind
      simp [initial, hNone] at hFind
    · exact fun _ _ => rfl
    · intro h hIn
      cases hIn
  · constructor
    · intro k
      rfl
    · exact fun _ => le_rfl
    · exact fun _ _ => rfl
    · intro dirID dirRefer hFind
      cases hFind

theorem Inv.step (h : Inv s) {op : StoreOp} (hAdmitted : Admitted s op)
    (hMoves : MovesOnlyInode s op) : Inv (s.step op) := by
  cases op with
  | openFile posixTID o entryInfo => exact h.openFile posixTID o entryInfo
  | referenceFile posixTID o entryInfo => exact h.referenceFile posixTID o entryInfo
  | closeFile o entryInfo handle => exact h.closeFile o hAdmitted.1 hAdmitted.2
  | releaseFile o handle => exact h.releaseFile o hAdmitted
  | moveReferenceToMetaFileStoreUnlocked o parentEntryID entryID =>
    exact h.moveReference o parentEntryID entryID hMoves
  | referenceDir o dirID forceLoad => exact h.referenceDir o dirID forceLoad
  | releaseDir o dirID => exact h.releaseDir o hAdmitted
  | cacheSweepAsync o => exact h.cacheSweep o

theorem Inv.countsAgree (h : Inv s) : CountsAgree s := by
  have hLedger := h.ledger
  have hCount : ∀ dirID, s.store.dirStore.refCount dirID = s.direct dirID +
      s.store.dirStore.cacheRef dirID + (s.store.dirStore.fileStoreOf dirID).totalRefs := by
    intro dirID
    have hBalanced := h.balanced.count dirID
    have hOwed : s.store.owed s.direct dirID = s.direct dirID +
      (s.store.dirStore.fileStoreOf dirID).totalRefs := rfl
    omega
  constructor
  · intro fileID dirID hIn
    obtain ⟨r, hFind⟩ := isSome_iff_exists.mp hIn
    have hGlobal : s.store.lookup none fileID = some r := hFind
    exact isInStore_eq_false (hLedger.disjoint hGlobal dirID)
  · exact fun place fileID r hFind => (hLedger.sound hFind).refCount
  · exact hLedger.stored
  · intro dirID
    rw [hCount]
    congr 1
    refine OrderedMap.total_congr fun fileID r hFind => ?_
    have hLookup : s.store.lookup (some dirID) fileID = some r := hFind
    exact ((hLedger.sound hLookup).parentRefs (by simp)).symm
  · intro dirID hReleased
    have hEmpty : s.store.dirStore.fileStoreOf dirID = .empty := by
      refine ext_find fun fileID => ?_
      rw [find_empty]
      cases hFind : (s.store.dirStore.fileStoreOf dirID).find fileID with
      | none => rfl
      | some r =>
        -- the inode has a reference, so a handle that was taken through this directory
        have hLookup : s.store.lookup (some dirID) fileID = some r := hFind
        obtain ⟨handle, hIn, hSame⟩ := hLedger.exists_handle hLookup
        exact absurd hSame (hReleased handle hIn)
    rw [hCount, hEmpty, totalRefs_empty, add_zero]

theorem Inv.not_countsAgree (h : Inv s) {op : StoreOp} (hMoves : ¬ MovesOnlyInode s op) :
    ¬ CountsAgree (s.step op) := by
  cases op with
  | moveReferenceToMetaFileStoreUnlocked o parentEntryID entryID =>
    intro hAgree
    refine hMoves fun hHere dirID hOther => ?_
    obtain ⟨r, hFind⟩ := isSome_iff_exists.mp hHere
    obtain ⟨hGlobal, hFiles, -, -, -⟩ := h.movedToGlobal o hFind
    have hMoved : (s.step (.moveReferenceToMetaFileStoreUnlocked o parentEntryID
        entryID)).store.fileStore.isInStore entryID = true :=
      isInStore_of_find ((hGlobal entryID).trans (if_pos rfl))
    have hNotIn := hAgree.notInBoth entryID dirID hMoved
    have hSame := (hFiles dirID).trans (if_neg hOther)
    have hStore : (s.step (.moveReferenceToMetaFileStoreUnlocked o parentEntryID
      entryID)).store.dirStore.fileStoreOf dirID = s.store.dirStore.fileStoreOf dirID := hSame
    rw [hStore] at hNotIn
    exact isNone_iff_eq_none.mp (isSome_eq_false_iff.mp hNotIn)
  | _ => exact absurd trivial hMoves

/-- In a run from the empty store, all reference counts agree with the references that are held,
in all states, if and only if no move to the global store finds another directory with an inode
of the same ID. -/
theorem countsAgree_throughout_iff (tuneDirMetadataCacheLimit : Nat) (ops : List StoreOp)
    (hOps : Run.EveryStep step Admitted (initial tuneDirMetadataCacheLimit) ops) :
    Run.Throughout step CountsAgree (initial tuneDirMetadataCacheLimit) ops ↔
      Run.EveryStep step MovesOnlyInode (initial tuneDirMetadataCacheLimit) ops :=
  Run.throughout_iff_everyStep step (A := Admitted) (fun _ hs => Inv.countsAgree hs)
    (fun _ _ hs hAdmitted hMoves => Inv.step hs hAdmitted hMoves)
    (fun _ _ hs _ hMoves => Inv.not_countsAgree hs hMoves)
    (inv_initial tuneDirMetadataCacheLimit) hOps

/-! ## Examples -/

def exampleOutcomes : StoreOutcomes := ⟨⟨0, false, true⟩, true⟩

def exampleFile (parentEntryID : String) : EntryInfo :=
  ⟨1, parentEntryID, "file", "name", .REGULARFILE, 0⟩

def exampleUnlink : List StoreOp :=
  [.openFile 1 exampleOutcomes (exampleFile "dir"),
    .moveReferenceToMetaFileStoreUnlocked exampleOutcomes "dir" "file",
    .closeFile exampleOutcomes (exampleFile "dir") ⟨"dir", ⟨"file", 0, 0⟩⟩]

theorem countsAgree_throughout_unlink :
    Run.Throughout step CountsAgree (initial 1024) exampleUnlink := by
  refine (countsAgree_throughout_iff 1024 exampleUnlink ?_).mpr ?_
  · exact ⟨trivial, trivial, ⟨by decide, rfl⟩, trivial⟩
  · refine ⟨trivial, fun _ dirID hOther => ?_, trivial, trivial⟩
    have hDirs : ((initial 1024).step (.openFile 1 exampleOutcomes
        (exampleFile "dir"))).store.dirStore.dirs.elems.map Prod.fst = ["dir"] := by decide
    have hNone : ((initial 1024).step (.openFile 1 exampleOutcomes
        (exampleFile "dir"))).store.dirStore.find dirID = none := by
      refine OrderedMap.find_eq_none.mpr fun dirRefer hIn => hOther ?_
      have hKey := List.mem_map_of_mem (f := Prod.fst) hIn
      rw [hDirs] at hKey
      exact List.mem_singleton.mp hKey
    show (fileStoreOf _ dirID).find "file" = none
    rw [fileStoreOf, hNone]
    rfl

/-- An inode that is open through its directory is referenced by its ID alone, without a parent,
and moved to the global store. -/
theorem not_countsAgree_throughout :
    ¬ ∀ (tuneDirMetadataCacheLimit : Nat) (ops : List StoreOp),
      Run.EveryStep step Admitted (initial tuneDirMetadataCacheLimit) ops →
      Run.Throughout step CountsAgree (initial tuneDirMetadataCacheLimit) ops := by
  intro h
  have hRun := h 1024 [.openFile 1 exampleOutcomes (exampleFile "dir"),
    .referenceFile 1 exampleOutcomes (exampleFile ""),
    .moveReferenceToMetaFileStoreUnlocked exampleOutcomes "dir" "file"]
    ⟨trivial, trivial, trivial, trivial⟩
  have hBoth := ((Run.throughout_iff step).mp hRun 3).notInBoth "file" ""
  revert hBoth
  decide

end SharedMetaStore

end Fhgfs.Storage
