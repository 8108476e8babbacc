import Fhgfs.Storage.DirEntry
import Fhgfs.Storage.InodeDirStore

/-!
# Renaming an entry in its directory

`performRenameEntryInSameDir` takes a reference to the inode of the renamed file, from the
global file store or from the one of the directory, and is to give it back on all its ways out.
The ways over `goto out` do not: a rename to an entry of the same inode, and a refused
overwrite. `performRenameEntryInSameDir_neutral_iff` has the exact condition for the reference
counts to be the same afterwards.
-/

namespace Fhgfs.Storage

open InodeFileStore

/-- The outcomes of the underlying steps of a rename: whether the directory inode can be loaded,
the address of the file inode that is read from disk, if it can be read, and whether `rename(2)`
succeeds. -/
structure RenameOutcomes where
  loadFromFile : Bool
  createFromEntryInfo : Option Nat
  rename : Bool
deriving DecidableEq

/-- What a rename in a directory works on: the global file store, the directory, and its dentries
on disk. -/
structure RenameState where
  fileStore : InodeFileStore
  dir : DirInode
  entries : DentryMap
deriving DecidableEq

structure RenameReply where
  state : RenameState
  overwrittenEntry : Option DirEntry
  result : FhgfsOpsErr
deriving DecidableEq

namespace RenameState

/-- `MetaStore::referenceFileUnlocked` with a known directory: the global store first, then the
store of the directory, which also loads from disk. -/
def referenceFileUnlocked (posixTID : Int) (o : RenameOutcomes) (entryInfo : EntryInfo)
    (s : RenameState) : RenameState × Option FileInode :=
  let fromGlobal := s.fileStore.referenceFileInode posixTID o.createFromEntryInfo entryInfo false
  match fromGlobal.2 with
  | some inode => ({ s with fileStore := fromGlobal.1 }, some inode)
  | none =>
    let fromDir :=
      s.dir.fileStore.referenceFileInode posixTID o.createFromEntryInfo entryInfo true
    ({ s with fileStore := fromGlobal.1, dir := { s.dir with fileStore := fromDir.1 } }, fromDir.2)

/-- `MetaStore::releaseFileUnlocked` with a known directory. -/
def releaseFileUnlocked (inode : FileInode) (s : RenameState) : RenameState :=
  let fromGlobal := s.fileStore.releaseFileInode inode
  if fromGlobal.2 then { s with fileStore := fromGlobal.1 }
  else
    { s with
      fileStore := fromGlobal.1
      dir := { s.dir with fileStore := (s.dir.fileStore.releaseFileInode inode).1 } }

variable (o : RenameOutcomes)

variable (fromName toName : String)

def renameDirEntryUnlocked (s : RenameState) : RenameState × FhgfsOpsErr :=
  match o.rename, s.entries.find fromName with
  | true, some fromFile =>
    ({ s with entries := (s.entries.remove fromName).put toName fromFile }, .SUCCESS)
  | _, _ => (s, .INTERNAL)

/-- The rename itself, and the release of the reference. -/
def renameAndRelease
    (fromFileInode : Option FileInode) (overWriteEntry : Option DirEntry) (s : RenameState) :
    RenameReply :=
  let renamed := s.renameDirEntryUnlocked o fromName toName
  { state := match fromFileInode with
      | some inode => renamed.1.releaseFileUnlocked inode
      | none => renamed.1
    overwrittenEntry := if renamed.2 = .SUCCESS then overWriteEntry else none
    result := renamed.2 }

/-- The part after the inode was referenced: check the entry that would be overwritten. -/
def overwriteAndRename (fromEntry : DirEntry)
    (fromFileInode : Option FileInode) (s : RenameState) : RenameReply :=
  match s.entries.dirEntryCreateFromFile toName with
  | none => s.renameAndRelease o fromName toName fromFileInode none
  | some overWriteEntry =>
    let check := checkRenameOverwrite (fromEntry.getEntryInfo s.dir.id 0)
      (overWriteEntry.getEntryInfo s.dir.id 0)
    -- both of these are a `goto out`, past the release
    if check.2 then ⟨s, none, check.1⟩
    else if check.1 ≠ .SUCCESS then ⟨s, none, check.1⟩
    else s.renameAndRelease o fromName toName fromFileInode (some overWriteEntry)

def performRenameEntryInSameDir (posixTID : Int) (o : RenameOutcomes) (fromName toName : String)
    (s : RenameState) : RenameReply :=
  if !(s.dir.isLoaded || o.loadFromFile) then ⟨s, none, .PATHNOTEXISTS⟩
  else
    let s := { s with dir := { s.dir with isLoaded := true } }
    match s.entries.dirEntryCreateFromFile fromName with
    | none => ⟨s, none, .PATHNOTEXISTS⟩
    | some fromEntry =>
      let fromEntryInfo := fromEntry.getEntryInfo s.dir.id 0
      if fromEntryInfo.entryType.isDir then
        s.overwriteAndRename o fromName toName fromEntry none
      else
        let referenced := s.referenceFileUnlocked posixTID o fromEntryInfo
        match referenced.2 with
        | none => ⟨referenced.1, none, .PATHNOTEXISTS⟩
        | some fromFileInode =>
          referenced.1.overwriteAndRename o fromName toName fromEntry (some fromFileInode)

end RenameState

/-! ## Reference counts -/

/-- No reference count of a file inode has changed. -/
def Neutral (s s' : RenameState) : Prop :=
  ∀ fileID, s'.fileStore.refCount fileID = s.fileStore.refCount fileID ∧
    s'.dir.fileStore.refCount fileID = s.dir.fileStore.refCount fileID

/-- The inode of the entry can be referenced: it is in the global store, or else in the store of
the directory or on disk, and no other thread has locked it there. -/
def Referencable (posixTID : Int) (o : RenameOutcomes) (s : RenameState) (fileID : String) : Prop :=
  (∃ r, s.fileStore.find fileID = some r ∧ r.referencedObject.unlockedFor posixTID = true) ∨
  ∃ r, s.dir.fileStore.lookupOrLoad o.createFromEntryInfo true fileID = some r ∧
    r.referencedObject.unlockedFor posixTID = true

/-- The inode is in the global store, but locked by another thread there. -/
def LockedInGlobalStore (posixTID : Int) (s : RenameState) (fileID : String) : Prop :=
  ∃ r, s.fileStore.find fileID = some r ∧ r.referencedObject.unlockedFor posixTID = false

/-- The rename takes a reference that it does not give back: the directory can be loaded, the
entry is a file and its inode can be referenced, and then the entry to be overwritten has the
same inode or is a directory, or the release finds another inode of the same ID in the global
store. -/
def LeaksReference (posixTID : Int) (o : RenameOutcomes) (fromName toName : String)
    (s : RenameState) : Prop :=
  (s.dir.isLoaded || o.loadFromFile) = true ∧
  ∃ fromEntry, s.entries.dirEntryCreateFromFile fromName = some fromEntry ∧
    fromEntry.entryType.isDir = false ∧ Referencable posixTID o s fromEntry.entryID ∧
    ((∃ overWriteEntry, s.entries.dirEntryCreateFromFile toName = some overWriteEntry ∧
        (overWriteEntry.entryID = fromEntry.entryID ∨ overWriteEntry.entryType = .DIRECTORY)) ∨
      LockedInGlobalStore posixTID s fromEntry.entryID)

/-- The reference counts of one entry ID have changed by `g` in the global store and by `d` in
the store of the directory, and no others have. -/
def Shifted (fileID : String) (g d : Int) (s s' : RenameState) : Prop :=
  ∀ k, s'.fileStore.refCount k = s.fileStore.refCount k + (if k = fileID then g else 0) ∧
    s'.dir.fileStore.refCount k = s.dir.fileStore.refCount k + if k = fileID then d else 0

namespace Shifted

variable {fileID : String} {g d g' d' : Int} {s s' s'' : RenameState}

theorem of_same (hGlobal : s'.fileStore = s.fileStore)
    (hDir : s'.dir.fileStore = s.dir.fileStore) : Shifted fileID 0 0 s s' := by
  intro k
  simp [hGlobal, hDir]

theorem trans (h : Shifted fileID g d s s') (h' : Shifted fileID g' d' s' s'') :
    Shifted fileID (g + g') (d + d') s s'' := by
  intro k
  obtain ⟨hGlobal, hDir⟩ := h k
  obtain ⟨hGlobal', hDir'⟩ := h' k
  rw [hGlobal', hGlobal, hDir', hDir]
  split <;> omega

theorem neutral_iff (h : Shifted fileID g d s s') : Neutral s s' ↔ g = 0 ∧ d = 0 := by
  constructor
  · intro hNeutral
    obtain ⟨hGlobal, hDir⟩ := h fileID
    obtain ⟨hSame, hSame'⟩ := hNeutral fileID
    rw [if_pos rfl] at hGlobal hDir
    omega
  · rintro ⟨rfl, rfl⟩ k
    obtain ⟨hGlobal, hDir⟩ := h k
    rw [ite_self] at hGlobal hDir
    omega

end Shifted

section Steps

variable {posixTID : Int} {o : RenameOutcomes} {fromName toName fileID : String}
  {s : RenameState}

/-- The ways in which the reference of a rename ends: in the global store, in the store of the
directory, next to a locked inode of the same ID in the global store or not, or without a
reference. -/
inductive FileReferenced (posixTID : Int) (o : RenameOutcomes) (fileID : String)
    (s : RenameState) : RenameState × Option FileInode → Prop
  | fromGlobal {s' : RenameState} {inode : FileInode} (hID : inode.entryID = fileID)
      (hReferencable : Referencable posixTID o s fileID)
      (hUnlocked : ¬ LockedInGlobalStore posixTID s fileID) (hShift : Shifted fileID 1 0 s s')
      (hIn : s'.fileStore.isInStore fileID = true) (hEntries : s'.entries = s.entries) :
      FileReferenced posixTID o fileID s (s', some inode)
  | fromDir {s' : RenameState} {inode : FileInode} (hID : inode.entryID = fileID)
      (hReferencable : Referencable posixTID o s fileID) (hShift : Shifted fileID 0 1 s s')
      (hGlobal : s'.fileStore.isInStore fileID = true ↔ LockedInGlobalStore posixTID s fileID)
      (hIn : s'.dir.fileStore.isInStore fileID = true) (hEntries : s'.entries = s.entries) :
      FileReferenced posixTID o fileID s (s', some inode)
  | failure {s' : RenameState} (hNot : ¬ Referencable posixTID o s fileID)
      (hShift : Shifted fileID 0 0 s s') : FileReferenced posixTID o fileID s (s', none)

theorem referenceFileUnlocked_referenced (posixTID : Int) (o : RenameOutcomes)
    (entryInfo : EntryInfo) (s : RenameState) :
    FileReferenced posixTID o entryInfo.entryID s
      (s.referenceFileUnlocked posixTID o entryInfo) := by
  have hGlobal := s.fileStore.referenceFileInode_referenced posixTID o.createFromEntryInfo
    entryInfo false
  have hDir := s.dir.fileStore.referenceFileInode_referenced posixTID o.createFromEntryInfo
    entryInfo true
  unfold RenameState.referenceFileUnlocked
  generalize s.fileStore.referenceFileInode posixTID o.createFromEntryInfo entryInfo false =
    fromGlobal at hGlobal ⊢
  generalize s.dir.fileStore.referenceFileInode posixTID o.createFromEntryInfo entryInfo true =
    fromDir at hDir ⊢
  cases hGlobal with
  | success hLookup hUnlocked hFind =>
    have hCount := refCount_reference hLookup hFind
    have hID := entryID_of_lookupOrLoad hLookup
    rw [lookupOrLoad_false] at hLookup
    refine .fromGlobal hID (Or.inl ⟨_, hLookup, hUnlocked⟩) ?_ ?_ ?_ rfl
    · rintro ⟨r, hr, hLocked⟩
      rw [hLookup] at hr
      rw [← Option.some.inj hr, hUnlocked] at hLocked
      cases hLocked
    · intro k
      simp [hCount k]
    · exact isInStore_of_find ((hFind _).trans (if_pos rfl))
  | failure hLocked =>
    simp only [lookupOrLoad_false] at hLocked
    cases hDir with
    | success hLookup hUnlocked hFind =>
      have hCount := refCount_reference hLookup hFind
      refine .fromDir (entryID_of_lookupOrLoad hLookup) (Or.inr ⟨_, hLookup, hUnlocked⟩) ?_ ?_
        ?_ rfl
      · intro k
        simp [hCount k]
      · constructor
        · intro hIn
          obtain ⟨r, hr⟩ := Option.isSome_iff_exists.mp hIn
          exact ⟨r, hr, hLocked r hr⟩
        · rintro ⟨r, hr, -⟩
          exact isInStore_of_find hr
      · exact isInStore_of_find ((hFind _).trans (if_pos rfl))
    | failure hLockedDir =>
      refine .failure ?_ (Shifted.of_same rfl rfl)
      rintro (⟨r, hr, hUnlocked⟩ | ⟨r, hr, hUnlocked⟩)
      · rw [hLocked r hr] at hUnlocked
        cases hUnlocked
      · rw [hLockedDir r hr] at hUnlocked
        cases hUnlocked

variable {inode : FileInode}

theorem releaseFileUnlocked_global (h : s.fileStore.isInStore inode.entryID = true) :
    Shifted inode.entryID (-1) 0 s (s.releaseFileUnlocked inode) := by
  intro k
  have hCount := refCount_releaseFileInode h k
  unfold RenameState.releaseFileUnlocked
  simp only [releaseFileInode_found, h, if_true, hCount]
  split <;> omega

theorem releaseFileUnlocked_dir (h : s.fileStore.isInStore inode.entryID = false)
    (hDir : s.dir.fileStore.isInStore inode.entryID = true) :
    Shifted inode.entryID 0 (-1) s (s.releaseFileUnlocked inode) := by
  intro k
  have hCount := refCount_releaseFileInode hDir k
  unfold RenameState.releaseFileUnlocked
  rw [releaseFileInode_of_not_inStore h]
  simp only [Bool.false_eq_true, if_false, hCount]
  split <;> omega

theorem renameDirEntryUnlocked_stores (o : RenameOutcomes) (fromName toName : String)
    (s : RenameState) :
    (s.renameDirEntryUnlocked o fromName toName).1.fileStore = s.fileStore ∧
    (s.renameDirEntryUnlocked o fromName toName).1.dir = s.dir := by
  unfold RenameState.renameDirEntryUnlocked
  split <;> exact ⟨rfl, rfl⟩

/-- The entry to be overwritten stops the rename: it has the same inode, it is a directory, or a
directory is renamed. -/
def Refused (toName : String) (s : RenameState) (fromEntry : DirEntry) : Prop :=
  ∃ overWriteEntry, s.entries.dirEntryCreateFromFile toName = some overWriteEntry ∧
    (overWriteEntry.entryID = fromEntry.entryID ∨ overWriteEntry.entryType = .DIRECTORY ∨
      fromEntry.entryType = .DIRECTORY)

variable {fromEntry : DirEntry}

theorem overwriteAndRename_refused {fromFileInode : Option FileInode}
    (h : Refused toName s fromEntry) :
    (s.overwriteAndRename o fromName toName fromEntry fromFileInode).state = s := by
  obtain ⟨overWriteEntry, hEntry, hRefused⟩ := h
  have hCheck := (checkRenameOverwrite_refuses (fromEntry.getEntryInfo s.dir.id 0)
    (overWriteEntry.getEntryInfo s.dir.id 0)).mpr hRefused
  unfold RenameState.overwriteAndRename
  rw [hEntry]
  simp only
  split
  · rfl
  · rename_i hOther
    rw [if_pos (hCheck.resolve_left hOther)]

theorem overwriteAndRename_renamed (o : RenameOutcomes) (fromName : String)
    (fromFileInode : Option FileInode) (h : ¬ Refused toName s fromEntry) :
    ∃ overWriteEntry, s.overwriteAndRename o fromName toName fromEntry fromFileInode =
      s.renameAndRelease o fromName toName fromFileInode overWriteEntry := by
  unfold RenameState.overwriteAndRename
  cases hEntry : s.entries.dirEntryCreateFromFile toName with
  | none => exact ⟨none, rfl⟩
  | some overWriteEntry =>
    refine ⟨some overWriteEntry, ?_⟩
    have hCheck := mt (checkRenameOverwrite_refuses (fromEntry.getEntryInfo s.dir.id 0)
      (overWriteEntry.getEntryInfo s.dir.id 0)).mp
      (fun hRefused => h ⟨overWriteEntry, hEntry, hRefused⟩)
    rw [not_or] at hCheck
    simp only
    rw [if_neg hCheck.1, if_neg hCheck.2]

theorem overwriteAndRename_dir (fileID : String) (o : RenameOutcomes)
    (fromName toName : String) (fromEntry : DirEntry) (s : RenameState) :
    Shifted fileID 0 0 s (s.overwriteAndRename o fromName toName fromEntry none).state := by
  by_cases hRefused : Refused toName s fromEntry
  · rw [overwriteAndRename_refused hRefused]
    exact Shifted.of_same rfl rfl
  obtain ⟨overWriteEntry, hRename⟩ := overwriteAndRename_renamed o fromName none hRefused
  obtain ⟨hFileStore, hDir⟩ := renameDirEntryUnlocked_stores o fromName toName s
  rw [hRename]
  refine Shifted.of_same hFileStore ?_
  show (s.renameDirEntryUnlocked o fromName toName).1.dir.fileStore = _
  rw [hDir]

section

variable (o : RenameOutcomes) (fromName : String) (hAllowed : ¬ Refused toName s fromEntry)
include hAllowed

/-- A rename that is not refused gives the reference back at its end. -/
theorem overwriteAndRename_releases (inode : FileInode) :
    ∃ s', (s.overwriteAndRename o fromName toName fromEntry (some inode)).state =
        s'.releaseFileUnlocked inode ∧
      Shifted inode.entryID 0 0 s s' ∧ s'.fileStore = s.fileStore ∧ s'.dir = s.dir := by
  obtain ⟨overWriteEntry, hRename⟩ := overwriteAndRename_renamed o fromName (some inode) hAllowed
  obtain ⟨hFileStore, hDir⟩ := renameDirEntryUnlocked_stores o fromName toName s
  rw [hRename]
  exact ⟨_, rfl, Shifted.of_same hFileStore (congrArg _ hDir), hFileStore, hDir⟩

/-- The reference goes back to the global store if that has the ID. -/
theorem overwriteAndRename_global (hIn : s.fileStore.isInStore inode.entryID = true) :
    Shifted inode.entryID (-1) 0 s
      (s.overwriteAndRename o fromName toName fromEntry (some inode)).state := by
  obtain ⟨s', hState, hSame, hFileStore, -⟩ := overwriteAndRename_releases o fromName hAllowed inode
  rw [hState]
  have hRelease := releaseFileUnlocked_global (hFileStore ▸ hIn)
  simpa using hSame.trans hRelease

theorem overwriteAndRename_fromDir (hGlobal : s.fileStore.isInStore inode.entryID = false)
    (hIn : s.dir.fileStore.isInStore inode.entryID = true) :
    Shifted inode.entryID 0 (-1) s
      (s.overwriteAndRename o fromName toName fromEntry (some inode)).state := by
  obtain ⟨s', hState, hSame, hFileStore, hDir⟩ :=
    overwriteAndRename_releases o fromName hAllowed inode
  rw [hState]
  have hRelease := releaseFileUnlocked_dir (hFileStore ▸ hGlobal) (hDir ▸ hIn)
  simpa using hSame.trans hRelease

end

end Steps

theorem refused_file_iff {toName : String} {s : RenameState} {fromEntry : DirEntry}
    (hFile : fromEntry.entryType.isDir = false) :
    Refused toName s fromEntry ↔ ∃ overWriteEntry,
      s.entries.dirEntryCreateFromFile toName = some overWriteEntry ∧
      (overWriteEntry.entryID = fromEntry.entryID ∨ overWriteEntry.entryType = .DIRECTORY) := by
  have hNot : fromEntry.entryType ≠ .DIRECTORY := by
    intro hDir
    rw [hDir] at hFile
    cases hFile
  simp only [Refused, hNot, or_false]

/-- A rename of a file whose inode is referenced is neutral if it is not refused and the reference
and the release find the same inode. -/
theorem overwriteAndRename_neutral_iff {posixTID : Int} {o : RenameOutcomes}
    {fromName toName : String} {fromEntry : DirEntry} {s s' : RenameState} {inode : FileInode}
    (h : FileReferenced posixTID o fromEntry.entryID s (s', some inode)) :
    Neutral s (s'.overwriteAndRename o fromName toName fromEntry (some inode)).state ↔
      ¬ (Refused toName s fromEntry ∨ LockedInGlobalStore posixTID s fromEntry.entryID) := by
  have hEntries : s'.entries = s.entries := by
    cases h with
    | fromGlobal _ _ _ _ _ hEntries => exact hEntries
    | fromDir _ _ _ _ _ hEntries => exact hEntries
  have hSameRefusal : Refused toName s' fromEntry ↔ Refused toName s fromEntry := by
    unfold Refused
    rw [hEntries]
  by_cases hRefused : Refused toName s fromEntry
  · rw [overwriteAndRename_refused (hSameRefusal.mpr hRefused)]
    simp only [hRefused, true_or, not_true_eq_false, iff_false]
    cases h with
    | fromGlobal _ _ _ hShift _ _ | fromDir _ _ hShift _ _ _ =>
      rw [hShift.neutral_iff]
      omega
  have hAllowed := mt hSameRefusal.mp hRefused
  simp only [hRefused, false_or]
  cases h with
  | fromGlobal hID _ hUnlocked hShift hIn _ =>
    rw [← hID] at hShift hIn hUnlocked ⊢
    have hBack := hShift.trans
      (overwriteAndRename_global o fromName hAllowed hIn)
    rw [hBack.neutral_iff]
    simp [hUnlocked]
  | fromDir hID _ hShift hGlobal hIn _ =>
    rw [← hID] at hShift hIn hGlobal ⊢
    by_cases hLocked : LockedInGlobalStore posixTID s inode.entryID
    · have hBack := hShift.trans
        (overwriteAndRename_global o fromName hAllowed (hGlobal.mpr hLocked))
      rw [hBack.neutral_iff]
      simp [hLocked]
    have hNotIn := eq_false_of_ne_true (mt hGlobal.mp hLocked)
    have hBack := hShift.trans
      (overwriteAndRename_fromDir o fromName hAllowed hNotIn hIn)
    rw [hBack.neutral_iff]
    simp [hLocked]

/-- The exact condition for a rename to leave all reference counts as they were. -/
theorem performRenameEntryInSameDir_neutral_iff (posixTID : Int) (o : RenameOutcomes)
    (fromName toName : String) (s : RenameState) :
    Neutral s (s.performRenameEntryInSameDir posixTID o fromName toName).state ↔
      ¬ LeaksReference posixTID o fromName toName s := by
  have hRefl : Neutral s s := fun _ => ⟨rfl, rfl⟩
  unfold RenameState.performRenameEntryInSameDir LeaksReference
  by_cases hLoad : (s.dir.isLoaded || o.loadFromFile) = true
  · simp only [hLoad, Bool.not_true, Bool.false_eq_true, if_false, true_and]
    -- loading the directory changes no lookup in a store
    generalize hLoaded : { s with dir := { s.dir with isLoaded := true } } = loaded
    have hNeutral : ∀ s', Neutral s s' ↔ Neutral loaded s' := by
      intro s'
      rw [← hLoaded]
      rfl
    have hEntries : s.entries = loaded.entries := by rw [← hLoaded]
    have hReferencable : ∀ fileID,
        Referencable posixTID o s fileID ↔ Referencable posixTID o loaded fileID := by
      intro fileID
      rw [← hLoaded]
      rfl
    have hLocked : ∀ fileID,
        LockedInGlobalStore posixTID s fileID ↔ LockedInGlobalStore posixTID loaded fileID := by
      intro fileID
      rw [← hLoaded]
      rfl
    simp only [hNeutral, hEntries, hReferencable, hLocked]
    cases hFrom : loaded.entries.dirEntryCreateFromFile fromName with
    | none =>
      simp only [reduceCtorEq, false_and, exists_false, not_false_eq_true, iff_true]
      exact fun _ => ⟨rfl, rfl⟩
    | some fromEntry =>
      simp only [Option.some.injEq, exists_eq_left']
      cases hDir : fromEntry.entryType.isDir with
      | true =>
        have hDirInfo : (fromEntry.getEntryInfo s.dir.id 0).entryType.isDir = true := hDir
        have hSame := overwriteAndRename_dir "" o fromName toName fromEntry loaded
        rw [if_pos hDirInfo]
        simpa using hSame.neutral_iff.mpr ⟨rfl, rfl⟩
      | false =>
        have hFileInfo : ¬ (fromEntry.getEntryInfo s.dir.id 0).entryType.isDir = true := by
          rw [DirEntry.entryType_getEntryInfo, hDir]
          exact Bool.false_ne_true
        have hRef := referenceFileUnlocked_referenced posixTID o
          (fromEntry.getEntryInfo s.dir.id 0) loaded
        rw [if_neg hFileInfo, ← refused_file_iff hDir, eq_self, true_and]
        rw [DirEntry.entryID_getEntryInfo] at hRef
        generalize loaded.referenceFileUnlocked posixTID o
          (fromEntry.getEntryInfo s.dir.id 0) = referenced at hRef ⊢
        obtain ⟨s', fromFileInode⟩ := referenced
        cases fromFileInode with
        | none =>
          cases hRef with
          | failure hNot hShift =>
            simp only [hNot, false_and, not_false_eq_true, iff_true]
            exact hShift.neutral_iff.mpr ⟨rfl, rfl⟩
        | some inode =>
          have hCan : Referencable posixTID o loaded fromEntry.entryID := by
            cases hRef with
            | fromGlobal _ hCan _ _ _ _ => exact hCan
            | fromDir _ hCan _ _ _ _ => exact hCan
          simpa only [hCan, true_and] using overwriteAndRename_neutral_iff hRef
  · have hLoad := eq_false_of_ne_true hLoad
    simp only [hLoad, Bool.not_false, if_true, Bool.false_eq_true, false_and, not_false_eq_true,
      iff_true]
    exact hRefl

/-- Renaming a file to its own name keeps the reference to its inode. -/
theorem not_performRenameEntryInSameDir_neutral :
    ¬ ∀ (posixTID : Int) (o : RenameOutcomes) (fromName toName : String) (s : RenameState),
      Neutral s (s.performRenameEntryInSameDir posixTID o fromName toName).state := by
  intro h
  have hSame := (h 1 ⟨true, some 100, true⟩ "file" "file"
    ⟨.empty, ⟨"dir", true, false, .empty⟩,
      OrderedSet.empty.insert ("file", ⟨⟨"entry", .REGULARFILE, 1, 1⟩, []⟩)⟩ "entry").2
  revert hSame
  decide

end Fhgfs.Storage
