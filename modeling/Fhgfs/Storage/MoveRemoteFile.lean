import Fhgfs.Metadata.DiskMetaData

/-!
# Inserting a file that was moved from another server

`moveRemoteFileInsert` is the target side of a rename between servers. It unlinks the name of an
entry that is overwritten before it deserializes the received inode and stores the new dentry,
and has no way back when one of these fails. `moveRemoteFileInsert_intact_iff` has the exact
condition for a failed call to leave all names as they were.
-/

namespace Fhgfs.Storage

open Metadata OrderedMap

/-- The errors of system calls that the store tells apart. -/
inductive SysErr
  | ENOENT
  | EEXIST
  | EMFILE
  | EIO
deriving DecidableEq

/-- The outcomes of the store steps. A system call with `none` does what the state of the
directory makes it do, and one with an error fails without an effect. -/
structure InsertOutcomes where
  referenceDir : Bool
  readDentry : Bool
  unlinkName : Option SysErr
  createID : Option SysErr
  writeID : Bool
  linkName : Option SysErr
  unlinkID : Bool
  readNewDentry : Bool
deriving DecidableEq

/-- A dentry directory on disk: the dentries by name, and the IDs with a dentry-by-ID file. -/
structure DentryDir where
  entries : DentryMap
  ids : OrderedSet (id : String → String)
deriving DecidableEq

/-- What is used of a deserialized inode. -/
structure RemoteInode where
  entryID : String
  inodeData : List UInt8
deriving DecidableEq

/-- The deserializers of the dentry formats, which follow an 8-byte header. -/
structure DentryFormats where
  deserializeDentryV3 : (Nat → UInt8) → Option RemoteInode
  deserializeDentryV4 : (Nat → UInt8) → Option RemoteInode
  deserializeDentryV5 : (Nat → UInt8) → Option RemoteInode

/-- `FileInode::deserializeMetaData` by way of `DiskMetaData::deserializeDentry`. The buffer is the
memory from its start on, since its length is not checked. -/
def DentryFormats.deserializeMetaData (formats : DentryFormats) (buf : Nat → UInt8) :
    Option RemoteInode :=
  let formatVersion := buf 1
  let dentryFeatureFlags := (buf 2).toUInt32 ||| (buf 3).toUInt32 <<< 8
  let body := fun i => buf (8 + i)
  if !checkFeatureFlagsCompat dentryFeatureFlags getSupportedDentryFeatureFlags then none
  else if formatVersion = DIRENTRY_STORAGE_FORMAT_VER3 then formats.deserializeDentryV3 body
  else if formatVersion = DIRENTRY_STORAGE_FORMAT_VER4 then formats.deserializeDentryV4 body
  else if formatVersion = DIRENTRY_STORAGE_FORMAT_VER5 then formats.deserializeDentryV5 body
  else none

structure InsertReply where
  dir : DentryDir
  newFileInfo : Option EntryInfo
  result : FhgfsOpsErr
deriving DecidableEq

namespace DentryDir

def unlinkID (o : InsertOutcomes) (entryID : String) (dir : DentryDir) : DentryDir :=
  if o.unlinkID then { dir with ids := dir.ids.erase entryID } else dir

variable (o : InsertOutcomes)

variable (entryName : String)

/-- `DirEntry::removeDirEntryName` for the name of an entry. -/
def removeDirEntryName (dir : DentryDir) : DentryDir × FhgfsOpsErr :=
  match o.unlinkName, dir.entries.find entryName with
  | some .ENOENT, _ => (dir, .PATHNOTEXISTS)
  | some _, _ => (dir, .INTERNAL)
  | none, none => (dir, .PATHNOTEXISTS)
  | none, some _ => ({ dir with entries := dir.entries.remove entryName }, .SUCCESS)

def storeInitialDirEntryID (entryID : String) (dir : DentryDir) : DentryDir × FhgfsOpsErr :=
  match o.createID, dir.ids.contains entryID with
  | some .EMFILE, _ => (dir.unlinkID o entryID, .INTERNAL)
  | some .EEXIST, _ => (dir, .EXISTS)
  | some _, _ => (dir, .INTERNAL)
  | none, true => (dir, .EXISTS)
  | none, false =>
    let created := { dir with ids := dir.ids.insert entryID }
    if o.writeID then (created, .SUCCESS) else (created.unlinkID o entryID, .INTERNAL)

def storeInitialDirEntryName (file : DentryFile)
    (isDir : Bool) (dir : DentryDir) : DentryDir × FhgfsOpsErr :=
  let entryID := file.dentryDiskData.entryID
  match o.linkName, dir.entries.find entryName with
  | some .EEXIST, _ => (dir.unlinkID o entryID, .EXISTS)
  | some _, _ => (dir.unlinkID o entryID, .INTERNAL)
  | none, some _ => (dir.unlinkID o entryID, .EXISTS)
  | none, none =>
    let linked := { dir with entries := dir.entries.put entryName file }
    (if isDir then linked.unlinkID o entryID else linked, .SUCCESS)

def storeInitialDirEntry (file : DentryFile) (dir : DentryDir) : DentryDir × FhgfsOpsErr :=
  let entryIdRes := dir.storeInitialDirEntryID o file.dentryDiskData.entryID
  if entryIdRes.2 ≠ .SUCCESS then entryIdRes
  else
    entryIdRes.1.storeInitialDirEntryName o entryName file file.dentryDiskData.entryType.isDir

def makeDirEntryUnlocked (file : DentryFile) (dir : DentryDir) : DentryDir × FhgfsOpsErr :=
  let entryType := file.dentryDiskData.entryType
  if !entryType.isFile && !entryType.isDir then (dir, .INTERNAL)
  else dir.storeInitialDirEntry o entryName file

end DentryDir

/-- The dentry with an inlined inode that a server stores for a received inode. -/
def newDentry (localNodeID : UInt16) (entryType : DirEntryType) (inode : RemoteInode) :
    DentryFile :=
  ⟨⟨inode.entryID, entryType, localNodeID,
    DENTRY_FEATURE_INODE_INLINE ||| DENTRY_FEATURE_IS_FILEINODE⟩, inode.inodeData⟩

namespace DentryDir

def mkMetaFileUnlocked (o : InsertOutcomes) (localNodeID : UInt16) (entryName : String)
    (entryType : DirEntryType) (inode : RemoteInode) (dir : DentryDir) : DentryDir × FhgfsOpsErr :=
  dir.makeDirEntryUnlocked o entryName (newDentry localNodeID entryType inode)

/-- The second component tells whether the entry is a file. -/
def getFileEntryInfo (readDentry : Bool) (parentEntryID entryName : String) (dir : DentryDir) :
    Option EntryInfo × Bool :=
  match readDentry, dir.entries.dirEntryCreateFromFile entryName with
  | true, some entry =>
    let entryInfo := entry.getEntryInfo parentEntryID 0
    (some entryInfo, entryInfo.entryType.isFile)
  | _, _ => (none, false)

/-- The part after an existing entry was unlinked. -/
def insertRemoteInode (o : InsertOutcomes) (localNodeID : UInt16) (fromFileInfo : EntryInfo)
    (toParentID newEntryName : String) (inode : Option RemoteInode) (dir : DentryDir) :
    InsertReply :=
  match inode with
  | none => ⟨dir, none, .INTERNAL⟩
  | some inode =>
    let made := dir.mkMetaFileUnlocked o localNodeID newEntryName fromFileInfo.entryType inode
    if made.2 = .SUCCESS then
      let newFileInfo := made.1.getFileEntryInfo o.readNewDentry toParentID newEntryName
      ⟨made.1, newFileInfo.1, if newFileInfo.2 then .SUCCESS else .INTERNAL⟩
    else ⟨made.1, none, made.2⟩

/-- After a success the inode of an overwritten entry is removed, too. This has no influence on the
names and the result. -/
def moveRemoteFileInsert (formats : DentryFormats) (o : InsertOutcomes) (localNodeID : UInt16)
    (fromFileInfo : EntryInfo) (toParentID newEntryName : String) (buf : Nat → UInt8)
    (dir : DentryDir) : InsertReply :=
  if !o.referenceDir then ⟨dir, none, .PATHNOTEXISTS⟩
  else
    let insert := insertRemoteInode o localNodeID fromFileInfo toParentID newEntryName
      (formats.deserializeMetaData buf)
    match o.readDentry, dir.entries.dirEntryCreateFromFile newEntryName with
    | true, some overWrittenEntry =>
      let check := checkRenameOverwrite fromFileInfo
        (overWrittenEntry.getEntryInfo overWrittenEntry.entryID 0)
      if check.1 ≠ .SUCCESS ∨ check.2 = true then ⟨dir, none, check.1⟩
      else
        let unlinked := dir.removeDirEntryName o newEntryName
        if unlinked.2 ≠ .SUCCESS ∧ unlinked.2 ≠ .PATHNOTEXISTS then
          ⟨unlinked.1, none, unlinked.2⟩
        else insert unlinked.1
    | _, _ => insert dir

/-! ## The names afterwards -/

/-- A failed call has left all names as they were. -/
def Intact (dir : DentryDir) (reply : InsertReply) : Prop :=
  reply.result ≠ .SUCCESS → ∀ k, reply.dir.entries.find k = dir.entries.find k

/-- The name of an existing entry is unlinked: the entry can be read, it may be overwritten, and
`unlink(2)` does not fail. -/
def UnlinksName (o : InsertOutcomes) (fromFileInfo : EntryInfo) (newEntryName : String)
    (dir : DentryDir) : Prop :=
  o.readDentry = true ∧ o.unlinkName = none ∧
    ∃ file, dir.entries.find newEntryName = some file ∧
      file.dentryDiskData.entryID ≠ fromFileInfo.entryID ∧
      file.dentryDiskData.entryType ≠ .DIRECTORY ∧ fromFileInfo.entryType ≠ .DIRECTORY

/-- The steps that store a dentry work, if its name is free: its type is valid, the dentry-by-ID
file can be created and written, and the name can be linked to it. -/
def StoresDentry (o : InsertOutcomes) (file : DentryFile) (dir : DentryDir) : Prop :=
  (file.dentryDiskData.entryType.isFile || file.dentryDiskData.entryType.isDir) = true ∧
    o.createID = none ∧ file.dentryDiskData.entryID ∉ dir.ids ∧ o.writeID = true ∧
    o.linkName = none

/-- A failed call changes a name. Either an existing entry is unlinked, and then the buffer cannot
be deserialized or the new dentry cannot be stored, or the new dentry is stored, in the place of
another one or none, but cannot be read again as the dentry of a file. -/
def LosesEntry (formats : DentryFormats) (o : InsertOutcomes) (localNodeID : UInt16)
    (fromFileInfo : EntryInfo) (newEntryName : String) (buf : Nat → UInt8) (dir : DentryDir) :
    Prop :=
  o.referenceDir = true ∧
    ((UnlinksName o fromFileInfo newEntryName dir ∧
        ∀ inode, formats.deserializeMetaData buf = some inode →
          ¬ StoresDentry o (newDentry localNodeID fromFileInfo.entryType inode) dir) ∨
      ∃ inode, formats.deserializeMetaData buf = some inode ∧
        StoresDentry o (newDentry localNodeID fromFileInfo.entryType inode) dir ∧
        (dir.entries.find newEntryName = none ∨ UnlinksName o fromFileInfo newEntryName dir) ∧
        ¬ (o.readNewDentry = true ∧ fromFileInfo.entryType.isFile = true) ∧
        dir.entries.find newEntryName ≠
          some (newDentry localNodeID fromFileInfo.entryType inode))

section Names

section

variable (o : InsertOutcomes)

section

variable (entryID : String) (dir : DentryDir)

@[simp] theorem entries_unlinkID : (dir.unlinkID o entryID).entries = dir.entries := by
  unfold unlinkID
  split <;> rfl

theorem storeInitialDirEntryID_spec :
    (dir.storeInitialDirEntryID o entryID).1.entries = dir.entries ∧
      ((dir.storeInitialDirEntryID o entryID).2 = .SUCCESS ↔
        o.createID = none ∧ entryID ∉ dir.ids ∧ o.writeID = true) := by
  have hContains : dir.ids.contains entryID = true ↔ entryID ∈ dir.ids := by simp
  unfold storeInitialDirEntryID
  cases hCreate : o.createID with
  | some e => cases e <;> simp
  | none =>
    cases hIn : dir.ids.contains entryID with
    | true => simp [hContains.mp hIn]
    | false =>
      have hFree : entryID ∉ dir.ids := by
        rw [← hContains, hIn]
        exact Bool.false_ne_true
      cases hWrite : o.writeID <;> simp [hFree]

end

section

variable (entryName : String) (file : DentryFile)

theorem storeInitialDirEntryName_spec (isDir : Bool) (dir : DentryDir) :
    ((dir.storeInitialDirEntryName o entryName file isDir).2 = .SUCCESS ↔
      o.linkName = none ∧ dir.entries.find entryName = none) ∧
    (dir.storeInitialDirEntryName o entryName file isDir).1.entries =
      if (dir.storeInitialDirEntryName o entryName file isDir).2 = .SUCCESS then
        dir.entries.put entryName file else dir.entries := by
  unfold storeInitialDirEntryName
  cases hLink : o.linkName with
  | some e => cases e <;> simp
  | none =>
    cases hFind : dir.entries.find entryName with
    | some old => simp
    | none => cases isDir <;> simp

theorem makeDirEntryUnlocked_spec (dir : DentryDir) :
    ((dir.makeDirEntryUnlocked o entryName file).2 = .SUCCESS ↔
      StoresDentry o file dir ∧ dir.entries.find entryName = none) ∧
    (dir.makeDirEntryUnlocked o entryName file).1.entries =
      if (dir.makeDirEntryUnlocked o entryName file).2 = .SUCCESS then
        dir.entries.put entryName file else dir.entries := by
  obtain ⟨hSameID, hStoredID⟩ := storeInitialDirEntryID_spec o file.dentryDiskData.entryID dir
  obtain ⟨hStoredName, hNames⟩ := storeInitialDirEntryName_spec o entryName file
    file.dentryDiskData.entryType.isDir (dir.storeInitialDirEntryID o file.dentryDiskData.entryID).1
  unfold makeDirEntryUnlocked storeInitialDirEntry StoresDentry
  simp only
  by_cases hType : (file.dentryDiskData.entryType.isFile ||
      file.dentryDiskData.entryType.isDir) = true
  · have hValid : ¬ (!file.dentryDiskData.entryType.isFile &&
        !file.dentryDiskData.entryType.isDir) = true := by
      rw [← Bool.not_or, hType]
      exact Bool.false_ne_true
    rw [if_neg hValid]
    by_cases hID : (dir.storeInitialDirEntryID o file.dentryDiskData.entryID).2 = .SUCCESS
    · rw [if_neg (not_not.mpr hID)]
      rw [hSameID] at hStoredName hNames
      obtain ⟨hCreate, hFree, hWrite⟩ := hStoredID.mp hID
      refine ⟨hStoredName.trans ?_, hNames⟩
      simp [hType, hCreate, hFree, hWrite]
    · rw [if_pos hID]
      have hNot := mt hStoredID.mpr hID
      simp only [hID, false_iff, hSameID, if_false, and_true]
      rintro ⟨⟨-, hCreate, hFree, hWrite, -⟩, -⟩
      exact hNot ⟨hCreate, hFree, hWrite⟩
  · have hInvalid : (!file.dentryDiskData.entryType.isFile &&
        !file.dentryDiskData.entryType.isDir) = true := by
      rw [← Bool.not_or]
      simpa using hType
    rw [if_pos hInvalid]
    simp [hType]

end

theorem mkMetaFileUnlocked_spec (localNodeID : UInt16) (entryName : String)
    (entryType : DirEntryType) (inode : RemoteInode) (dir : DentryDir) :
    ((dir.mkMetaFileUnlocked o localNodeID entryName entryType inode).2 = .SUCCESS ↔
      StoresDentry o (newDentry localNodeID entryType inode) dir ∧
        dir.entries.find entryName = none) ∧
    (dir.mkMetaFileUnlocked o localNodeID entryName entryType inode).1.entries =
      if (dir.mkMetaFileUnlocked o localNodeID entryName entryType inode).2 = .SUCCESS then
        dir.entries.put entryName (newDentry localNodeID entryType inode) else dir.entries :=
  makeDirEntryUnlocked_spec o entryName (newDentry localNodeID entryType inode) dir

end

variable {o : InsertOutcomes} {localNodeID : UInt16} {fromFileInfo : EntryInfo}
  {toParentID newEntryName : String} {dir dir' : DentryDir}

section

variable (hOther : ∀ k, k ≠ newEntryName → dir'.entries.find k = dir.entries.find k)
include hOther

/-- Nothing is stored: the names are intact if the name of the new entry has not been unlinked. -/
theorem insertRemoteInode_failed {inode : Option RemoteInode} (hFails : ∀ i, inode = some i →
      StoresDentry o (newDentry localNodeID fromFileInfo.entryType i) dir' → dir'.entries.find
      newEntryName ≠ none) :
    Intact dir (dir'.insertRemoteInode o localNodeID fromFileInfo toParentID newEntryName inode) ↔
      dir'.entries.find newEntryName = dir.entries.find newEntryName := by
  have hFailed : (dir'.insertRemoteInode o localNodeID fromFileInfo toParentID newEntryName
      inode).result ≠ .SUCCESS ∧ (dir'.insertRemoteInode o localNodeID fromFileInfo toParentID
      newEntryName inode).dir.entries = dir'.entries := by
    unfold insertRemoteInode
    cases inode with
    | none => exact ⟨by simp, rfl⟩
    | some i =>
      obtain ⟨hStored, hNames⟩ := mkMetaFileUnlocked_spec o localNodeID newEntryName
        fromFileInfo.entryType i dir'
      have hNot : (dir'.mkMetaFileUnlocked o localNodeID newEntryName fromFileInfo.entryType
          i).2 ≠ .SUCCESS := fun hSuccess =>
        hFails i rfl (hStored.mp hSuccess).1 (hStored.mp hSuccess).2
      rw [if_neg hNot] at hNames
      simp only [hNot, if_false]
      exact ⟨hNot, hNames⟩
  unfold Intact
  rw [hFailed.2]
  constructor
  · exact fun hSame => hSame hFailed.1 newEntryName
  · rintro hSame - k
    by_cases hk : k = newEntryName
    · rw [hk, hSame]
    · exact hOther k hk

/-- The new dentry is stored: the names are intact, or the call succeeds, if it can be read again
as the dentry of a file, or is the old one. -/
theorem insertRemoteInode_stored {inode : RemoteInode}
    (hStores : StoresDentry o (newDentry localNodeID fromFileInfo.entryType inode) dir')
    (hFree : dir'.entries.find newEntryName = none) :
    Intact dir (dir'.insertRemoteInode o localNodeID fromFileInfo toParentID newEntryName
      (some inode)) ↔
      (o.readNewDentry = true ∧ fromFileInfo.entryType.isFile = true) ∨
        dir.entries.find newEntryName =
          some (newDentry localNodeID fromFileInfo.entryType inode) := by
  obtain ⟨hStored, hNames⟩ := mkMetaFileUnlocked_spec o localNodeID newEntryName
    fromFileInfo.entryType inode dir'
  have hSuccess : (dir'.mkMetaFileUnlocked o localNodeID newEntryName fromFileInfo.entryType
      inode).2 = .SUCCESS := hStored.mpr ⟨hStores, hFree⟩
  rw [if_pos hSuccess] at hNames
  have hMade : ∀ k, (dir'.mkMetaFileUnlocked o localNodeID newEntryName fromFileInfo.entryType
      inode).1.entries.find k = if k = newEntryName then
        some (newDentry localNodeID fromFileInfo.entryType inode) else dir'.entries.find k := by
    intro k
    rw [← find_put]
    exact congrArg (fun entries => find entries k) hNames
  unfold insertRemoteInode Intact
  simp only [hSuccess, if_true]
  generalize (dir'.mkMetaFileUnlocked o localNodeID newEntryName fromFileInfo.entryType
    inode).1 = made at hMade ⊢
  have hRead : (made.getFileEntryInfo o.readNewDentry toParentID newEntryName).2 = true ↔
      o.readNewDentry = true ∧ fromFileInfo.entryType.isFile = true := by
    unfold getFileEntryInfo DentryMap.dirEntryCreateFromFile
    rw [hMade, if_pos rfl, Option.map_some]
    cases o.readNewDentry <;> simp [newDentry, DirEntry.getEntryInfo, DirEntry.entryType]
  by_cases hReadable : (made.getFileEntryInfo o.readNewDentry toParentID newEntryName).2 = true
  · refine iff_of_true (fun hFailed => ?_) (Or.inl (hRead.mp hReadable))
    rw [if_pos hReadable] at hFailed
    exact absurd rfl hFailed
  have hUnreadable := mt hRead.mpr hReadable
  simp only [hReadable, hUnreadable, false_or]
  constructor
  · intro hSame
    rw [← hSame (by simp) newEntryName, hMade, if_pos rfl]
  · rintro hSame - k
    rw [hMade]
    split
    · rename_i hk
      rw [hk, hSame]
    · exact hOther k ‹_›

end

variable {formats : DentryFormats} {buf : Nat → UInt8}

theorem not_losesEntry {file : DentryFile} (hFind : dir.entries.find newEntryName = some file)
    (hKept : ¬ UnlinksName o fromFileInfo newEntryName dir) :
    ¬ LosesEntry formats o localNodeID fromFileInfo newEntryName buf dir := by
  rintro ⟨-, ⟨hUnlinks, -⟩ | ⟨inode, -, -, hFree | hUnlinks, -⟩⟩
  · exact hKept hUnlinks
  · rw [hFind] at hFree
    cases hFree
  · exact hKept hUnlinks

theorem insertRemoteInode_inPlace (hDir : o.referenceDir = true)
    (hKept : ¬ UnlinksName o fromFileInfo newEntryName dir) :
    Intact dir (dir.insertRemoteInode o localNodeID fromFileInfo toParentID newEntryName
      (formats.deserializeMetaData buf)) ↔
      ¬ LosesEntry formats o localNodeID fromFileInfo newEntryName buf dir := by
  unfold LosesEntry
  simp only [hDir, hKept, false_and, false_or, or_false, true_and]
  by_cases hStored : ∃ inode, formats.deserializeMetaData buf = some inode ∧
      StoresDentry o (newDentry localNodeID fromFileInfo.entryType inode) dir ∧
      dir.entries.find newEntryName = none
  · obtain ⟨inode, hInode, hStores, hFree⟩ := hStored
    rw [hInode, insertRemoteInode_stored (fun _ _ => rfl) hStores hFree]
    simp only [Option.some.injEq, exists_eq_left', hStores, hFree, true_and]
    tauto
  rw [insertRemoteInode_failed (fun _ _ => rfl)]
  · refine iff_of_true rfl ?_
    rintro ⟨inode, hInode, hStores, hFree, -⟩
    exact hStored ⟨inode, hInode, hStores, hFree⟩
  · intro inode hInode hStores hFree
    exact hStored ⟨inode, hInode, hStores, hFree⟩

theorem insertRemoteInode_unlinked (hDir : o.referenceDir = true)
    (hUnlinks : UnlinksName o fromFileInfo newEntryName dir) :
    Intact dir (insertRemoteInode o localNodeID fromFileInfo toParentID newEntryName
      (formats.deserializeMetaData buf) { dir with entries := dir.entries.remove newEntryName }) ↔
      ¬ LosesEntry formats o localNodeID fromFileInfo newEntryName buf dir := by
  obtain ⟨-, -, file, hFile, -⟩ := id hUnlinks
  have hOther : ∀ k, k ≠ newEntryName →
      (dir.entries.remove newEntryName).find k = dir.entries.find k :=
    fun k hk => find_remove_of_ne _ hk
  have hFree := find_remove_self dir.entries newEntryName
  unfold LosesEntry
  simp only [hDir, hUnlinks, or_true, true_and]
  by_cases hStored : ∃ inode, formats.deserializeMetaData buf = some inode ∧
      StoresDentry o (newDentry localNodeID fromFileInfo.entryType inode) dir
  · obtain ⟨inode, hInode, hStores⟩ := hStored
    have hStores' : StoresDentry o (newDentry localNodeID fromFileInfo.entryType inode)
      { dir with entries := dir.entries.remove newEntryName } := hStores
    rw [hInode, insertRemoteInode_stored hOther hStores' hFree]
    simp only [Option.some.injEq, forall_eq', exists_eq_left', hStores, not_true_eq_false,
      false_or, true_and]
    tauto
  · rw [insertRemoteInode_failed hOther]
    · have hLost : (dir.entries.remove newEntryName).find newEntryName ≠
          dir.entries.find newEntryName := by
        rw [hFree, hFile]
        simp
      refine iff_of_false hLost (not_not.mpr (Or.inl fun inode hInode hStores => ?_))
      exact hStored ⟨inode, hInode, hStores⟩
    · intro inode hInode hStores
      exact absurd ⟨inode, hInode, hStores⟩ hStored

end Names

/-- A failed insertion leaves all names of the directory as they were if and only if no existing
entry is lost and no unreadable one is created. -/
theorem moveRemoteFileInsert_intact_iff (formats : DentryFormats) (o : InsertOutcomes)
    (localNodeID : UInt16) (fromFileInfo : EntryInfo) (toParentID newEntryName : String)
    (buf : Nat → UInt8) (dir : DentryDir) :
    Intact dir (dir.moveRemoteFileInsert formats o localNodeID fromFileInfo toParentID
      newEntryName buf) ↔
      ¬ LosesEntry formats o localNodeID fromFileInfo newEntryName buf dir := by
  unfold moveRemoteFileInsert
  cases hDir : o.referenceDir with
  | false =>
    refine iff_of_true (fun _ _ => rfl) ?_
    rintro ⟨hReferenced, -⟩
    rw [hDir] at hReferenced
    cases hReferenced
  | true =>
    simp only [Bool.not_true, Bool.false_eq_true, if_false]
    cases hRead : o.readDentry with
    | false =>
      refine insertRemoteInode_inPlace hDir ?_
      rintro ⟨hReadable, -⟩
      rw [hRead] at hReadable
      cases hReadable
    | true =>
      unfold DentryMap.dirEntryCreateFromFile
      cases hFind : dir.entries.find newEntryName with
      | none =>
        refine insertRemoteInode_inPlace hDir ?_
        rintro ⟨-, -, file, hFile, -⟩
        rw [hFind] at hFile
        cases hFile
      | some file =>
        have hRefuses := checkRenameOverwrite_refuses fromFileInfo
          (DirEntry.getEntryInfo ⟨file.dentryDiskData, newEntryName⟩ file.dentryDiskData.entryID 0)
        have hUnlinks : UnlinksName o fromFileInfo newEntryName dir ↔ o.unlinkName = none ∧
            ¬ (file.dentryDiskData.entryID = fromFileInfo.entryID ∨
              file.dentryDiskData.entryType = .DIRECTORY ∨
              fromFileInfo.entryType = .DIRECTORY) := by
          unfold UnlinksName
          simp [hRead, hFind]
        rw [or_comm] at hRefuses
        simp only [Option.map_some]
        split
        · rename_i hRefused
          refine iff_of_true (fun _ _ => rfl) (not_losesEntry hFind fun hUnlinked => ?_)
          exact (hUnlinks.mp hUnlinked).2 (hRefuses.mp hRefused)
        rename_i hAllowed
        cases hError : o.unlinkName with
        | none =>
          have hUnlinked := hUnlinks.mpr ⟨hError, mt hRefuses.mpr hAllowed⟩
          simp only [removeDirEntryName, hError, hFind]
          exact insertRemoteInode_unlinked hDir hUnlinked
        | some e =>
          have hKept : ¬ UnlinksName o fromFileInfo newEntryName dir := by
            rw [hUnlinks, hError]
            simp
          -- an unlink that finds no file is not taken as an error
          by_cases hAbsent : e = .ENOENT
          · simp only [removeDirEntryName, hError, hAbsent]
            exact insertRemoteInode_inPlace hDir hKept
          have hFailed : dir.removeDirEntryName o newEntryName = (dir, .INTERNAL) := by
            unfold removeDirEntryName
            rw [hError]
            cases e <;> first | rfl | exact absurd rfl hAbsent
          rw [hFailed]
          exact iff_of_true (fun _ _ => rfl) (not_losesEntry hFind hKept)

/-- An existing entry is lost when the received buffer has a format version that is not supported,
whatever the deserializers of the formats do. -/
theorem not_moveRemoteFileInsert_intact :
    ¬ ∃ formats : DentryFormats, ∀ (o : InsertOutcomes) (localNodeID : UInt16)
      (fromFileInfo : EntryInfo) (toParentID newEntryName : String) (buf : Nat → UInt8)
      (dir : DentryDir),
      Intact dir (dir.moveRemoteFileInsert formats o localNodeID fromFileInfo toParentID
        newEntryName buf) := by
  rintro ⟨formats, h⟩
  have hIntact := h ⟨true, true, none, none, true, none, true, true⟩ 2
    ⟨1, "fromDir", "new", "fromName", .REGULARFILE, 0⟩ "toDir" "file" (fun _ => 0)
    ⟨OrderedSet.empty.insert ("file", ⟨⟨"old", .REGULARFILE, 2, 3⟩, []⟩),
      OrderedSet.empty.insert "old"⟩
  have hFailed : FhgfsOpsErr.INTERNAL ≠ .SUCCESS := by decide
  have hLost : none = some (DentryFile.mk ⟨"old", .REGULARFILE, 2, 3⟩ []) := hIntact hFailed "file"
  cases hLost

end DentryDir

end Fhgfs.Storage
