import Fhgfs.Storage.DirReferences

/-!
# The file references of the meta store

`MetaStore`, with the global file store and the directories. An inode that is referenced through
the file store of a directory keeps a reference to the directory, and counts it in
`numParentRefs`. A file that is unlinked while it is open is moved to the global store, and its
directory references are released then.
-/

namespace Fhgfs.Storage

/-- `numParentRefs` is a field of the inode objects, given here by their address.
`nextAddress` is the address of the next object. -/
structure MetaStore where
  fileStore : InodeFileStore
  dirStore : InodeDirStore
  numParentRefs : Nat → Int
  nextAddress : Nat

/-- What a call gets from outside; `createFromEntryInfo` tells whether the file inode can be
loaded from disk. -/
structure StoreOutcomes extends DirStoreOutcomes where
  createFromEntryInfo : Bool
deriving DecidableEq

namespace MetaStore

def empty (tuneDirMetadataCacheLimit : Nat) : MetaStore :=
  ⟨.empty, .empty tuneDirMetadataCacheLimit, fun _ => 0, 0⟩

def incParentRef (inode : FileInode) (s : MetaStore) : MetaStore :=
  { s with numParentRefs := fun a => s.numParentRefs a + if a = inode.address then 1 else 0 }

def decParentRef (inode : FileInode) (s : MetaStore) : MetaStore :=
  { s with numParentRefs := fun a => s.numParentRefs a - if a = inode.address then 1 else 0 }

def createFromEntryInfo (o : StoreOutcomes) (s : MetaStore) : Option Nat :=
  if o.createFromEntryInfo then some s.nextAddress else none

variable (o : StoreOutcomes)

/-- The second component tells whether the directory was referenced. -/
def referenceDirUnlocked (dirID : String) (forceLoad : Bool) (s : MetaStore) : MetaStore × Bool :=
  let referenced := s.dirStore.referenceDirInode o.toDirStoreOutcomes dirID forceLoad
  ({ s with dirStore := referenced.1 }, referenced.2)

def releaseDirUnlocked (o : StoreOutcomes) (dirID : String) (s : MetaStore) : MetaStore :=
  { s with dirStore := s.dirStore.releaseDirUnlocked o.selfTerminate dirID }

/-! ## References to files -/

/-- Reference an inode through the file store of its directory. The directory stays referenced
with it. -/
def openInSubDir (posixTID : Int) (o : StoreOutcomes) (entryInfo : EntryInfo) (s : MetaStore) :
    MetaStore × Except FhgfsOpsErr FileInode :=
  let parentEntryID := entryInfo.parentEntryID
  let subDir := s.referenceDirUnlocked o parentEntryID false
  if subDir.2 then
    let opened := (subDir.1.dirStore.fileStoreOf parentEntryID).openFile posixTID
      (s.createFromEntryInfo o) entryInfo true
    let s' : MetaStore :=
      { subDir.1 with
        dirStore := subDir.1.dirStore.setFileStore parentEntryID opened.1
        nextAddress := s.nextAddress + 1 }
    match opened.2 with
    | .ok inode => (s'.incParentRef inode, .ok inode)
    | .error e => (s'.releaseDirUnlocked o parentEntryID, .error e)
  else (subDir.1, .error .INTERNAL)

/-- The global store first, then the store of the directory. There a reference call does what
an open call does, apart from the session counters. -/
def referenceFileUnlocked (posixTID : Int) (o : StoreOutcomes) (entryInfo : EntryInfo)
    (s : MetaStore) : MetaStore × Option FileInode :=
  let fromGlobal :=
    s.fileStore.referenceFileInode posixTID (s.createFromEntryInfo o) entryInfo false
  match fromGlobal.2 with
  | some inode => ({ s with fileStore := fromGlobal.1 }, some inode)
  | none =>
    let fromDir := { s with fileStore := fromGlobal.1 }.openInSubDir posixTID o entryInfo
    (fromDir.1, fromDir.2.toOption)

/-- Unlike for `referenceFileUnlocked`, an inode in the global store that another thread has
locked is not looked for in the directory. -/
def openFile (posixTID : Int) (o : StoreOutcomes) (entryInfo : EntryInfo) (s : MetaStore) :
    MetaStore × Except FhgfsOpsErr FileInode :=
  if s.fileStore.isInStore entryInfo.entryID then
    let opened := s.fileStore.openFile posixTID (s.createFromEntryInfo o) entryInfo false
    ({ s with fileStore := opened.1 }, opened.2)
  else s.openInSubDir posixTID o entryInfo

/-- Release an inode in the file store of its directory by `release`, and the directory as often
as needed. -/
def releaseInSubDir {β : Type} (parentEntryID : String) (inode : FileInode)
    (release : InodeFileStore → InodeFileStore × β) (notReleased : β) (s : MetaStore) :
    MetaStore × β :=
  let subDir := s.referenceDirUnlocked o parentEntryID false
  if subDir.2 then
    let s' := subDir.1.decParentRef inode
    let released := release (s'.dirStore.fileStoreOf parentEntryID)
    let s' := { s' with dirStore := s'.dirStore.setFileStore parentEntryID released.1 }
    -- first the reference from above, then the one that was taken with the inode
    ((s'.releaseDirUnlocked o parentEntryID).releaseDirUnlocked o parentEntryID, released.2)
  else (subDir.1, notReleased)

def releaseFileUnlocked (parentEntryID : String) (inode : FileInode)
    (s : MetaStore) : MetaStore × Bool :=
  let fromGlobal := s.fileStore.releaseFileInode inode
  if fromGlobal.2 then ({ s with fileStore := fromGlobal.1 }, true)
  else
    { s with fileStore := fromGlobal.1 }.releaseInSubDir o parentEntryID inode
      (InodeFileStore.releaseFileInode inode) false

/-- The second component is the number of references left, if the file was open. -/
def closeFile (o : StoreOutcomes) (entryInfo : EntryInfo) (inode : FileInode) (s : MetaStore) :
    MetaStore × Option Int :=
  let fromGlobal := s.fileStore.closeFile inode
  match fromGlobal.2 with
  | some outNumRefs => ({ s with fileStore := fromGlobal.1 }, some outNumRefs)
  | none =>
    { s with fileStore := fromGlobal.1 }.releaseInSubDir o entryInfo.parentEntryID inode
      (InodeFileStore.closeFile inode) none

/-- The loop over the parent references of an inode that has been moved. -/
def releaseParentRefs (o : StoreOutcomes) (parentEntryID : String) (inode : FileInode) :
    Nat → MetaStore → MetaStore
  | 0, s => s
  | numParentRefs + 1, s =>
    releaseParentRefs o parentEntryID inode numParentRefs
      ((s.releaseDirUnlocked o parentEntryID).decParentRef inode)

/-- The second component is false if there was an inode to move, but its ID was taken in the
global store. The inode is then in neither store. -/
def moveReferenceToMetaFileStoreUnlocked (parentEntryID entryID : String)
    (s : MetaStore) : MetaStore × Bool :=
  let subDir := s.referenceDirUnlocked o parentEntryID false
  if !subDir.2 then (subDir.1, false)
  else
    let taken := (subDir.1.dirStore.fileStoreOf parentEntryID).getReferencerAndDeleteFromMap entryID
    let s' : MetaStore :=
      { subDir.1 with dirStore := subDir.1.dirStore.setFileStore parentEntryID taken.1 }
    match taken.2 with
    | none => (s'.releaseDirUnlocked o parentEntryID, true)
    | some fileRefer =>
      let inodeRefer := fileRefer.reference
      let inode := inodeRefer.referencedObject
      let inserted := s'.fileStore.insertReferencer inodeRefer
      let s' := { s' with fileStore := inserted.1 }
      if inserted.2 then
        let s' := s'.releaseParentRefs o parentEntryID inode (s'.numParentRefs inode.address).toNat
        let s' := { s' with fileStore := s'.fileStore.put inodeRefer.release }
        (s'.releaseDirUnlocked o parentEntryID, true)
      else (s'.releaseDirUnlocked o parentEntryID, false)

end MetaStore

end Fhgfs.Storage
