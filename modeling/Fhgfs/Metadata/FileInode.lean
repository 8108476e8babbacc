import Fhgfs.Metadata.DiskMetaData

/-!
# File inodes in memory and on disk

The operations on a loaded file inode that matter for the path of its chunk files: changes of the
attributes, de-inlining, moves to another directory and loading from disk.
-/

namespace Fhgfs.Metadata

open Wire Storage

def SETATTR_CHANGE_MODE : UInt32 := 1
def SETATTR_CHANGE_USERID : UInt32 := 2
def SETATTR_CHANGE_GROUPID : UInt32 := 4
def SETATTR_CHANGE_MODIFICATIONTIME : UInt32 := 8
def SETATTR_CHANGE_LASTACCESSTIME : UInt32 := 16

def posixFileTypeToDirEntryType (posixFileMode : UInt32) : UInt8 :=
  match (posixFileMode &&& 0xF000).toNat with
  | 0x4000 => 1
  | 0x8000 => 2
  | 0xA000 => 3
  | 0x6000 => 4
  | 0x2000 => 5
  | 0x1000 => 6
  | 0xC000 => 7
  | _ => 0

namespace DiskMetaData

def isInodeInlined (m : DiskMetaData) : Bool :=
  m.dentryDiskData.dentryFeatureFlags &&& DENTRY_FEATURE_INODE_INLINE != 0

/-- An entry type that is not set is taken from the mode. -/
def serializeFileInode (m : DiskMetaData) : Encoding :=
  let entryType :=
    if m.dentryDiskData.entryType = 0 then
      posixFileTypeToDirEntryType m.inodeData.inodeStatData.settableFileAttribs.mode.toUInt32
    else m.dentryDiskData.entryType
  serializeInDentryFormat
    (if m.isInodeInlined then .FILEDENTRY else .FILEINODE)
    { m with dentryDiskData.entryType := entryType }

/-- The data of an inode from its file on disk. The buffers have no room for larger data. -/
def load (localNodeID : UInt16) (holes : Nat → UInt8) (rest : List UInt8)
    (newInodeData : FileInodeStoreData) (disk : DiskMetaData) : Option DiskMetaData :=
  let bytes := disk.serializeFileInode
  if DIRENTRY_SERBUF_SIZE < bytes.length then none
  else
    match deserializeDentry localNodeID (fill holes bytes ++ rest)
      ⟨⟨[], 0, 0, 0, 0⟩, newInodeData⟩ with
    | .error _ => none
    | .ok m => some m

end DiskMetaData

structure DentryCompatData where
  entryType : UInt8
  featureFlags : UInt32
deriving DecidableEq

structure FileInode where
  inodeDiskData : FileInodeStoreData
  dentryCompatData : DentryCompatData
  isInlined : Bool
deriving DecidableEq

namespace FileInode

def getPathInfo (inode : FileInode) : PathInfo := inode.inodeDiskData.getPathInfo

/-- The chunk path of a de-inlined inode cannot be taken from its directory anymore. -/
def setIsInlinedUnlocked (value : Bool) (inode : FileInode) : FileInode :=
  if value then
    { inode with
      isInlined := true
      dentryCompatData.featureFlags :=
        inode.dentryCompatData.featureFlags ||| DENTRY_FEATURE_INODE_INLINE.toUInt32 }
  else
    { inode with
      isInlined := false
      inodeDiskData :=
        if inode.inodeDiskData.origFeature = .TRUE then
          inode.inodeDiskData.addInodeFeatureFlag FILEINODE_FEATURE_HAS_ORIG_PARENTID
        else inode.inodeDiskData
      dentryCompatData.featureFlags :=
        inode.dentryCompatData.featureFlags &&& ~~~DENTRY_FEATURE_INODE_INLINE.toUInt32 }

def updateDynamicAttribs (nowSecs : Int64) (fileInfoVec : List ChunkFileInfo)
    (inode : FileInode) : FileInode :=
  { inode with
    inodeDiskData.inodeStatData := inode.inodeDiskData.inodeStatData.updateDynamicFileAttribs
      nowSecs fileInfoVec inode.inodeDiskData.stripePattern }

/-- What `serializeMetaData` stores. A mirror node of the dentry is not known here. -/
def diskMetaData (inode : FileInode) : DiskMetaData :=
  ⟨⟨inode.inodeDiskData.entryID, inode.dentryCompatData.entryType, 0,
    inode.dentryCompatData.featureFlags.toUInt16, 0⟩, inode.inodeDiskData⟩

/-- `deserializeMetaData`, after the data were read. -/
def ofDiskMetaData (isInlined : Bool) (m : DiskMetaData) : FileInode :=
  ⟨m.inodeData, ⟨m.dentryDiskData.entryType, m.dentryDiskData.dentryFeatureFlags.toUInt32⟩,
    isInlined⟩

/-- `createFromInlinedInode` for the inode of a dentry, and `createFromInodeFile` for a
separate one. -/
def create (parentEntryID : List UInt8) (m : DiskMetaData) : FileInode :=
  if m.isInodeInlined then
    let inodeData := m.inodeData.setDynamicOrigParentEntryID parentEntryID
    (ofDiskMetaData true { m with inodeData := inodeData }).setIsInlinedUnlocked true
  else (ofDiskMetaData false m).setIsInlinedUnlocked false

/-- The attributes that the flags tell, and the mark for a file that is given away. -/
def applyAttribs (validAttribs : UInt32) (attribs : SettableFileAttribs) (inode : FileInode) :
    FileInode :=
  let old := inode.inodeDiskData.inodeStatData.settableFileAttribs
  let has := fun flag => validAttribs &&& flag ≠ 0
  let inodeDiskData :=
    { inode.inodeDiskData with
      inodeStatData.settableFileAttribs :=
        { mode := if has SETATTR_CHANGE_MODE then attribs.mode else old.mode
          userID := if has SETATTR_CHANGE_USERID then attribs.userID else old.userID
          groupID := if has SETATTR_CHANGE_GROUPID then attribs.groupID else old.groupID
          modificationTimeSecs :=
            if has SETATTR_CHANGE_MODIFICATIONTIME then attribs.modificationTimeSecs
            else old.modificationTimeSecs
          lastAccessTimeSecs :=
            if has SETATTR_CHANGE_LASTACCESSTIME then attribs.lastAccessTimeSecs
            else old.lastAccessTimeSecs } }
  { inode with
    inodeDiskData :=
      if has SETATTR_CHANGE_USERID ∧ attribs.userID ≠ inodeDiskData.origParentUID ∧
        inodeDiskData.origFeature = .TRUE then
        inodeDiskData.addInodeFeatureFlag FILEINODE_FEATURE_HAS_ORIG_UID
      else inodeDiskData }

def changeAttribs (nowSecs : Int64) (validAttribs : UInt32) (attribs : SettableFileAttribs)
    (inode : FileInode) : FileInode :=
  { inode with inodeDiskData.inodeStatData.attribChangeTimeSecs := nowSecs }.applyAttribs
    validAttribs attribs

end FileInode

/-- A file: the loaded inode, what was stored of it last, and its directory. -/
structure StoredFile where
  inode : FileInode
  disk : DiskMetaData
  parentEntryID : List UInt8
deriving DecidableEq

/-- The circumstances of storing an inode: the chunk files and the outcomes. -/
structure StoreOutcomes where
  nowSecs : Int64
  fileInfoVec : List ChunkFileInfo
  dentryLoads : Bool
  dentrySaves : Bool
  saveRes : Bool

namespace StoredFile

variable (o : StoreOutcomes)

variable (f : StoredFile)

/-- The dentry is loaded from disk. Its inode gets the new data, but keeps its ID. -/
def storeUpdatedInlinedInodeUnlocked : StoredFile × FhgfsOpsErr :=
  let f := { f with inode := f.inode.updateDynamicAttribs o.nowSecs o.fileInfoVec }
  if !o.dentryLoads then (f, .INTERNAL)
  else if !f.disk.isInodeInlined then (f, .INODENOTINLINED)
  else if !o.dentrySaves then (f, .SAVEERROR)
  else
    let inodeData := { f.inode.inodeDiskData with entryID := f.disk.inodeData.entryID }
    ({ f with disk.inodeData := inodeData }, .SUCCESS)

def storeNotInlined : StoredFile × Bool :=
  let inode := f.inode.updateDynamicAttribs o.nowSecs o.fileInfoVec
  ({ f with inode := inode, disk := if o.saveRes then inode.diskMetaData else f.disk }, o.saveRes)

/-- When the inode cannot be stored in its dentry, it is tried as a separate one. -/
def storeUpdatedInodeUnlocked : StoredFile × Bool :=
  if f.inode.isInlined then
    let dentrySaved := f.storeUpdatedInlinedInodeUnlocked o
    if dentrySaved.2 = .SUCCESS then (dentrySaved.1, true)
    else if dentrySaved.2 = .INODENOTINLINED then
      storeNotInlined o { dentrySaved.1 with inode.isInlined := false }
    else dentrySaved.1.storeNotInlined o
  else f.storeNotInlined o

/-- When the new attributes cannot be stored, the old ones are restored. -/
def setAttrData (validAttribs : UInt32) (attribs : SettableFileAttribs)
    (f : StoredFile) : StoredFile × Bool :=
  let oldAttribs := f.inode.inodeDiskData.inodeStatData.settableFileAttribs
  let stored := storeUpdatedInodeUnlocked o
    { f with inode := f.inode.changeAttribs o.nowSecs validAttribs attribs }
  if stored.2 then stored
  else
    ({ stored.1 with
      inode.inodeDiskData.inodeStatData.settableFileAttribs := oldAttribs }, false)

def incDecNumHardlinksUnpersistentUnlocked (value : UInt32) (f : StoredFile) : StoredFile :=
  { f with
    inode.inodeDiskData.inodeStatData.nlink := f.inode.inodeDiskData.inodeStatData.nlink + value }

/-- The value is an `int` that is added to an `unsigned`, and subtracted if it is not stored. -/
def incDecNumHardLinks (value : UInt32) : StoredFile × Bool :=
  let stored := storeUpdatedInodeUnlocked o
    { f.incDecNumHardlinksUnpersistentUnlocked value with
      inode.inodeDiskData.inodeStatData.attribChangeTimeSecs := o.nowSecs }
  if stored.2 then stored
  else (stored.1.incDecNumHardlinksUnpersistentUnlocked (-value), false)

def updateInodeOnDisk : StoredFile × Bool :=
  f.storeUpdatedInodeUnlocked o

def setIsInlined (value : Bool) (f : StoredFile) : StoredFile :=
  { f with inode := f.inode.setIsInlinedUnlocked value }

/-- `setOrigParentID` with the current directory. -/
def setOrigParentID : StoredFile :=
  { f with
    inode.inodeDiskData := f.inode.inodeDiskData.setDynamicOrigParentEntryID f.parentEntryID }

variable (localNodeID : UInt16)

/-- Without a result of reading, the inode cannot be loaded, and the object stays. -/
def reload (holes : Nat → UInt8) (rest : List UInt8)
    (newInodeData : FileInodeStoreData) (f : StoredFile) : StoredFile :=
  match f.disk.load localNodeID holes rest newInodeData with
  | none => f
  | some m => { f with inode := FileInode.create f.parentEntryID m }

/-- A file whose dentry with an inlined inode was stored in a directory. -/
def created (entryType : UInt8) (inodeData : FileInodeStoreData)
    (parentEntryID : List UInt8) : StoredFile :=
  let disk : DiskMetaData :=
    ⟨⟨inodeData.entryID, entryType, localNodeID,
      DENTRY_FEATURE_INODE_INLINE ||| DENTRY_FEATURE_IS_FILEINODE, 0⟩, inodeData⟩
  ⟨FileInode.create parentEntryID disk, disk, parentEntryID⟩

/-- The inode as `moveRemoteBegin` serializes it. -/
def moveRemoteBegin : FileInode :=
  { f.inode with
    inodeDiskData :=
      f.inode.inodeDiskData.setPersistentOrigParentEntryID f.parentEntryID }.updateDynamicAttribs
    o.nowSecs o.fileInfoVec

/-- A move to another directory. The target deserializes the inode, stores it in a new dentry
and goes on with it. -/
def moveRemote (holes : Nat → UInt8)
    (rest : List UInt8) (newInodeData : FileInodeStoreData) (newParentEntryID : List UInt8)
    (f : StoredFile) : StoredFile :=
  let inode := f.moveRemoteBegin o
  match inode.diskMetaData.load localNodeID holes rest newInodeData with
  | none => { f with inode := inode }
  | some m =>
    created localNodeID m.dentryDiskData.entryType m.inodeData newParentEntryID

end StoredFile

/-- The operations on a file, with everything that they depend on. -/
inductive FileOp
  | setAttrData (o : StoreOutcomes) (validAttribs : UInt32) (attribs : SettableFileAttribs)
  | updateInodeOnDisk (o : StoreOutcomes)
  | setIsInlined (value : Bool)
  | setOrigParentID
  | reload (localNodeID : UInt16) (holes : Nat → UInt8) (rest : List UInt8)
      (newInodeData : FileInodeStoreData)
  | moveRemote (o : StoreOutcomes) (localNodeID : UInt16) (holes : Nat → UInt8)
      (rest : List UInt8) (newInodeData : FileInodeStoreData) (newParentEntryID : List UInt8)

namespace StoredFile

def step (f : StoredFile) : FileOp → StoredFile
  | .setAttrData o validAttribs attribs => (f.setAttrData o validAttribs attribs).1
  | .updateInodeOnDisk o => (f.updateInodeOnDisk o).1
  | .setIsInlined value => f.setIsInlined value
  | .setOrigParentID => f.setOrigParentID
  | .reload localNodeID holes rest newInodeData => f.reload localNodeID holes rest newInodeData
  | .moveRemote o localNodeID holes rest newInodeData newParentEntryID =>
    f.moveRemote o localNodeID holes rest newInodeData newParentEntryID

end StoredFile

end Fhgfs.Metadata
