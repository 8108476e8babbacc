import Fhgfs.Common.StatDataSerialization
import Fhgfs.Storage.DirEntry
import Fhgfs.Metadata.FileInodeStoreData

/-!
# The on-disk format of dentries and file inodes

A header with the version of the format is followed by the dentry of a directory (version 3) or by
a file inode, without (version 4) or with its original IDs (version 5).
-/

namespace Fhgfs.Metadata

open Wire Serialization Storage

def DENTRY_FEATURE_MIRRORED : UInt16 := 4

def DIRENTRY_STORAGE_FORMAT_VER3 : UInt8 := 3
def DIRENTRY_STORAGE_FORMAT_VER4 : UInt8 := 4
def DIRENTRY_STORAGE_FORMAT_VER5 : UInt8 := 5

def DIRENTRY_SERBUF_SIZE : Nat := 1024 * 4

def checkFeatureFlagsCompat (usedFeatureFlags supportedFeatureFlags : UInt32) : Bool :=
  usedFeatureFlags &&& ~~~supportedFeatureFlags == 0

def getSupportedDentryFeatureFlags : UInt32 :=
  (DENTRY_FEATURE_INODE_INLINE ||| DENTRY_FEATURE_IS_FILEINODE ||| DENTRY_FEATURE_MIRRORED).toUInt32

def getSupportedDentryV4FileInodeFeatureFlags : UInt32 := FILEINODE_FEATURE_MIRRORED

def getSupportedDentryV5FileInodeFeatureFlags : UInt32 :=
  FILEINODE_FEATURE_MIRRORED ||| FILEINODE_FEATURE_HAS_ORIG_PARENTID |||
    FILEINODE_FEATURE_HAS_ORIG_PARENTID ||| FILEINODE_FEATURE_HAS_ORIG_UID

inductive DiskMetaDataType
  | FILEDENTRY
  | DIRDENTRY
  | FILEINODE
  | DIRINODE
deriving DecidableEq

namespace DiskMetaDataType

def toUInt8 : DiskMetaDataType → UInt8
  | FILEDENTRY => 1
  | DIRDENTRY => 2
  | FILEINODE => 3
  | DIRINODE => 4

end DiskMetaDataType

/-- `DentryStoreData`, as it is read from disk: the type of the entry can be any byte. -/
structure DentryDiskData where
  entryID : List UInt8
  entryType : UInt8
  ownerNodeID : UInt16
  dentryFeatureFlags : UInt16
  mirrorNodeID : UInt16
deriving DecidableEq

namespace DentryDiskData

variable (d : DentryDiskData)

def isDir : Bool := d.entryType == 1

def setMirrorNodeID (mirrorNodeID : UInt16) (d : DentryDiskData) : DentryDiskData :=
  { d with
    dentryFeatureFlags := d.dentryFeatureFlags ||| DENTRY_FEATURE_MIRRORED
    mirrorNodeID := mirrorNodeID }

def serializeMirrorNodeID : Encoding :=
  if d.dentryFeatureFlags &&& DENTRY_FEATURE_MIRRORED ≠ 0 then
    serializeUInt16 d.mirrorNodeID ++ [some 0]
  else List.replicate 3 (some 0)

def deserializeMirrorNodeID : Reader DentryDiskData :=
  if d.dentryFeatureFlags &&& DENTRY_FEATURE_MIRRORED ≠ 0 then do
    let mirrorNodeID ← deserializeUInt16
    skip 1
    pure (d.setMirrorNodeID mirrorNodeID)
  else do
    skip 3
    pure d

end DentryDiskData

namespace FileInodeStoreData

variable (d : FileInodeStoreData)

def serializeOrigUID : Encoding :=
  if d.hasInodeFeatureFlag FILEINODE_FEATURE_HAS_ORIG_UID then serializeUInt d.origParentUID
  else []

/-- Without a separate field, the original owner is the owner. -/
def deserializeOrigUID : Reader FileInodeStoreData :=
  if d.hasInodeFeatureFlag FILEINODE_FEATURE_HAS_ORIG_UID then do
    let origParentUID ← deserializeUInt
    pure { d with origParentUID := origParentUID }
  else pure { d with origParentUID := d.inodeStatData.settableFileAttribs.userID }

def serializeOrigParentEntryID : Encoding :=
  if d.hasInodeFeatureFlag FILEINODE_FEATURE_HAS_ORIG_PARENTID then
    serializeStrAlign4 d.origParentEntryID
  else []

def deserializeOrigParentEntryID : Reader FileInodeStoreData :=
  if d.hasInodeFeatureFlag FILEINODE_FEATURE_HAS_ORIG_PARENTID then do
    let origParentEntryID ← deserializeStrAlign4
    pure { d with origParentEntryID := origParentEntryID }
  else pure d

def serializeMirrorNodeID : Encoding :=
  if d.hasInodeFeatureFlag FILEINODE_FEATURE_MIRRORED then serializeUInt16 d.mirrorNodeID
  else []

def deserializeMirrorNodeID : Reader FileInodeStoreData :=
  if d.hasInodeFeatureFlag FILEINODE_FEATURE_MIRRORED then do
    let mirrorNodeID ← deserializeUInt16
    pure { d with mirrorNodeID := mirrorNodeID }
  else pure d

end FileInodeStoreData

structure DiskMetaData where
  dentryDiskData : DentryDiskData
  inodeData : FileInodeStoreData
deriving DecidableEq

namespace DiskMetaData

/-! ## Serialization -/

variable (m : DiskMetaData)

def dentryFormatVersion : UInt8 :=
  if m.dentryDiskData.isDir then DIRENTRY_STORAGE_FORMAT_VER3
  else if m.inodeData.origFeature = .TRUE then DIRENTRY_STORAGE_FORMAT_VER5
  else DIRENTRY_STORAGE_FORMAT_VER4

def serializeDentryV3 : Encoding :=
  serializeStrAlign4 m.dentryDiskData.entryID ++ serializeUInt16 m.dentryDiskData.ownerNodeID

def serializeDentryV4 : Encoding :=
  serializeUInt m.inodeData.inodeFeatureFlags ++ (List.replicate 4 none ++
    (m.inodeData.inodeStatData.serialize false false false ++
      (serializeStrAlign4 m.dentryDiskData.entryID ++ (m.inodeData.serializeMirrorNodeID ++
        m.inodeData.stripePattern.serialize))))

/-- The four bytes behind the feature flags are not written. -/
def serializeDentryV5 : Encoding :=
  serializeUInt m.inodeData.inodeFeatureFlags ++ (List.replicate 4 none ++
    (m.inodeData.inodeStatData.serialize false true false ++
      (m.inodeData.serializeOrigUID ++ (m.inodeData.serializeOrigParentEntryID ++
        (serializeStrAlign4 m.dentryDiskData.entryID ++ (m.inodeData.serializeMirrorNodeID ++
          m.inodeData.stripePattern.serialize))))))

def serializeHeader (metaDataType : DiskMetaDataType) (m : DiskMetaData) : Encoding :=
  serializeUInt8 metaDataType.toUInt8 ++ (serializeUInt8 m.dentryFormatVersion ++
    (serializeUInt16 m.dentryDiskData.dentryFeatureFlags ++
      (serializeUInt8 m.dentryDiskData.entryType ++ m.dentryDiskData.serializeMirrorNodeID)))

def serializeInDentryFormat (metaDataType : DiskMetaDataType) (m : DiskMetaData) : Encoding :=
  m.serializeHeader metaDataType ++
    if m.dentryFormatVersion = DIRENTRY_STORAGE_FORMAT_VER3 then m.serializeDentryV3
    else if m.dentryFormatVersion = DIRENTRY_STORAGE_FORMAT_VER4 then m.serializeDentryV4
    else m.serializeDentryV5

/-! ## Deserialization -/

/-- The ID of the entry is set for dentry and inode. -/
def setEntryID (entryID : List UInt8) (m : DiskMetaData) : DiskMetaData :=
  ⟨{ m.dentryDiskData with entryID := entryID }, { m.inodeData with entryID := entryID }⟩

def deserializeDentryV3 : Reader DiskMetaData := do
  let entryID ← deserializeStrAlign4
  let ownerNodeID ← deserializeUInt16
  let m := m.setEntryID entryID
  pure { m with dentryDiskData.ownerNodeID := ownerNodeID }

def deserializeDentryV4 : Reader DiskMetaData := do
  let inodeFeatureFlags ← deserializeUInt
  ensure (checkFeatureFlagsCompat inodeFeatureFlags getSupportedDentryV4FileInodeFeatureFlags)
  skip 4
  let statData ← m.inodeData.inodeStatData.deserialize false false false
  let entryID ← deserializeStrAlign4
  let inodeData ← FileInodeStoreData.deserializeMirrorNodeID
    { m.inodeData with
      inodeFeatureFlags := inodeFeatureFlags, inodeStatData := statData, entryID := entryID }
  let stripePattern ← StripePattern.deserialize
  pure ⟨{ m.dentryDiskData with entryID := entryID },
    { inodeData with stripePattern := stripePattern }⟩

def deserializeDentryV5 : Reader DiskMetaData := do
  let inodeFeatureFlags ← deserializeUInt
  ensure (checkFeatureFlagsCompat inodeFeatureFlags getSupportedDentryV5FileInodeFeatureFlags)
  skip 4
  let statData ← m.inodeData.inodeStatData.deserialize false true false
  let inodeData ← FileInodeStoreData.deserializeOrigUID
    { m.inodeData with inodeFeatureFlags := inodeFeatureFlags, inodeStatData := statData }
  let inodeData ← inodeData.deserializeOrigParentEntryID
  let entryID ← deserializeStrAlign4
  let inodeData ← FileInodeStoreData.deserializeMirrorNodeID { inodeData with entryID := entryID }
  let stripePattern ← StripePattern.deserialize
  pure ⟨{ m.dentryDiskData with entryID := entryID },
    { inodeData with stripePattern := stripePattern }⟩

variable (localNodeID : UInt16)

/-- The part behind the header, by the version of the format. -/
def deserializeVersion (formatVersion : UInt8) (m : DiskMetaData) : Reader DiskMetaData :=
  let local' : DiskMetaData := { m with dentryDiskData.ownerNodeID := localNodeID }
  if formatVersion = DIRENTRY_STORAGE_FORMAT_VER3 then m.deserializeDentryV3
  else if formatVersion = DIRENTRY_STORAGE_FORMAT_VER4 then do
    let m ← local'.deserializeDentryV4
    pure { m with inodeData.origFeature := .FALSE }
  else if formatVersion = DIRENTRY_STORAGE_FORMAT_VER5 then do
    let m ← local'.deserializeDentryV5
    pure { m with inodeData.origFeature := .TRUE }
  else reject

def deserializeInDentryFormat (m : DiskMetaData) : Reader DiskMetaData := do
  let _ ← deserializeUInt8
  let formatVersion ← deserializeUInt8
  let dentryFeatureFlags ← deserializeUInt16
  ensure (checkFeatureFlagsCompat dentryFeatureFlags.toUInt32 getSupportedDentryFeatureFlags)
  let entryType ← deserializeUInt8
  let dentryDiskData ← DentryDiskData.deserializeMirrorNodeID
    { m.dentryDiskData with dentryFeatureFlags := dentryFeatureFlags, entryType := entryType }
  deserializeVersion localNodeID formatVersion { m with dentryDiskData := dentryDiskData }

/-- The size of the data is not known: the length is that of the largest buffer. -/
def deserializeDentry (buf : List UInt8) (m : DiskMetaData) : Except ReadError DiskMetaData :=
  match m.deserializeInDentryFormat localNodeID ⟨buf, DIRENTRY_SERBUF_SIZE⟩ with
  | .error e => .error e
  | .ok (m, _) => .ok m

end DiskMetaData

end Fhgfs.Metadata
