import Fhgfs.Common.StatData

/-!
# Stored data of file inodes

`FileInodeStoreData`, the data of a file inode that is stored on disk. The original owner and the
original parent directory determine the path of the chunk files. Feature flags tell whether they
are stored.
-/

namespace Fhgfs.Metadata

def FILEINODE_FEATURE_MIRRORED : UInt32 := 1
def FILEINODE_FEATURE_HAS_ORIG_PARENTID : UInt32 := 16
def FILEINODE_FEATURE_HAS_ORIG_UID : UInt32 := 32

def PATHINFO_FEATURE_ORIG : Int32 := 1
def PATHINFO_FEATURE_ORIG_UNKNOWN : Int32 := 2

/-- What the path of the chunk files is computed from. -/
structure PathInfo where
  flags : Int32
  origParentUID : UInt32
  origParentEntryID : List UInt8
deriving DecidableEq

/-- Whether the original IDs of an inode are known. -/
inductive FileInodeOrigFeature
  | UNSET
  | TRUE
  | FALSE
deriving DecidableEq

structure FileInodeStoreData where
  inodeFeatureFlags : UInt32
  inodeStatData : StatData
  entryID : List UInt8
  stripePattern : StripePattern
  origFeature : FileInodeOrigFeature
  origParentUID : UInt32
  origParentEntryID : List UInt8
  mirrorNodeID : UInt16
deriving DecidableEq

namespace FileInodeStoreData

def hasInodeFeatureFlag (flag : UInt32) (d : FileInodeStoreData) : Bool :=
  d.inodeFeatureFlags &&& flag != 0

def addInodeFeatureFlag (flag : UInt32) (d : FileInodeStoreData) : FileInodeStoreData :=
  { d with inodeFeatureFlags := d.inodeFeatureFlags ||| flag }

/-- The constructor. A new file belongs to the user who creates it, and its chunk path has the
owner of the parent directory. -/
def new (entryID : List UInt8) (statData : StatData) (stripePattern : StripePattern)
    (featureFlags origParentUID : UInt32) (origParentEntryID : List UInt8)
    (origFeature : FileInodeOrigFeature) : FileInodeStoreData where
  inodeFeatureFlags :=
    if statData.settableFileAttribs.userID ≠ origParentUID ∧ origFeature = .TRUE then
      featureFlags ||| FILEINODE_FEATURE_HAS_ORIG_UID
    else featureFlags
  inodeStatData := statData
  entryID := entryID
  stripePattern := stripePattern
  origFeature := origFeature
  origParentUID := origParentUID
  origParentEntryID := origParentEntryID
  mirrorNodeID := 0

def getPathInfo (d : FileInodeStoreData) : PathInfo where
  flags :=
    match d.origFeature with
    | .TRUE => PATHINFO_FEATURE_ORIG
    | .FALSE => 0
    | .UNSET => PATHINFO_FEATURE_ORIG_UNKNOWN
  origParentUID := d.origParentUID
  origParentEntryID := d.origParentEntryID

/-- For inodes that are not de-inlined and not renamed between directories. -/
def setDynamicOrigParentEntryID (origParentEntryID : List UInt8) (d : FileInodeStoreData) :
    FileInodeStoreData :=
  if d.hasInodeFeatureFlag FILEINODE_FEATURE_HAS_ORIG_PARENTID then d
  else { d with origParentEntryID := origParentEntryID }

/-- For file renames between directories: the ID will be stored. -/
def setPersistentOrigParentEntryID (origParentEntryID : List UInt8) (d : FileInodeStoreData) :
    FileInodeStoreData :=
  if !d.hasInodeFeatureFlag FILEINODE_FEATURE_HAS_ORIG_PARENTID && d.origFeature = .TRUE then
    { d with origParentEntryID := origParentEntryID }.addInodeFeatureFlag
      FILEINODE_FEATURE_HAS_ORIG_PARENTID
  else d

end FileInodeStoreData

end Fhgfs.Metadata
