import Fhgfs.Common.StorageDefinitions
import Fhgfs.Lib.OrderedMap

/-!
# Directory entries

`DirEntry`, the copy of a dentry that a thread works with, and `checkRenameOverwrite`, the test
whether a rename may replace an entry. `DentryMap` is the content of a dentry directory on disk,
the dentry files by name.
-/

namespace Fhgfs.Storage

def DENTRY_FEATURE_INODE_INLINE : UInt16 := 1
def DENTRY_FEATURE_IS_FILEINODE : UInt16 := 2
def ENTRYINFO_FEATURE_INLINED : UInt32 := 1

/-- The dentry information that is stored on disk. -/
structure DentryStoreData where
  entryID : String
  entryType : DirEntryType
  ownerNodeID : UInt16
  dentryFeatureFlags : UInt16
deriving DecidableEq

/-- The file of a dentry. For inlined inodes it has the serialized inode, too. -/
structure DentryFile where
  dentryDiskData : DentryStoreData
  inodeData : List UInt8
deriving DecidableEq

structure DirEntry where
  dentryDiskData : DentryStoreData
  name : String
deriving DecidableEq

namespace DirEntry

def entryID (e : DirEntry) : String := e.dentryDiskData.entryID

def entryType (e : DirEntry) : DirEntryType := e.dentryDiskData.entryType

variable (e : DirEntry)

def getIsInodeInlined : Bool :=
  e.dentryDiskData.dentryFeatureFlags &&& DENTRY_FEATURE_INODE_INLINE != 0

variable (parentEntryID : String)

def getEntryInfo (flags : UInt32) : EntryInfo where
  ownerNodeID := e.dentryDiskData.ownerNodeID
  parentEntryID := parentEntryID
  entryID := e.entryID
  fileName := e.name
  entryType := e.entryType
  statFlags := if e.getIsInodeInlined then flags ||| ENTRYINFO_FEATURE_INLINED else flags

@[simp] theorem entryID_getEntryInfo (flags : UInt32) :
    (e.getEntryInfo parentEntryID flags).entryID = e.entryID := rfl

@[simp] theorem entryType_getEntryInfo
    (flags : UInt32) : (e.getEntryInfo parentEntryID flags).entryType = e.entryType := rfl

end DirEntry

/-- The dentries of a directory on disk, by name. -/
abbrev DentryMap := OrderedMap String DentryFile

def DentryMap.dirEntryCreateFromFile (entries : DentryMap) (entryName : String) : Option DirEntry :=
  (entries.find entryName).map (fun file => ⟨file.dentryDiskData, entryName⟩)

/-- Check if overwriting an entry on rename is allowed. The second component tells whether both
entries have the same inode. -/
def checkRenameOverwrite (fromEntry overWriteEntry : EntryInfo) : FhgfsOpsErr × Bool :=
  if fromEntry.entryID = overWriteEntry.entryID then (.SUCCESS, true)
  else if overWriteEntry.entryType = .DIRECTORY then (.EXISTS, false)
  else if fromEntry.entryType = .DIRECTORY then (.EXISTS, false)
  else (.SUCCESS, false)

/-- The renames that are not done: to an entry of the same inode, to a directory, and of a directory
to an existing entry. -/
theorem checkRenameOverwrite_refuses (fromEntry overWriteEntry : EntryInfo) :
    (checkRenameOverwrite fromEntry overWriteEntry).2 = true ∨
      (checkRenameOverwrite fromEntry overWriteEntry).1 ≠ .SUCCESS ↔
    overWriteEntry.entryID = fromEntry.entryID ∨ overWriteEntry.entryType = .DIRECTORY ∨
      fromEntry.entryType = .DIRECTORY := by
  unfold checkRenameOverwrite
  split_ifs with hSame hOver hFrom
  · simp [hSame]
  · simp [hOver]
  · simp [hFrom]
  · simp [Ne.symm hSame, hOver, hFrom]

end Fhgfs.Storage
