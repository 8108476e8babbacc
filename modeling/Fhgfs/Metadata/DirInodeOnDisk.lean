import Fhgfs.Metadata.DiskMetaDataRoundTrip
import Fhgfs.Metadata.FileInode
import Fhgfs.Metadata.FileStripePattern

/-!
# Directory inodes, on disk and in memory

The writer always uses the newest layout, with the number of subdirectories in front of the
attributes and with flags of the attributes. The reader knows the older layouts by the feature
flags. `deserializeDirInode_serializeDirInode_iff` says when a directory inode is read back, and
`honest_setters_iff` when a setter reports what became of its change.
-/

namespace Fhgfs.Metadata

open Wire Serialization List

def DIRINODE_FEATURE_EARLY_SUBDIRS : UInt16 := 2
def DIRINODE_FEATURE_MIRRORED : UInt16 := 4
def DIRINODE_FEATURE_STATFLAGS : UInt16 := 8

def DIRECTORY_STORAGE_FORMAT_VER : UInt8 := 1

def META_SERBUF_SIZE : Nat := 1024 * 8

def getSupportedDirInodeFeatureFlags : UInt32 :=
  (DIRINODE_FEATURE_EARLY_SUBDIRS ||| DIRINODE_FEATURE_MIRRORED |||
    DIRINODE_FEATURE_STATFLAGS).toUInt32

/-- The inode of a directory. Only `exclusive` is not stored. -/
structure DirInode where
  id : List UInt8
  ownerNodeID : UInt16
  stripePattern : StripePattern
  parentDirID : List UInt8
  parentNodeID : UInt16
  featureFlags : UInt16
  mirrorNodeID : UInt16
  exclusive : Bool
  numSubdirs : UInt32
  numFiles : UInt32
  statData : StatData
deriving DecidableEq

namespace DirInode

def hasFeatureFlag (flag : UInt16) (d : DirInode) : Bool := d.featureFlags &&& flag != 0

/-- The flags of the newest layout are set when an inode is stored. -/
def setLayoutFlags (d : DirInode) : DirInode :=
  { d with
    featureFlags := d.featureFlags |||
      (DIRINODE_FEATURE_EARLY_SUBDIRS ||| DIRINODE_FEATURE_STATFLAGS) }

def serializeMirrorNodeID (d : DirInode) : Encoding :=
  if d.hasFeatureFlag DIRINODE_FEATURE_MIRRORED then serializeUInt16 d.mirrorNodeID else []

def serializeFields (d : DirInode) : Encoding :=
  serializeUInt8 DiskMetaDataType.DIRINODE.toUInt8 ++
    (serializeUInt8 DIRECTORY_STORAGE_FORMAT_VER ++ (serializeUInt16 d.featureFlags ++
      (serializeUInt d.numSubdirs ++ (d.statData.serialize true true false ++
        (serializeUInt d.numFiles ++ (serializeStrAlign4 d.id ++
          (serializeStrAlign4 d.parentDirID ++ (serializeUInt16 d.ownerNodeID ++
            (serializeUInt16 d.parentNodeID ++ (d.serializeMirrorNodeID ++
              d.stripePattern.serialize))))))))))

/-- The inode is changed as `setLayoutFlags` does. -/
def serializeDirInode (d : DirInode) : Encoding := d.setLayoutFlags.serializeFields

/-- The number of subdirectories, if the inode has it at this place. -/
def deserializeNumSubdirs (here : Bool) (d : DirInode) : Reader DirInode :=
  if here then do
    let numSubdirs ← deserializeUInt
    pure { d with numSubdirs := numSubdirs }
  else pure d

def deserializeMirrorNodeID (d : DirInode) : Reader DirInode :=
  if d.hasFeatureFlag DIRINODE_FEATURE_MIRRORED then do
    let mirrorNodeID ← deserializeUInt16
    pure { d with mirrorNodeID := mirrorNodeID }
  else pure d

def deserializeFields (d : DirInode) : Reader DirInode := do
  let metaDataType ← deserializeUInt8
  ensure (metaDataType == DiskMetaDataType.DIRINODE.toUInt8)
  let _ ← deserializeUInt8
  let featureFlags ← deserializeUInt16
  ensure (checkFeatureFlagsCompat featureFlags.toUInt32 getSupportedDirInodeFeatureFlags)
  let d := { d with featureFlags := featureFlags }
  let d ← d.deserializeNumSubdirs (d.hasFeatureFlag DIRINODE_FEATURE_EARLY_SUBDIRS)
  let statData ← d.statData.deserialize true (d.hasFeatureFlag DIRINODE_FEATURE_STATFLAGS) false
  let d := { d with statData := statData }
  let d ← d.deserializeNumSubdirs (!d.hasFeatureFlag DIRINODE_FEATURE_EARLY_SUBDIRS)
  let numFiles ← deserializeUInt
  let id ← deserializeStrAlign4
  let parentDirID ← deserializeStrAlign4
  let ownerNodeID ← deserializeUInt16
  let parentNodeID ← deserializeUInt16
  let d ← deserializeMirrorNodeID
    { d with
      numFiles := numFiles
      id := id
      parentDirID := parentDirID
      ownerNodeID := ownerNodeID
      parentNodeID := parentNodeID }
  let stripePattern ← StripePattern.deserialize
  pure { d with stripePattern := stripePattern }

/-- The size of the data is not known: the length is that of the largest buffer. -/
def deserializeDirInode (buf : List UInt8) (d : DirInode) : Except ReadError DirInode :=
  match d.deserializeFields ⟨buf, META_SERBUF_SIZE⟩ with
  | .error e => .error e
  | .ok (d, _) => .ok d

/-! ## Round trip -/

/-- `d'` has what is stored of `d`, and what is not stored of the object `d₀` it was read into. -/
structure Restored (d d₀ d' : DirInode) : Prop where
  featureFlags : d'.featureFlags = d.setLayoutFlags.featureFlags
  numSubdirs : d'.numSubdirs = d.numSubdirs
  statData : d'.statData =
    { d.statData with
      fileSize := d₀.statData.fileSize
      nlink := d₀.statData.nlink
      contentsVersion := d₀.statData.contentsVersion
      chunkBlocksVec :=
        if d.statData.getIsSparseFile then
          ⟨d₀.statData.chunkBlocksVec.chunkBlocksVec ++ d.statData.chunkBlocksVec.chunkBlocksVec⟩
        else d₀.statData.chunkBlocksVec }
  numFiles : d'.numFiles = d.numFiles
  id : d'.id = storedStr d.id
  parentDirID : d'.parentDirID = storedStr d.parentDirID
  ownerNodeID : d'.ownerNodeID = d.ownerNodeID
  parentNodeID : d'.parentNodeID = d.parentNodeID
  mirrorNodeID : d'.mirrorNodeID =
    if d.hasFeatureFlag DIRINODE_FEATURE_MIRRORED then d.mirrorNodeID else d₀.mirrorNodeID
  stripePattern : d'.stripePattern = d.stripePattern.normalized
  exclusive : d'.exclusive = d₀.exclusive

/-- The flags that an inode is stored with are known to the reader. -/
def FlagsSupported (d : DirInode) : Prop :=
  checkFeatureFlagsCompat d.setLayoutFlags.featureFlags.toUInt32
    getSupportedDirInodeFeatureFlags = true

theorem metaSerbufSize_lt : META_SERBUF_SIZE + 8 < 2 ^ 32 := by decide

section Flags

variable (d : DirInode)

theorem or_and_eq {flags flag : UInt16} (hSet : flags &&& flag = flag) (a : UInt16) :
    (a ||| flags) &&& flag = flag := by
  rw [← UInt16.toBitVec_inj] at hSet ⊢
  ext i hi
  have hBit := congrArg (fun bits => bits.getLsbD i) hSet
  simp at hBit ⊢
  grind

theorem setLayoutFlags_earlySubdirs :
    d.setLayoutFlags.hasFeatureFlag DIRINODE_FEATURE_EARLY_SUBDIRS = true := by
  rw [hasFeatureFlag, setLayoutFlags, or_and_eq (by decide)]
  decide

theorem setLayoutFlags_statFlags :
    d.setLayoutFlags.hasFeatureFlag DIRINODE_FEATURE_STATFLAGS = true := by
  rw [hasFeatureFlag, setLayoutFlags, or_and_eq (by decide)]
  decide

theorem setLayoutFlags_mirrored :
    d.setLayoutFlags.hasFeatureFlag DIRINODE_FEATURE_MIRRORED =
      d.hasFeatureFlag DIRINODE_FEATURE_MIRRORED := by
  have hFlags : (d.featureFlags |||
      (DIRINODE_FEATURE_EARLY_SUBDIRS ||| DIRINODE_FEATURE_STATFLAGS)) &&&
      DIRINODE_FEATURE_MIRRORED = d.featureFlags &&& DIRINODE_FEATURE_MIRRORED := by
    rw [← UInt16.toBitVec_inj]
    exact BitVec.and_or_distrib_right.trans (BitVec.or_zero)
  rw [hasFeatureFlag, hasFeatureFlag, setLayoutFlags, hFlags]

end Flags

variable {d d₀ : DirInode}

theorem hasFeatureFlag_congr (hFlags : d₀.featureFlags = d.featureFlags) (flag : UInt16) :
    d₀.hasFeatureFlag flag = d.hasFeatureFlag flag := by
  rw [hasFeatureFlag, hFlags, hasFeatureFlag]

theorem reads_mirrorNodeID (hFlags : d₀.featureFlags = d.featureFlags) :
    Reads d₀.deserializeMirrorNodeID d.serializeMirrorNodeID { d₀ with
        mirrorNodeID :=
          if d.hasFeatureFlag DIRINODE_FEATURE_MIRRORED then d.mirrorNodeID
          else d₀.mirrorNodeID } := by
  unfold serializeMirrorNodeID deserializeMirrorNodeID
  rw [hasFeatureFlag_congr hFlags]
  cases d.hasFeatureFlag DIRINODE_FEATURE_MIRRORED with
  | true =>
    apply (reads_uint16 _).bind_of_nil
    exact .pure _
  | false => exact .pure _

/-- `d₀` after `d`, with the flags of the layout, was read into it. -/
def readInto (d d₀ : DirInode) : DirInode where
  id := storedStr d.id
  ownerNodeID := d.ownerNodeID
  stripePattern := d.stripePattern.normalized
  parentDirID := storedStr d.parentDirID
  parentNodeID := d.parentNodeID
  featureFlags := d.featureFlags
  mirrorNodeID :=
    if d.hasFeatureFlag DIRINODE_FEATURE_MIRRORED then d.mirrorNodeID else d₀.mirrorNodeID
  exclusive := d₀.exclusive
  numSubdirs := d.numSubdirs
  numFiles := d.numFiles
  statData := d.statData.readInto true true false d₀.statData

theorem reads_numSubdirs {here : Bool} (hHere : here = true) (numSubdirs : UInt32) (d₀ : DirInode) :
    Reads (d₀.deserializeNumSubdirs here) (serializeUInt numSubdirs)
      { d₀ with numSubdirs := numSubdirs } := by
  rw [hHere]
  apply (reads_uint _).bind_of_nil
  exact .pure _

theorem reads_noNumSubdirs {here : Bool} (hHere : here = false) (d₀ : DirInode) :
    Reads (d₀.deserializeNumSubdirs here) [] d₀ := by
  rw [hHere]
  exact .pure _

theorem reads_statData {hasFlags : Bool} {s : StatData} (hFlags : hasFlags = true)
    (hFits : (s.serialize true true false).length < 2 ^ 32) (s₀ : StatData) :
    Reads (s₀.deserialize true hasFlags false) (s.serialize true true false)
      (s.readInto true true false s₀) := by
  rw [hFlags]
  exact StatData.reads_statData hFits s₀

theorem rejects_flags (hFlags : checkFeatureFlagsCompat d.featureFlags.toUInt32
      getSupportedDirInodeFeatureFlags = false) (d₀ : DirInode) :
    Rejects d₀.deserializeFields d.serializeFields := by
  apply (reads_uint8 _).bind_rejects
  apply (Reads.ensure (beq_self_eq_true _)).bind_rejects
  apply (reads_uint8 _).bind_rejects
  apply (reads_uint16 _).bind_rejects
  exact ((Rejects.ensure hFlags).bind _).append _

section

variable (hFlags : checkFeatureFlagsCompat d.featureFlags.toUInt32
    getSupportedDirInodeFeatureFlags = true)
  (hEarly : d.hasFeatureFlag DIRINODE_FEATURE_EARLY_SUBDIRS = true)
  (hStat : d.hasFeatureFlag DIRINODE_FEATURE_STATFLAGS = true)
  (hFits : d.serializeFields.length ≤ META_SERBUF_SIZE) (d₀ : DirInode)
include hFlags hEarly hStat hFits

theorem reads_fields (hChunk : d.stripePattern.chunkSize ≠ 0) :
    Reads d₀.deserializeFields d.serializeFields (d.readInto d₀) := by
  have hMax := metaSerbufSize_lt
  simp only [serializeFields, length_append] at hFits
  apply Reads.of_eq
  · apply (reads_uint8 _).bind
    apply (Reads.ensure (beq_self_eq_true _)).bind
    apply (reads_uint8 _).bind
    apply (reads_uint16 _).bind
    apply (Reads.ensure hFlags).bind
    apply (reads_numSubdirs hEarly _ _).bind
    apply (reads_statData hStat (by omega) _).bind
    apply (reads_noNumSubdirs (congrArg not hEarly) _).bind
    apply (reads_uint _).bind
    apply (reads_storedStr (by omega)).bind
    apply (reads_storedStr (by omega)).bind
    apply (reads_uint16 _).bind
    apply (reads_uint16 _).bind
    apply (reads_mirrorNodeID (by rfl)).bind
    apply (StripePattern.reads_stripePattern hChunk (by omega)).bind_of_nil
    exact .pure _
  · rfl

theorem rejects_noChunkSize (hChunk : d.stripePattern.chunkSize = 0) :
    Rejects d₀.deserializeFields d.serializeFields := by
  have hMax := metaSerbufSize_lt
  simp only [serializeFields, length_append] at hFits
  apply (reads_uint8 _).bind_rejects
  apply (Reads.ensure (beq_self_eq_true _)).bind_rejects
  apply (reads_uint8 _).bind_rejects
  apply (reads_uint16 _).bind_rejects
  apply (Reads.ensure hFlags).bind_rejects
  apply (reads_numSubdirs hEarly _ _).bind_rejects
  apply (reads_statData hStat (by omega) _).bind_rejects
  apply (reads_noNumSubdirs (congrArg not hEarly) _).bind_rejects
  apply (reads_uint _).bind_rejects
  apply (reads_storedStr (by omega)).bind_rejects
  apply (reads_storedStr (by omega)).bind_rejects
  apply (reads_uint16 _).bind_rejects
  apply (reads_uint16 _).bind_rejects
  apply (reads_mirrorNodeID (by rfl)).bind_rejects
  exact (StripePattern.rejects_stripePattern hChunk).bind _

end

/-- The memory has anything in the unwritten bytes of the encoding and behind it. -/
theorem deserializeDirInode_serializeDirInode_iff (d d₀ : DirInode) (mem rest : List UInt8)
    (hFits : d.serializeDirInode.length ≤ META_SERBUF_SIZE)
    (hMem : Fills d.serializeDirInode mem) :
    (∃ d', d₀.deserializeDirInode (mem ++ rest) = .ok d' ∧ d.Restored d₀ d') ↔
      d.FlagsSupported ∧ d.stripePattern.chunkSize ≠ 0 := by
  have hEarly := d.setLayoutFlags_earlySubdirs
  have hStat := d.setLayoutFlags_statFlags
  have hLen : mem.length ≤ META_SERBUF_SIZE := by rwa [hMem.length_eq]
  have hRejected : Rejects d₀.deserializeFields d.serializeDirInode →
      ¬∃ d', d₀.deserializeDirInode (mem ++ rest) = .ok d' ∧ d.Restored d₀ d' := by
    rintro hRejects ⟨d', hOk, -⟩
    obtain ⟨e, hError⟩ := hRejects mem rest META_SERBUF_SIZE hMem hLen
    rw [deserializeDirInode, hError] at hOk
    cases hOk
  constructor
  · intro hRestored
    by_contra hNot
    apply hRejected _ hRestored
    by_cases hFlags : d.FlagsSupported
    · have hChunk : d.stripePattern.chunkSize = 0 := by
        by_contra hChunk
        exact hNot ⟨hFlags, hChunk⟩
      exact rejects_noChunkSize hFlags hEarly hStat hFits d₀ hChunk
    · exact rejects_flags (eq_false_of_ne_true hFlags) d₀
  · rintro ⟨hFlags, hChunk⟩
    have hReads := reads_fields hFlags hEarly hStat hFits d₀ hChunk mem rest META_SERBUF_SIZE
      hMem hLen
    refine ⟨d.setLayoutFlags.readInto d₀, ?_, ?_⟩
    · rw [deserializeDirInode, hReads]
    · constructor
      case mirrorNodeID =>
        rw [← setLayoutFlags_mirrored]
        rfl
      all_goals rfl

/-- A directory with a mirror, stored with sparse attributes. -/
def mirroredDirectory (featureFlags : UInt16) : DirInode where
  id := [68]
  ownerNodeID := 1
  stripePattern := ⟨4, .buddyMirror [1], 4, 1⟩
  parentDirID := [82]
  parentNodeID := 2
  featureFlags := featureFlags
  mirrorNodeID := 3
  exclusive := true
  numSubdirs := 5
  numFiles := 6
  statData := ⟨STATDATA_FEATURE_SPARSE_FILE, 4, 0, 0, 1, ⟨0, 7, 0, 0, 0⟩, 0, ⟨[8]⟩⟩

def emptyDirectory : DirInode where
  id := []
  ownerNodeID := 0
  stripePattern := ⟨0, .raid0 [], 0, 0⟩
  parentDirID := []
  parentNodeID := 0
  featureFlags := 0
  mirrorNodeID := 0
  exclusive := false
  numSubdirs := 0
  numFiles := 0
  statData := ⟨0, 0, 0, 0, 0, ⟨0, 0, 0, 0, 0⟩, 0, ⟨[]⟩⟩

theorem deserializeDirInode_mirroredDirectory :
    (mirroredDirectory DIRINODE_FEATURE_MIRRORED).FlagsSupported ∧
      ∃ d', emptyDirectory.deserializeDirInode
          (fill (fun _ => 255) (mirroredDirectory DIRINODE_FEATURE_MIRRORED).serializeDirInode) =
          .ok d' ∧
        (mirroredDirectory DIRINODE_FEATURE_MIRRORED).Restored emptyDirectory d' := by
  have hFlags : (mirroredDirectory DIRINODE_FEATURE_MIRRORED).FlagsSupported := by
    unfold FlagsSupported
    decide
  refine ⟨hFlags, ?_⟩
  obtain ⟨d', hOk, hRestored⟩ := (deserializeDirInode_serializeDirInode_iff
    (mirroredDirectory DIRINODE_FEATURE_MIRRORED) emptyDirectory _ [] (by decide +kernel)
    (fills_fill (fun _ => 255) _)).mpr ⟨hFlags, by decide⟩
  rw [append_nil] at hOk
  exact ⟨d', hOk, hRestored⟩

/-- The flag of a feature that this version does not have. -/
theorem not_deserializeDirInode_unsupportedFlag :
    (mirroredDirectory 16).serializeDirInode.length ≤ META_SERBUF_SIZE ∧
      ∃ mem, Fills (mirroredDirectory 16).serializeDirInode mem ∧
        ∀ d', emptyDirectory.deserializeDirInode mem ≠ .ok d' := by
  have hFits : (mirroredDirectory 16).serializeDirInode.length ≤ META_SERBUF_SIZE := by
    decide +kernel
  have hFills := fills_fill (fun _ => 0) (mirroredDirectory 16).serializeDirInode
  refine ⟨hFits, _, hFills, ?_⟩
  intro d' hOk
  obtain ⟨e, hError⟩ := rejects_flags (by decide : checkFeatureFlagsCompat
    (mirroredDirectory 16).setLayoutFlags.featureFlags.toUInt32
    getSupportedDirInodeFeatureFlags = false) emptyDirectory _ [] META_SERBUF_SIZE hFills
    (by rwa [hFills.length_eq])
  rw [append_nil] at hError
  rw [deserializeDirInode, hError] at hOk
  cases hOk

end DirInode

/-! ## Setters -/

namespace DirInode

/-- The change time, and the attributes that the flags tell. -/
def changeAttribs (nowSecs : Int64) (validAttribs : UInt32) (attribs : SettableFileAttribs)
    (d : DirInode) : DirInode :=
  let given := fun flag =>
    if validAttribs &&& flag ≠ 0 then attribs else d.statData.settableFileAttribs
  { d with
    statData.attribChangeTimeSecs := nowSecs
    statData.settableFileAttribs :=
      { mode := (given SETATTR_CHANGE_MODE).mode
        userID := (given SETATTR_CHANGE_USERID).userID
        groupID := (given SETATTR_CHANGE_GROUPID).groupID
        modificationTimeSecs := (given SETATTR_CHANGE_MODIFICATIONTIME).modificationTimeSecs
        lastAccessTimeSecs := (given SETATTR_CHANGE_LASTACCESSTIME).lastAccessTimeSecs } }

def changeParent (nowSecs : Int64) (parentEntryID : List UInt8) (parentNodeID : UInt16)
    (d : DirInode) : DirInode :=
  { d with parentDirID := parentEntryID, parentNodeID := parentNodeID }.changeAttribs nowSecs 0
    ⟨0, 0, 0, 0, 0⟩

def setMirrorNodeIDUnlocked (mirrorNodeID : UInt16) (d : DirInode) : DirInode :=
  { d with
    featureFlags := d.featureFlags ||| DIRINODE_FEATURE_MIRRORED
    mirrorNodeID := mirrorNodeID }

/-- A user who is not root changes only two values of the pattern. -/
def changeStripePattern (newPattern : StripePattern) (actorUID : UInt32) (d : DirInode) :
    DirInode :=
  { d with
    stripePattern :=
      if actorUID ≠ 0 then
        (d.stripePattern.setDefaultNumTargets newPattern.getDefaultNumTargets).setChunkSize
          newPattern.getChunkSize
      else newPattern.clone }

end DirInode

/-- The object of a directory, the inode on disk, and how often that was stored. -/
structure StoredDir where
  inode : DirInode
  isLoaded : Bool
  disk : DirInode
  numStores : Nat

/-- `partlyRead` is what a load that fails leaves in the object. -/
structure DirOutcomes where
  nowSecs : Int64
  loadRes : Bool
  partlyRead : DirInode
  saveRes : Bool

namespace StoredDir

variable {ρ : Type} (o : DirOutcomes)

/-- The persistent fields that the next access finds. -/
def fields (d : StoredDir) : DirInode := if d.isLoaded then d.inode else d.disk

def loadIfNotLoadedUnlocked (d : StoredDir) : StoredDir × Bool :=
  if d.isLoaded then (d, true)
  else if o.loadRes then ({ d with inode := d.disk, isLoaded := true }, true)
  else ({ d with inode := o.partlyRead }, false)

def storeUpdatedMetaDataUnlocked (d : StoredDir) : StoredDir × Bool :=
  if !d.isLoaded then (d, false)
  else
    let d := { d with inode := d.inode.setLayoutFlags }
    if o.saveRes then ({ d with disk := d.inode, numStores := d.numStores + 1 }, true)
    else (d, false)

/-- What the setters have in common. `restore` gets the old inode and the changed one. -/
def set (ok notLoaded refused notStored : ρ) (refuses : DirInode → Bool)
    (change : DirInode → DirInode) (restore : DirInode → DirInode → DirInode) (d : StoredDir) :
    StoredDir × ρ :=
  let loaded := d.loadIfNotLoadedUnlocked o
  if !loaded.2 then (loaded.1, notLoaded)
  else if refuses loaded.1.inode then (loaded.1, refused)
  else
    let stored := storeUpdatedMetaDataUnlocked o { loaded.1 with inode := change loaded.1.inode }
    if stored.2 then (stored.1, ok)
    else ({ stored.1 with inode := restore loaded.1.inode stored.1.inode }, notStored)

def restoreAttribs (old d : DirInode) : DirInode :=
  { d with statData.settableFileAttribs := old.statData.settableFileAttribs }

/-- Without the inode, the error code of `PATHNOTEXISTS` is returned as a `bool`. -/
def setAttrDataUnlocked (validAttribs : UInt32) (attribs : SettableFileAttribs) :
    StoredDir → StoredDir × Bool :=
  set o true (FhgfsOpsErr.PATHNOTEXISTS.code != 0) false false (fun _ => false)
    (·.changeAttribs o.nowSecs validAttribs attribs) restoreAttribs

/-- The attributes are `NULL`. -/
def setDirParentAndChangeTime (parentEntryID : List UInt8) (parentNodeID : UInt16)
    (d : StoredDir) : StoredDir × FhgfsOpsErr :=
  let loaded := d.loadIfNotLoadedUnlocked o
  if !loaded.2 then (loaded.1, .PATHNOTEXISTS)
  else
    let changed := setAttrDataUnlocked o 0 ⟨0, 0, 0, 0, 0⟩
      { loaded.1 with inode.parentDirID := parentEntryID, inode.parentNodeID := parentNodeID }
    (changed.1, if changed.2 then .SUCCESS else .INTERNAL)

def setStripePattern (newPattern : StripePattern) (actorUID : UInt32) :
    StoredDir → StoredDir × FhgfsOpsErr :=
  set o .SUCCESS .INTERNAL .PERM .INTERNAL
    (fun d => actorUID ≠ 0 ∧ d.statData.settableFileAttribs.userID ≠ actorUID)
    (·.changeStripePattern newPattern actorUID) fun old d =>
      { d with
        stripePattern := if actorUID ≠ 0 then old.stripePattern.clone else old.stripePattern }

def setOwnerNodeID (newOwner : UInt16) : StoredDir → StoredDir × Bool :=
  set o true false false false (fun _ => false) ({ · with ownerNodeID := newOwner }) fun old d =>
    { d with ownerNodeID := old.ownerNodeID }

def setAndStoreMirrorNodeIDChecked (mirrorNodeID : UInt16) : StoredDir → StoredDir × FhgfsOpsErr :=
  set o .SUCCESS .PATHNOTEXISTS .INVAL .SAVEERROR (·.mirrorNodeID ≠ 0)
    (·.setMirrorNodeIDUnlocked mirrorNodeID) fun _ d =>
      { d with
        featureFlags := d.featureFlags &&& ~~~DIRINODE_FEATURE_MIRRORED
        mirrorNodeID := 0 }

/-- Success only if the requested values were stored, and otherwise the fields as they were. -/
def Honest (d : StoredDir) (requested : DirInode → DirInode) (success : ρ) (r : StoredDir × ρ) :
    Prop :=
  (r.2 = success → r.1.numStores = d.numStores + 1 ∧
    r.1.disk = (requested d.fields).setLayoutFlags) ∧ (r.2 ≠ success → r.1.fields = d.fields)

variable {o} {d : StoredDir}

theorem loadIfNotLoadedUnlocked_eq :
    d.loadIfNotLoadedUnlocked o =
      if d.isLoaded ∨ o.loadRes then ({ d with inode := d.fields, isLoaded := true }, true)
      else ({ d with inode := o.partlyRead }, false) := by
  obtain ⟨inode, isLoaded, disk, numStores⟩ := d
  unfold loadIfNotLoadedUnlocked fields
  cases isLoaded <;> cases o.loadRes <;> rfl

theorem honest_set_iff {ok notLoaded refused notStored : ρ} {refuses : DirInode → Bool}
    {change : DirInode → DirInode} {restore : DirInode → DirInode → DirInode}
    (hRefused : refused ≠ ok) (hNotStored : notStored ≠ ok) :
    d.Honest change ok (d.set o ok notLoaded refused notStored refuses change restore) ↔
      if d.isLoaded ∨ o.loadRes then
        refuses d.fields ∨ o.saveRes ∨ restore d.fields (change d.fields).setLayoutFlags = d.fields
      else notLoaded ≠ ok := by
  unfold Honest set
  rw [loadIfNotLoadedUnlocked_eq]
  split_ifs with hLoaded
  · generalize d.fields = old
    by_cases hRefuses : refuses old
    · simp [hRefuses, hRefused, fields]
    · cases hSave : o.saveRes <;>
        simp [hRefuses, storeUpdatedMetaDataUnlocked, hSave, hNotStored, fields]
  · simp [fields, (not_or.mp hLoaded).1]

theorem flags_cleared_iff (mirrored layout : UInt16) (h : layout &&& ~~~mirrored = layout)
    (flags : UInt16) :
    (flags ||| mirrored ||| layout) &&& ~~~mirrored = flags ↔
      flags ||| layout = flags ∧ flags &&& ~~~mirrored = flags := by
  simp only [← UInt16.toBitVec_inj, UInt16.toBitVec_and, UInt16.toBitVec_or, UInt16.toBitVec_not,
    BitVec.eq_of_getLsbD_eq_iff, BitVec.getLsbD_and, BitVec.getLsbD_or, BitVec.getLsbD_not] at *
  grind

/-- When each setter reports the truth. -/
theorem honest_setters_iff (o : DirOutcomes) (d : StoredDir) :
    let loads : Prop := d.isLoaded ∨ o.loadRes
    let old := d.fields
    let flagsSet := old.setLayoutFlags = old
    (∀ validAttribs attribs,
      d.Honest (·.changeAttribs o.nowSecs validAttribs attribs) true
          (d.setAttrDataUnlocked o validAttribs attribs) ↔
        loads ∧ (o.saveRes ∨ flagsSet ∧ o.nowSecs = old.statData.attribChangeTimeSecs)) ∧
    (∀ parentEntryID parentNodeID,
      d.Honest (·.changeParent o.nowSecs parentEntryID parentNodeID) .SUCCESS
          (d.setDirParentAndChangeTime o parentEntryID parentNodeID) ↔
        (loads → o.saveRes ∨ parentEntryID = old.parentDirID ∧ parentNodeID = old.parentNodeID ∧
          flagsSet ∧ o.nowSecs = old.statData.attribChangeTimeSecs)) ∧
    (∀ newPattern actorUID,
      d.Honest (·.changeStripePattern newPattern actorUID) .SUCCESS
          (d.setStripePattern o newPattern actorUID) ↔
        (loads → actorUID ≠ 0 ∧ old.statData.settableFileAttribs.userID ≠ actorUID ∨ o.saveRes ∨
          (actorUID ≠ 0 → old.stripePattern.clone = old.stripePattern) ∧ flagsSet)) ∧
    (∀ newOwner,
      d.Honest ({ · with ownerNodeID := newOwner }) true (d.setOwnerNodeID o newOwner) ↔
        (loads → o.saveRes ∨ flagsSet)) ∧
    ∀ mirrorNodeID,
      d.Honest (·.setMirrorNodeIDUnlocked mirrorNodeID) .SUCCESS
          (d.setAndStoreMirrorNodeIDChecked o mirrorNodeID) ↔
        (loads → old.mirrorNodeID ≠ 0 ∨ o.saveRes ∨
          flagsSet ∧ old.featureFlags &&& ~~~DIRINODE_FEATURE_MIRRORED = old.featureFlags) := by
  have hParent (parentEntryID : List UInt8) (parentNodeID : UInt16) :
      d.setDirParentAndChangeTime o parentEntryID parentNodeID =
        d.set o .SUCCESS .PATHNOTEXISTS .INTERNAL .INTERNAL (fun _ => false)
          (·.changeParent o.nowSecs parentEntryID parentNodeID) restoreAttribs := by
    unfold setDirParentAndChangeTime setAttrDataUnlocked set storeUpdatedMetaDataUnlocked
    simp only [loadIfNotLoadedUnlocked_eq]
    by_cases hLoaded : d.isLoaded ∨ o.loadRes
    · cases o.saveRes <;> simp [hLoaded] <;> rfl
    · simp [hLoaded]
  simp only [hParent]
  refine ⟨fun _ _ => ?_, fun _ _ => ?_, fun _ _ => ?_, fun _ => ?_, fun _ => ?_⟩
  all_goals
    refine (honest_set_iff (by nofun) (by nofun)).trans ?_
    generalize d.fields = old
    obtain ⟨_, _, _, _, _, _, _, _, _, _, ⟨_, _, _, _, _, _, _, _⟩⟩ := old
  · have hTrue : (FhgfsOpsErr.PATHNOTEXISTS.code != 0) = true := rfl
    simp [DirInode.changeAttribs, DirInode.setLayoutFlags, restoreAttribs, hTrue]
  · simp [DirInode.changeParent, DirInode.changeAttribs, DirInode.setLayoutFlags, restoreAttribs]
  · simp [DirInode.changeStripePattern, DirInode.setLayoutFlags]
  · simp [DirInode.setLayoutFlags]
  · have hFlags := flags_cleared_iff DIRINODE_FEATURE_MIRRORED
      (DIRINODE_FEATURE_EARLY_SUBDIRS ||| DIRINODE_FEATURE_STATFLAGS) rfl
    simp [DirInode.setMirrorNodeIDUnlocked, DirInode.setLayoutFlags, hFlags]
    grind

/-- A load that fails is reported as success. -/
theorem not_honest_setAttrData :
    let d : StoredDir := ⟨DirInode.emptyDirectory, false, DirInode.emptyDirectory, 0⟩
    ¬ d.Honest (·.changeAttribs 1 0 ⟨0, 0, 0, 0, 0⟩) true
      (d.setAttrDataUnlocked ⟨1, false, d.inode, true⟩ 0 ⟨0, 0, 0, 0, 0⟩) :=
  fun h => absurd (h.1 rfl).1 (by decide)

end StoredDir

end Fhgfs.Metadata
