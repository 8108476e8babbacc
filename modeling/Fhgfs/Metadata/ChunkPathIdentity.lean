import Fhgfs.Lib.Run
import Fhgfs.Metadata.DiskMetaDataRoundTrip
import Fhgfs.Metadata.FileInode

/-!
# The identity of chunk paths

The original owner and the original parent directory of a file are stored only when they cannot be
taken from the owner and the directory. `Identified` is the invariant: an ID that no flag tells to
be stored can still be taken from there. `getPathInfo_after`: no operation changes the path.
-/

namespace Fhgfs.Metadata

open Wire Serialization Storage FileInodeStoreData FileInode

/-! ## Feature flags -/

theorem and_or_distrib (a b c : UInt32) : (a ||| b) &&& c = (a &&& c) ||| (b &&& c) := by
  rw [← UInt32.toBitVec_inj]
  exact BitVec.and_or_distrib_right

theorem checkFeatureFlagsCompat_or {a b supported : UInt32}
    (ha : checkFeatureFlagsCompat a supported = true)
    (hb : checkFeatureFlagsCompat b supported = true) :
    checkFeatureFlagsCompat (a ||| b) supported = true := by
  unfold checkFeatureFlagsCompat at ha hb ⊢
  rw [beq_iff_eq] at ha hb ⊢
  rw [and_or_distrib, ha, hb, UInt32.or_self]

theorem checkFeatureFlagsCompat_and {a supported : UInt32} (b : UInt32)
    (ha : checkFeatureFlagsCompat a supported = true) :
    checkFeatureFlagsCompat (a &&& b) supported = true := by
  unfold checkFeatureFlagsCompat at ha ⊢
  rw [beq_iff_eq] at ha ⊢
  rw [UInt32.and_comm a, UInt32.and_assoc, ha, UInt32.and_zero]

namespace FileInodeStoreData

/-- The file keeps its original IDs. Those that no flag marks as stored are the IDs of its owner
and of its directory. -/
structure Identified (origUID : UInt32) (origParentID parentEntryID : List UInt8)
    (d : FileInodeStoreData) : Prop where
  hOrigFeature : d.origFeature = .TRUE
  hOrigUID : d.origParentUID = origUID
  hOrigUIDKnown : d.OrigUIDKnown
  hOrigParentID : d.origParentEntryID = origParentID
  hOrigParentIDKnown : d.hasInodeFeatureFlag FILEINODE_FEATURE_HAS_ORIG_PARENTID = false →
    parentEntryID = origParentID
  hFlags : checkFeatureFlagsCompat d.inodeFeatureFlags
    getSupportedDentryV5FileInodeFeatureFlags = true
  hChunk : d.stripePattern.chunkSize ≠ 0

variable {origUID : UInt32} {origParentID parentEntryID : List UInt8} {d : FileInodeStoreData}

theorem hasInodeFeatureFlag_addInodeFeatureFlag (flag flag' : UInt32) :
    (d.addInodeFeatureFlag flag').hasInodeFeatureFlag flag =
      (d.hasInodeFeatureFlag flag || flag' &&& flag != 0) := by
  unfold hasInodeFeatureFlag addInodeFeatureFlag
  rw [and_or_distrib, Bool.eq_iff_iff, Bool.or_eq_true, bne_iff_ne, bne_iff_ne, bne_iff_ne, ne_eq,
    UInt32.or_eq_zero_iff]
  exact Classical.not_and_iff_not_or_not

section

variable (parentEntryID : List UInt8)

theorem hasInodeFeatureFlag_setDynamic (flag : UInt32) :
    (d.setDynamicOrigParentEntryID parentEntryID).hasInodeFeatureFlag flag =
      d.hasInodeFeatureFlag flag := by
  unfold setDynamicOrigParentEntryID
  split <;> rfl

theorem hasInodeFeatureFlag_setPersistent (hOrig : d.origFeature = .TRUE) :
    (d.setPersistentOrigParentEntryID parentEntryID).hasInodeFeatureFlag
      FILEINODE_FEATURE_HAS_ORIG_PARENTID = true := by
  unfold setPersistentOrigParentEntryID
  split
  · rw [hasInodeFeatureFlag_addInodeFeatureFlag, Bool.or_eq_true]
    exact Or.inr (by decide)
  · next hHas =>
    simpa [hOrig] using hHas

theorem setDynamic_eq (hHas : d.hasInodeFeatureFlag FILEINODE_FEATURE_HAS_ORIG_PARENTID = true) :
    d.setDynamicOrigParentEntryID parentEntryID = d := if_pos hHas

end

namespace Identified

theorem addInodeFeatureFlag (flag : UInt32) (h : d.Identified origUID origParentID parentEntryID)
    (hFlag : checkFeatureFlagsCompat flag getSupportedDentryV5FileInodeFeatureFlags = true) :
    (d.addInodeFeatureFlag flag).Identified origUID origParentID parentEntryID where
  hOrigFeature := h.hOrigFeature
  hOrigUID := h.hOrigUID
  hOrigUIDKnown := by
    intro hHas
    rw [hasInodeFeatureFlag_addInodeFeatureFlag, Bool.or_eq_false_iff] at hHas
    exact h.hOrigUIDKnown hHas.1
  hOrigParentID := h.hOrigParentID
  hOrigParentIDKnown := by
    intro hHas
    rw [hasInodeFeatureFlag_addInodeFeatureFlag, Bool.or_eq_false_iff] at hHas
    exact h.hOrigParentIDKnown hHas.1
  hFlags := checkFeatureFlagsCompat_or h.hFlags hFlag
  hChunk := h.hChunk

variable (h : d.Identified origUID origParentID parentEntryID)
include h

theorem setStatData {statData : StatData}
    (hUser : statData.settableFileAttribs.userID = d.inodeStatData.settableFileAttribs.userID) :
    { d with inodeStatData := statData }.Identified origUID origParentID parentEntryID where
  hOrigFeature := h.hOrigFeature
  hOrigUID := h.hOrigUID
  hOrigUIDKnown := fun hHas => (h.hOrigUIDKnown hHas).trans hUser.symm
  hOrigParentID := h.hOrigParentID
  hOrigParentIDKnown := h.hOrigParentIDKnown
  hFlags := h.hFlags
  hChunk := h.hChunk

theorem setDynamic :
    (d.setDynamicOrigParentEntryID parentEntryID).Identified origUID origParentID
      parentEntryID := by
  unfold setDynamicOrigParentEntryID
  split
  · exact h
  · next hHas =>
    rw [Bool.not_eq_true] at hHas
    exact { h with hOrigParentID := h.hOrigParentIDKnown hHas }

theorem setPersistent (newParentEntryID : List UInt8) :
    (d.setPersistentOrigParentEntryID parentEntryID).Identified origUID origParentID
      newParentEntryID := by
  unfold setPersistentOrigParentEntryID
  cases hHas : d.hasInodeFeatureFlag FILEINODE_FEATURE_HAS_ORIG_PARENTID with
  | true =>
    rw [if_neg (by simp)]
    refine { h with hOrigParentIDKnown := fun hNot => ?_ }
    rw [hHas] at hNot
    cases hNot
  | false =>
    rw [if_pos (by simp [h.hOrigFeature])]
    have hSet : { d with origParentEntryID := parentEntryID }.Identified origUID origParentID
        parentEntryID := { h with hOrigParentID := h.hOrigParentIDKnown hHas }
    have hFlag := hSet.addInodeFeatureFlag FILEINODE_FEATURE_HAS_ORIG_PARENTID (by decide)
    refine { hFlag with hOrigParentIDKnown := fun hNot => ?_ }
    rw [hasInodeFeatureFlag_addInodeFeatureFlag, Bool.or_eq_false_iff] at hNot
    exact absurd hNot.2 (by decide)

theorem getPathInfo_eq : d.getPathInfo = ⟨PATHINFO_FEATURE_ORIG, origUID, origParentID⟩ := by
  unfold getPathInfo
  rw [h.hOrigFeature, h.hOrigUID, h.hOrigParentID]

theorem readInto_setDynamic
    (hLen : origParentID.length < 2 ^ 32) (entryID : List UInt8) (d₀ : FileInodeStoreData) :
    ({ d.readInto entryID d₀ with origFeature := .TRUE }.setDynamicOrigParentEntryID
      parentEntryID).Identified origUID origParentID parentEntryID := by
  have hHas : ∀ flag, ({ d.readInto entryID d₀ with origFeature := .TRUE } :
      FileInodeStoreData).hasInodeFeatureFlag flag = d.hasInodeFeatureFlag flag := fun _ => rfl
  unfold setDynamicOrigParentEntryID
  rw [hHas]
  cases hStored : d.hasInodeFeatureFlag FILEINODE_FEATURE_HAS_ORIG_PARENTID with
  | true =>
    refine ⟨rfl, h.hOrigUID, h.hOrigUIDKnown, ?_, h.hOrigParentIDKnown, h.hFlags, h.hChunk⟩
    show (if d.hasInodeFeatureFlag FILEINODE_FEATURE_HAS_ORIG_PARENTID then
      storedStr d.origParentEntryID else d₀.origParentEntryID) = origParentID
    rw [if_pos hStored, h.hOrigParentID, storedStr_eq hLen]
  | false =>
    exact ⟨rfl, h.hOrigUID, h.hOrigUIDKnown, h.hOrigParentIDKnown hStored, h.hOrigParentIDKnown,
      h.hFlags, h.hChunk⟩

end Identified

end FileInodeStoreData

variable {origUID : UInt32} {origParentID parentEntryID : List UInt8}

namespace DiskMetaData

/-- A file whose inode is not inlined has its original parent ID stored. -/
structure Identified (origUID : UInt32) (origParentID parentEntryID : List UInt8)
    (m : DiskMetaData) : Prop where
  hData : m.inodeData.Identified origUID origParentID parentEntryID
  hType : m.dentryDiskData.entryType ≠ 0
  hFile : m.dentryDiskData.isDir = false
  hDentryFlags : checkFeatureFlagsCompat m.dentryDiskData.dentryFeatureFlags.toUInt32
    getSupportedDentryFeatureFlags = true
  hInlined : m.isInodeInlined = false →
    m.inodeData.hasInodeFeatureFlag FILEINODE_FEATURE_HAS_ORIG_PARENTID = true

variable {m m' : DiskMetaData}

theorem serializeFileInode_eq (hType : m.dentryDiskData.entryType ≠ 0) :
    m.serializeFileInode =
      m.serializeInDentryFormat (if m.isInodeInlined then .FILEDENTRY else .FILEINODE) := by
  unfold serializeFileInode
  rw [if_neg hType]

variable (h : m.Identified origUID origParentID parentEntryID)
include h

theorem load_eq (localNodeID : UInt16)
    (holes : Nat → UInt8) (rest : List UInt8) (newInodeData : FileInodeStoreData) :
    m.load localNodeID holes rest newInodeData =
      if DIRENTRY_SERBUF_SIZE < m.serializeFileInode.length then none
      else some (m.readInto localNodeID ⟨⟨[], 0, 0, 0, 0⟩, newInodeData⟩) := by
  unfold load
  rw [serializeFileInode_eq h.hType]
  generalize (if m.isInodeInlined then DiskMetaDataType.FILEDENTRY else .FILEINODE) = metaDataType
  by_cases hFits : DIRENTRY_SERBUF_SIZE < (m.serializeInDentryFormat metaDataType).length
  · rw [if_pos hFits, if_pos hFits]
  have hReads := reads_inDentryFormat metaDataType h.hFile h.hData.hOrigFeature h.hDentryFlags
    h.hData.hFlags h.hData.hChunk h.hData.hOrigUIDKnown (not_lt.mp hFits) localNodeID
    ⟨⟨[], 0, 0, 0, 0⟩, newInodeData⟩ (fill holes _) rest DIRENTRY_SERBUF_SIZE
    (fills_fill holes _) (by rw [length_fill]; exact not_lt.mp hFits)
  rw [if_neg hFits, if_neg hFits]
  unfold deserializeDentry
  rw [hReads]

theorem eq_of_load {localNodeID : UInt16}
    {holes : Nat → UInt8} {rest : List UInt8} {newInodeData : FileInodeStoreData}
    (hLoad : m.load localNodeID holes rest newInodeData = some m') :
    m' = m.readInto localNodeID ⟨⟨[], 0, 0, 0, 0⟩, newInodeData⟩ := by
  rw [load_eq h] at hLoad
  split at hLoad
  · cases hLoad
  · exact (Option.some.inj hLoad).symm

theorem identified_readInto
    (hLen : origParentID.length < 2 ^ 32) (localNodeID : UInt16) (m₀ : DiskMetaData) :
    Identified origUID origParentID parentEntryID ⟨(m.readInto localNodeID m₀).dentryDiskData,
      (m.readInto localNodeID m₀).inodeData.setDynamicOrigParentEntryID parentEntryID⟩ := by
  have hFlags : (m.readInto localNodeID m₀).dentryDiskData.dentryFeatureFlags =
      m.dentryDiskData.dentryFeatureFlags :=
    m.dentryDiskData.dentryFeatureFlags_readMirrorNodeID rfl
  have hType : (m.readInto localNodeID m₀).dentryDiskData.entryType =
      m.dentryDiskData.entryType := m.dentryDiskData.entryType_readMirrorNodeID _
  refine ⟨h.hData.readInto_setDynamic hLen _ _, ?_, ?_, ?_, fun hNot => ?_⟩
  · rw [hType]
    exact h.hType
  · rw [DentryDiskData.isDir, hType]
    exact h.hFile
  · rw [hFlags]
    exact h.hDentryFlags
  · rw [isInodeInlined, hFlags] at hNot
    rw [hasInodeFeatureFlag_setDynamic]
    exact h.hInlined hNot

end DiskMetaData

namespace FileInode

/-- What would be stored of the inode is that of an identified file. -/
def Identified (origUID : UInt32) (origParentID parentEntryID : List UInt8) (inode : FileInode) :
    Prop := inode.diskMetaData.Identified origUID origParentID parentEntryID

variable {inode : FileInode}

theorem isInodeInlined_setIsInlinedUnlocked (inode : FileInode) :
    (inode.setIsInlinedUnlocked true).diskMetaData.isInodeInlined = true := by
  have hBit : ∀ flags : UInt16, (flags ||| DENTRY_FEATURE_INODE_INLINE) &&&
      DENTRY_FEATURE_INODE_INLINE = DENTRY_FEATURE_INODE_INLINE := by
    intro flags
    rw [← UInt16.toBitVec_inj]
    ext i
    simpa using Or.inr
  show (inode.dentryCompatData.featureFlags |||
    DENTRY_FEATURE_INODE_INLINE.toUInt32).toUInt16 &&& DENTRY_FEATURE_INODE_INLINE != 0
  rw [UInt32.toUInt16_or, UInt16.toUInt16_toUInt32, hBit]
  decide

namespace Identified

variable (h : inode.Identified origUID origParentID parentEntryID)
include h

theorem setIsInlinedUnlocked (value : Bool) :
    (inode.setIsInlinedUnlocked value).Identified origUID origParentID parentEntryID := by
  cases value with
  | true =>
    refine ⟨h.hData, h.hType, h.hFile, ?_, fun hNot => ?_⟩
    · show checkFeatureFlagsCompat (inode.dentryCompatData.featureFlags |||
        DENTRY_FEATURE_INODE_INLINE.toUInt32).toUInt16.toUInt32 _ = true
      rw [UInt32.toUInt16_or, UInt16.toUInt32_or]
      exact checkFeatureFlagsCompat_or h.hDentryFlags (by decide)
    · rw [isInodeInlined_setIsInlinedUnlocked] at hNot
      cases hNot
  | false =>
    have hFlagged := h.hData.addInodeFeatureFlag FILEINODE_FEATURE_HAS_ORIG_PARENTID (by decide)
    have hData : (inode.setIsInlinedUnlocked false).inodeDiskData =
        inode.inodeDiskData.addInodeFeatureFlag FILEINODE_FEATURE_HAS_ORIG_PARENTID :=
      if_pos h.hData.hOrigFeature
    refine ⟨?_, h.hType, h.hFile, ?_, fun _ => ?_⟩
    · show (inode.setIsInlinedUnlocked false).inodeDiskData.Identified _ _ _
      rwa [hData]
    · show checkFeatureFlagsCompat (inode.dentryCompatData.featureFlags &&&
        ~~~DENTRY_FEATURE_INODE_INLINE.toUInt32).toUInt16.toUInt32 _ = true
      rw [UInt32.toUInt16_and, UInt16.toUInt32_and]
      exact checkFeatureFlagsCompat_and _ h.hDentryFlags
    · show (inode.setIsInlinedUnlocked false).inodeDiskData.hasInodeFeatureFlag _ = true
      rw [hData, hasInodeFeatureFlag_addInodeFeatureFlag, Bool.or_eq_true]
      exact Or.inr (by decide)

theorem setInodeDiskData {inodeDiskData : FileInodeStoreData} {newParentEntryID : List UInt8}
    (hData : inodeDiskData.Identified origUID origParentID newParentEntryID)
    (hFlag : inode.inodeDiskData.hasInodeFeatureFlag FILEINODE_FEATURE_HAS_ORIG_PARENTID = true →
      inodeDiskData.hasInodeFeatureFlag FILEINODE_FEATURE_HAS_ORIG_PARENTID = true) :
    { inode with inodeDiskData := inodeDiskData }.Identified origUID origParentID
      newParentEntryID :=
  ⟨hData, h.hType, h.hFile, h.hDentryFlags, fun hNot => hFlag (h.hInlined hNot)⟩

theorem updateDynamicAttribs (nowSecs : Int64) (fileInfoVec : List ChunkFileInfo) :
    (inode.updateDynamicAttribs nowSecs fileInfoVec).Identified origUID origParentID
      parentEntryID :=
  h.setInodeDiskData (h.hData.setStatData
    (StatData.userID_updateDynamicFileAttribs nowSecs fileInfoVec _ _)) id

end Identified

theorem identified_ofDiskMetaData {m : DiskMetaData}
    (h : m.Identified origUID origParentID parentEntryID) (isInlined : Bool) :
    (ofDiskMetaData isInlined m).Identified origUID origParentID parentEntryID := by
  have hFlags : m.dentryDiskData.dentryFeatureFlags.toUInt32.toUInt16 =
      m.dentryDiskData.dentryFeatureFlags := UInt16.toUInt16_toUInt32 _
  refine ⟨h.hData, h.hType, h.hFile, ?_, fun hNot => h.hInlined ?_⟩
  · show checkFeatureFlagsCompat
      m.dentryDiskData.dentryFeatureFlags.toUInt32.toUInt16.toUInt32 _ = true
    rw [hFlags]
    exact h.hDentryFlags
  · change (m.dentryDiskData.dentryFeatureFlags.toUInt32.toUInt16 &&&
      DENTRY_FEATURE_INODE_INLINE != 0) = false at hNot
    rwa [hFlags] at hNot

theorem identified_create {m : DiskMetaData}
    (h : DiskMetaData.Identified origUID origParentID parentEntryID
      ⟨m.dentryDiskData, m.inodeData.setDynamicOrigParentEntryID parentEntryID⟩) :
    (create parentEntryID m).Identified origUID origParentID parentEntryID := by
  unfold create
  split
  · exact (identified_ofDiskMetaData h true).setIsInlinedUnlocked true
  · next hInline =>
    have hStored := h.hInlined (Bool.not_eq_true _ ▸ hInline)
    rw [hasInodeFeatureFlag_setDynamic] at hStored
    rw [setDynamic_eq _ hStored] at h
    exact (identified_ofDiskMetaData h false).setIsInlinedUnlocked false

variable (validAttribs : UInt32)

variable (attribs : SettableFileAttribs)

def markedData (d : FileInodeStoreData) : FileInodeStoreData :=
  if validAttribs &&& SETATTR_CHANGE_USERID ≠ 0 ∧ attribs.userID ≠ d.origParentUID ∧
    d.origFeature = .TRUE then
    d.addInodeFeatureFlag FILEINODE_FEATURE_HAS_ORIG_UID
  else d

theorem identified_markedData {d : FileInodeStoreData}
    (h : d.Identified origUID origParentID parentEntryID) (validAttribs : UInt32)
    (attribs : SettableFileAttribs) :
    (markedData validAttribs attribs d).Identified origUID origParentID parentEntryID := by
  unfold markedData
  split
  · exact h.addInodeFeatureFlag FILEINODE_FEATURE_HAS_ORIG_UID (by decide)
  · exact h

theorem hasInodeFeatureFlag_markedData {d : FileInodeStoreData} {flag : UInt32}
    (hHas : d.hasInodeFeatureFlag flag = true) :
    (markedData validAttribs attribs d).hasInodeFeatureFlag flag = true := by
  unfold markedData
  split
  · rw [hasInodeFeatureFlag_addInodeFeatureFlag, hHas, Bool.true_or]
  · exact hHas

theorem userID_markedData (d : FileInodeStoreData) :
    (markedData validAttribs attribs d).inodeStatData.settableFileAttribs.userID =
      d.inodeStatData.settableFileAttribs.userID := by
  unfold markedData
  split <;> rfl

section

variable (nowSecs : Int64) (validAttribs : UInt32) (attribs : SettableFileAttribs)
  (inode : FileInode)

theorem changeAttribs_eq (statData : StatData) :
    { (inode.changeAttribs nowSecs validAttribs attribs).inodeDiskData with
      inodeStatData := statData } =
    { markedData validAttribs attribs inode.inodeDiskData with inodeStatData := statData } := by
  unfold changeAttribs applyAttribs markedData
  simp only
  split <;> rfl

theorem userID_changeAttribs : (inode.changeAttribs nowSecs validAttribs
      attribs).inodeDiskData.inodeStatData.settableFileAttribs.userID =
    if validAttribs &&& SETATTR_CHANGE_USERID ≠ 0 then attribs.userID
    else inode.inodeDiskData.inodeStatData.settableFileAttribs.userID := by
  unfold changeAttribs applyAttribs
  simp only
  split <;> rfl

end

namespace Identified

theorem changeAttribs (h : inode.Identified origUID origParentID parentEntryID)
    (nowSecs : Int64) (validAttribs : UInt32) (attribs : SettableFileAttribs) :
    (inode.changeAttribs nowSecs validAttribs attribs).Identified origUID origParentID
      parentEntryID := by
  have hUser := userID_changeAttribs nowSecs validAttribs attribs inode
  have hMarked := identified_markedData h.hData validAttribs attribs
  have hEq : (inode.changeAttribs nowSecs validAttribs attribs).inodeDiskData = _ :=
    changeAttribs_eq nowSecs validAttribs attribs inode
      (inode.changeAttribs nowSecs validAttribs attribs).inodeDiskData.inodeStatData
  suffices hSet : Identified origUID origParentID parentEntryID { inode with
      inodeDiskData := (inode.changeAttribs nowSecs validAttribs attribs).inodeDiskData } by
    exact hSet
  rw [hEq]
  apply h.setInodeDiskData
  · refine { hMarked with hOrigUIDKnown := fun hNot => ?_ }
    change (markedData validAttribs attribs inode.inodeDiskData).hasInodeFeatureFlag _ = false
      at hNot
    by_cases hMark : validAttribs &&& SETATTR_CHANGE_USERID ≠ 0 ∧
        attribs.userID ≠ inode.inodeDiskData.origParentUID ∧
        inode.inodeDiskData.origFeature = .TRUE
    · rw [markedData, if_pos hMark,
        hasInodeFeatureFlag_addInodeFeatureFlag, Bool.or_eq_false_iff] at hNot
      exact absurd hNot.2 (by decide)
    rw [markedData, if_neg hMark] at hNot ⊢
    rw [hUser]
    split
    · next hChange =>
      by_contra hOther
      exact hMark ⟨hChange, Ne.symm hOther, h.hData.hOrigFeature⟩
    · exact h.hData.hOrigUIDKnown hNot
  · exact hasInodeFeatureFlag_markedData validAttribs attribs

end Identified

end FileInode

namespace StoredFile

structure Identified (origUID : UInt32) (origParentID : List UInt8) (f : StoredFile) : Prop where
  hInode : f.inode.Identified origUID origParentID f.parentEntryID
  hDisk : f.disk.Identified origUID origParentID f.parentEntryID

variable {f : StoredFile}

theorem identified_created {d : FileInodeStoreData} {entryType : UInt8}
    (h : d.Identified origUID origParentID parentEntryID) (hType : entryType ≠ 0)
    (hFile : entryType ≠ 1) (localNodeID : UInt16) :
    (created localNodeID entryType d parentEntryID).Identified origUID origParentID := by
  have hFlags : checkFeatureFlagsCompat
      (DENTRY_FEATURE_INODE_INLINE ||| DENTRY_FEATURE_IS_FILEINODE).toUInt32
      getSupportedDentryFeatureFlags = true := by decide
  have hInline : ((DENTRY_FEATURE_INODE_INLINE ||| DENTRY_FEATURE_IS_FILEINODE) &&&
      DENTRY_FEATURE_INODE_INLINE != 0) = true := by decide
  have hIsDir : (entryType == 1) = false := beq_eq_false_iff_ne.mpr hFile
  have hDentry : ∀ {d : FileInodeStoreData}, d.Identified origUID origParentID parentEntryID →
      ∀ entryID, DiskMetaData.Identified origUID origParentID parentEntryID
        ⟨⟨entryID, entryType, localNodeID,
          DENTRY_FEATURE_INODE_INLINE ||| DENTRY_FEATURE_IS_FILEINODE, 0⟩, d⟩ := by
    intro d hData entryID
    exact ⟨hData, hType, hIsDir, hFlags, fun hNot => Bool.noConfusion (hInline.symm.trans hNot)⟩
  exact ⟨identified_create (hDentry h.setDynamic _), hDentry h _⟩

def statData (f : StoredFile) : StatData := f.inode.inodeDiskData.inodeStatData

def savesDentry (o : StoreOutcomes) (f : StoredFile) : Bool :=
  f.inode.isInlined && o.dentryLoads && f.disk.isInodeInlined && o.dentrySaves

/-- The attributes after a store. They are taken from the chunk files, and once more when the
dentry of an inlined inode could not be stored. -/
def refreshed (o : StoreOutcomes) (f : StoredFile) : StatData :=
  let refresh := StatData.updateDynamicFileAttribs o.nowSecs o.fileInfoVec
    f.inode.inodeDiskData.stripePattern
  if f.inode.isInlined && !f.savesDentry o then refresh (refresh f.statData)
  else refresh f.statData

theorem storeUpdatedInodeUnlocked_spec (o : StoreOutcomes) (f : StoredFile) :
    (f.storeUpdatedInodeUnlocked o).1.parentEntryID = f.parentEntryID ∧
      (f.storeUpdatedInodeUnlocked o).1.inode = { f.inode with
          inodeDiskData.inodeStatData := f.refreshed o
          isInlined := f.inode.isInlined && (!o.dentryLoads || f.disk.isInodeInlined) } ∧
      (f.storeUpdatedInodeUnlocked o).2 = (f.savesDentry o || o.saveRes) := by
  unfold storeUpdatedInodeUnlocked storeUpdatedInlinedInodeUnlocked storeNotInlined refreshed
    savesDentry updateDynamicAttribs statData
  cases hInlined : f.inode.isInlined <;> cases o.dentryLoads <;>
    cases hDisk : f.disk.isInodeInlined <;> cases o.dentrySaves <;> simp [hDisk]

def StoredAs (f f' : StoredFile) : Prop :=
  f'.parentEntryID = f.parentEntryID ∧
    ∀ statData, { f'.inode.inodeDiskData with inodeStatData := statData } =
      { f.inode.inodeDiskData with inodeStatData := statData }

theorem storedAs_storeUpdatedInodeUnlocked (o : StoreOutcomes) (f : StoredFile) :
    f.StoredAs (f.storeUpdatedInodeUnlocked o).1 := by
  obtain ⟨hParent, hInode, -⟩ := storeUpdatedInodeUnlocked_spec o f
  exact ⟨hParent, fun statData => by rw [hInode]⟩

namespace Identified

section

variable (h : f.Identified origUID origParentID)
include h

section

variable (o : StoreOutcomes)

theorem storeNotInlined : (f.storeNotInlined o).1.Identified origUID origParentID := by
  have hInode := h.hInode.updateDynamicAttribs o.nowSecs o.fileInfoVec
  refine ⟨hInode, ?_⟩
  unfold StoredFile.storeNotInlined
  simp only
  split
  · exact hInode
  · exact h.hDisk

theorem storeUpdatedInlinedInodeUnlocked :
    (f.storeUpdatedInlinedInodeUnlocked o).1.Identified origUID origParentID := by
  have hInode := h.hInode.updateDynamicAttribs o.nowSecs o.fileInfoVec
  have hKept : StoredFile.Identified origUID origParentID
      { f with inode := f.inode.updateDynamicAttribs o.nowSecs o.fileInfoVec } :=
    ⟨hInode, h.hDisk⟩
  unfold StoredFile.storeUpdatedInlinedInodeUnlocked
  simp only
  split_ifs with hLoad hInline
  · exact hKept
  · exact hKept
  · exact hKept
  refine ⟨hInode, ?_, h.hDisk.hType, h.hDisk.hFile, h.hDisk.hDentryFlags, fun hNot => ?_⟩
  · exact { hInode.hData with }
  · rw [Bool.not_eq_true', Bool.not_eq_false] at hInline
    change f.disk.isInodeInlined = false at hNot
    rw [hInline] at hNot
    cases hNot

theorem storeUpdatedInodeUnlocked :
    (f.storeUpdatedInodeUnlocked o).1.Identified origUID origParentID := by
  have hInlined := h.storeUpdatedInlinedInodeUnlocked o
  unfold StoredFile.storeUpdatedInodeUnlocked
  simp only
  split_ifs
  · exact hInlined
  · apply storeNotInlined
    exact ⟨hInlined.hInode, hInlined.hDisk⟩
  · exact hInlined.storeNotInlined o
  · exact h.storeNotInlined o

theorem setAttrData (validAttribs : UInt32) (attribs : SettableFileAttribs) :
    (f.setAttrData o validAttribs attribs).1.Identified origUID origParentID := by
  have hStored := storeUpdatedInodeUnlocked (f :=
    { f with inode := f.inode.changeAttribs o.nowSecs validAttribs attribs })
    ⟨h.hInode.changeAttribs o.nowSecs validAttribs attribs, h.hDisk⟩ o
  obtain ⟨hParent, hData⟩ := storedAs_storeUpdatedInodeUnlocked o
    { f with inode := f.inode.changeAttribs o.nowSecs validAttribs attribs }
  have hMarked := identified_markedData h.hInode.hData validAttribs attribs
  unfold StoredFile.setAttrData
  simp only
  split
  · exact hStored
  · refine ⟨hStored.hInode.setInodeDiskData ?_ id, hStored.hDisk⟩
    rw [hData, changeAttribs_eq, hParent]
    exact hMarked.setStatData (userID_markedData validAttribs attribs _).symm

end

theorem setOrigParentID : f.setOrigParentID.Identified origUID origParentID := by
  refine ⟨h.hInode.setInodeDiskData h.hInode.hData.setDynamic ?_, h.hDisk⟩
  intro hHas
  rwa [hasInodeFeatureFlag_setDynamic]

section

variable (hLen : origParentID.length < 2 ^ 32)
include hLen

theorem reload (localNodeID : UInt16) (holes : Nat → UInt8) (rest : List UInt8)
    (newInodeData : FileInodeStoreData) :
    (f.reload localNodeID holes rest newInodeData).Identified origUID origParentID := by
  unfold StoredFile.reload
  cases hLoad : f.disk.load localNodeID holes rest newInodeData with
  | none => exact h
  | some m =>
    refine ⟨identified_create ?_, h.hDisk⟩
    rw [DiskMetaData.eq_of_load h.hDisk hLoad]
    exact DiskMetaData.identified_readInto h.hDisk hLen _ _

theorem moveRemote
    (o : StoreOutcomes) (localNodeID : UInt16) (holes : Nat → UInt8) (rest : List UInt8)
    (newInodeData : FileInodeStoreData) (newParentEntryID : List UInt8) :
    (f.moveRemote o localNodeID holes rest newInodeData newParentEntryID).Identified origUID
      origParentID := by
  have hFlag := FileInodeStoreData.hasInodeFeatureFlag_setPersistent f.parentEntryID
    h.hInode.hData.hOrigFeature
  have hMoved : ∀ newParentEntryID, FileInode.Identified origUID origParentID newParentEntryID
      (f.moveRemoteBegin o) := by
    intro newParentEntryID
    apply FileInode.Identified.updateDynamicAttribs
    exact h.hInode.setInodeDiskData (h.hInode.hData.setPersistent newParentEntryID)
      fun _ => hFlag
  unfold StoredFile.moveRemote
  simp only
  cases hLoad : (f.moveRemoteBegin o).diskMetaData.load localNodeID holes rest newInodeData with
  | none => exact ⟨hMoved f.parentEntryID, h.hDisk⟩
  | some m =>
    have hEq := DiskMetaData.eq_of_load (hMoved newParentEntryID) hLoad
    have hRead := DiskMetaData.identified_readInto (hMoved newParentEntryID) hLen localNodeID
      ⟨⟨[], 0, 0, 0, 0⟩, newInodeData⟩
    rw [← hEq] at hRead
    have hStored : m.inodeData.hasInodeFeatureFlag FILEINODE_FEATURE_HAS_ORIG_PARENTID = true := by
      rw [hEq]
      exact hFlag
    rw [FileInodeStoreData.setDynamic_eq _ hStored] at hRead
    exact identified_created hRead.hData hRead.hType (beq_eq_false_iff_ne.mp hRead.hFile)
      localNodeID

theorem step (op : FileOp) : (f.step op).Identified origUID origParentID := by
  cases op with
  | setAttrData o validAttribs attribs => exact h.setAttrData o validAttribs attribs
  | updateInodeOnDisk o => exact h.storeUpdatedInodeUnlocked o
  | setIsInlined value => exact ⟨h.hInode.setIsInlinedUnlocked value, h.hDisk⟩
  | setOrigParentID => exact h.setOrigParentID
  | reload localNodeID holes rest newInodeData =>
    exact h.reload hLen localNodeID holes rest newInodeData
  | moveRemote o localNodeID holes rest newInodeData newParentEntryID =>
    exact h.moveRemote hLen o localNodeID holes rest newInodeData newParentEntryID

end

theorem getPathInfo_eq : f.inode.getPathInfo = ⟨PATHINFO_FEATURE_ORIG, origUID, origParentID⟩ :=
  h.hInode.hData.getPathInfo_eq

end

end Identified

/-- A new file in a directory. Its chunk path is that of the directory and of the owner that is
given, which need not be the owner of the file. -/
def newFile (localNodeID : UInt16) (entryType : UInt8) (entryID : List UInt8)
    (statData : StatData) (stripePattern : StripePattern) (featureFlags origParentUID : UInt32)
    (parentEntryID : List UInt8) : StoredFile :=
  created localNodeID entryType
    (.new entryID statData stripePattern featureFlags origParentUID parentEntryID .TRUE)
    parentEntryID

theorem identified_new {featureFlags : UInt32} {stripePattern : StripePattern}
    (hFlags : checkFeatureFlagsCompat featureFlags getSupportedDentryV5FileInodeFeatureFlags = true)
    (hChunk : stripePattern.chunkSize ≠ 0) (entryID : List UInt8) (statData : StatData)
    (origParentUID : UInt32) (parentEntryID : List UInt8) :
    (new entryID statData stripePattern featureFlags origParentUID
      parentEntryID .TRUE).Identified origParentUID parentEntryID parentEntryID := by
  refine ⟨rfl, rfl, fun hNot => ?_, rfl, fun _ => rfl, ?_, hChunk⟩
  · by_contra hOther
    have hAdded : (new entryID statData stripePattern featureFlags
        origParentUID parentEntryID .TRUE).inodeFeatureFlags =
        featureFlags ||| FILEINODE_FEATURE_HAS_ORIG_UID := if_pos ⟨Ne.symm hOther, rfl⟩
    rw [hasInodeFeatureFlag, hAdded, and_or_distrib, bne_eq_false_iff_eq,
      UInt32.or_eq_zero_iff] at hNot
    exact absurd hNot.2 (by decide)
  · unfold new
    simp only
    split
    · exact checkFeatureFlagsCompat_or hFlags (by decide)
    · exact hFlags

/-- No sequence of operations on a new file changes the path of its chunks. -/
theorem getPathInfo_after (localNodeID : UInt16) (entryType : UInt8) (entryID : List UInt8)
    (statData : StatData) (stripePattern : StripePattern) (featureFlags origParentUID : UInt32)
    (parentEntryID : List UInt8) (ops : List FileOp)
    (hType : 2 ≤ entryType ∧ entryType ≤ 7)
    (hFlags : checkFeatureFlagsCompat featureFlags getSupportedDentryV5FileInodeFeatureFlags = true)
    (hChunk : stripePattern.chunkSize ≠ 0) (hLen : parentEntryID.length < 2 ^ 32) :
    let file := newFile localNodeID entryType entryID statData stripePattern featureFlags
      origParentUID parentEntryID
    file.inode.getPathInfo = ⟨PATHINFO_FEATURE_ORIG, origParentUID, parentEntryID⟩ ∧
      (Run.after step file ops).inode.getPathInfo = file.inode.getPathInfo := by
  intro file
  have hNotInvalid : entryType ≠ 0 := by
    rintro rfl
    exact absurd hType.1 (by decide)
  have hNotDir : entryType ≠ 1 := by
    rintro rfl
    exact absurd hType.1 (by decide)
  have hNew : file.Identified origParentUID parentEntryID :=
    identified_created (identified_new hFlags hChunk entryID statData origParentUID parentEntryID)
      hNotInvalid hNotDir localNodeID
  have hRun : (Run.after step file ops).Identified origParentUID parentEntryID :=
    Run.after_invariant step (A := fun _ _ => True) (fun _ op hFile _ => hFile.step hLen op) hNew
      (Run.everyStep_of_forall step fun _ _ _ => trivial)
  exact ⟨hNew.getPathInfo_eq, hRun.getPathInfo_eq.trans hNew.getPathInfo_eq.symm⟩

/-- A file that is given away, moved, and loaded in its new directory. -/
theorem getPathInfo_after_move :
    let o : StoreOutcomes := ⟨0, [], true, true, true⟩
    let file := newFile 1 2 [70] ⟨0, 0, 0, 0, 1, ⟨0, 7, 0, 0, 0⟩, 0, ⟨[]⟩⟩ ⟨4, .raid0 [1], 4, 1⟩ 0 7
      [68]
    let emptyData := file.inode.inodeDiskData
    (Run.after step file [.setAttrData o SETATTR_CHANGE_USERID ⟨0, 9, 0, 0, 0⟩,
      .moveRemote o 2 (fun _ => 255) [] emptyData [69],
      .reload 2 (fun _ => 255) [] emptyData]).inode.getPathInfo =
      ⟨PATHINFO_FEATURE_ORIG, 7, [68]⟩ := by
  intro o file emptyData
  have h := getPathInfo_after 1 2 [70] ⟨0, 0, 0, 0, 1, ⟨0, 7, 0, 0, 0⟩, 0, ⟨[]⟩⟩
    ⟨4, .raid0 [1], 4, 1⟩ 0 7 [68]
    [.setAttrData o SETATTR_CHANGE_USERID ⟨0, 9, 0, 0, 0⟩,
      .moveRemote o 2 (fun _ => 255) [] emptyData [69], .reload 2 (fun _ => 255) [] emptyData]
    (by decide) (by decide) (by decide) (by decide)
  exact h.2.trans h.1

/-! ## Updates that fail -/

section Updates

variable {o : StoreOutcomes}

theorem static_refreshed : (f.refreshed o).static = f.statData.static := by
  unfold refreshed
  dsimp only
  split_ifs <;> simp only [StatData.static_updateDynamicFileAttribs]

theorem changeTime_refreshed (h : f.statData.attribChangeTimeSecs = o.nowSecs) :
    (f.refreshed o).attribChangeTimeSecs = o.nowSecs := by
  have hRefresh := StatData.changeTime_updateDynamicFileAttribs o.nowSecs o.fileInfoVec
    f.inode.inodeDiskData.stripePattern
  unfold refreshed
  dsimp only
  split_ifs
  · exact hRefresh _ (hRefresh _ h)
  · exact hRefresh _ h

/-- The chunk files tell the size that the inode has. -/
def NoNewSize (o : StoreOutcomes) (f : StoredFile) : Prop :=
  f.statData.SameSize (f.refreshed o)

def NoNewTimes (o : StoreOutcomes) (f : StoredFile) : Prop :=
  f.statData.SameTimes (f.refreshed o)

/-- The dentry of an inlined inode has an inlined inode. -/
def StaysInlined (o : StoreOutcomes) (f : StoredFile) : Prop :=
  f.inode.isInlined = true → o.dentryLoads = true → f.disk.isInodeInlined = true

/-- After a success only what was requested differs and the change time, after a failure neither
the attributes, with the number of links, nor the feature flags. -/
def LeavesRest (f : StoredFile) (requested : FileInode) (r : StoredFile × Bool) : Prop :=
  if r.2 then
    ∃ changeTime, r.1.inode =
      { requested with inodeDiskData.inodeStatData.attribChangeTimeSecs := changeTime }
  else
    r.1.statData = f.statData ∧
      r.1.inode.inodeDiskData.inodeFeatureFlags = f.inode.inodeDiskData.inodeFeatureFlags

theorem stored_iff {requested : FileInode} (hInode : f.inode =
      { requested with inodeDiskData.inodeStatData.attribChangeTimeSecs := o.nowSecs }) :
    (∃ changeTime, (f.storeUpdatedInodeUnlocked o).1.inode =
      { requested with inodeDiskData.inodeStatData.attribChangeTimeSecs := changeTime }) ↔
      f.NoNewSize o ∧ f.NoNewTimes o ∧ f.StaysInlined o := by
  have hEq : ∀ changeTime, f.refreshed o = { f.statData with attribChangeTimeSecs := changeTime } ↔
      f.NoNewSize o ∧ f.NoNewTimes o ∧ (f.refreshed o).attribChangeTimeSecs = changeTime :=
    fun changeTime => StatData.eq_iff_of_static static_refreshed
  have hInlined : (f.inode.isInlined && (!o.dentryLoads || f.disk.isInodeInlined)) =
      f.inode.isInlined ↔ f.StaysInlined o := by
    unfold StaysInlined
    cases f.inode.isInlined <;> cases o.dentryLoads <;> simp
  rw [(storeUpdatedInodeUnlocked_spec o f).2.1, ← hInlined]
  constructor
  · rintro ⟨changeTime, h⟩
    have hStat : f.refreshed o = { f.statData with attribChangeTimeSecs := changeTime } := by
      rw [statData, hInode]
      exact congrArg (fun inode : FileInode => inode.inodeDiskData.inodeStatData) h
    obtain ⟨hSize, hTimes, -⟩ := (hEq changeTime).mp hStat
    have hSame := congrArg FileInode.isInlined h
    exact ⟨hSize, hTimes, hSame.trans (congrArg FileInode.isInlined hInode).symm⟩
  · rintro ⟨hSize, hTimes, hSame⟩
    refine ⟨(f.refreshed o).attribChangeTimeSecs, ?_⟩
    rw [hSame, (hEq _).mpr ⟨hSize, hTimes, rfl⟩, statData, hInode]

/-- A changed inode is stored, or its object is changed back by `undo`. -/
theorem leavesRest_store_iff {requested : FileInode} {C : Prop} (changed : StoredFile)
    (undo : StoredFile → StoredFile) (hInode : changed.inode =
      { requested with inodeDiskData.inodeStatData.attribChangeTimeSecs := o.nowSecs })
    (hSaves : changed.savesDentry o = f.savesDentry o)
    (hUndo : ∀ stored : StoredFile, stored.statData = changed.refreshed o →
      stored.inode.inodeDiskData.inodeFeatureFlags =
        changed.inode.inodeDiskData.inodeFeatureFlags →
      (f.LeavesRest requested (undo stored, false) ↔ C)) :
    f.LeavesRest requested
        (if (changed.storeUpdatedInodeUnlocked o).2 then changed.storeUpdatedInodeUnlocked o
        else (undo (changed.storeUpdatedInodeUnlocked o).1, false)) ↔
      if f.savesDentry o || o.saveRes then
        changed.NoNewSize o ∧ changed.NoNewTimes o ∧ changed.StaysInlined o
      else C := by
  obtain ⟨-, hInode', hRes⟩ := storeUpdatedInodeUnlocked_spec o changed
  rw [hSaves] at hRes
  rw [← hRes]
  cases hStored : (changed.storeUpdatedInodeUnlocked o).2 with
  | true =>
    rw [if_pos rfl, if_pos rfl, ← stored_iff hInode, LeavesRest, if_pos hStored]
  | false =>
    rw [if_neg Bool.false_ne_true, if_neg Bool.false_ne_true, hUndo]
    · rw [statData, hInode']
    · rw [hInode']

theorem or_eq_left_iff_has (flags : UInt32) :
    flags ||| FILEINODE_FEATURE_HAS_ORIG_UID = flags ↔
      (flags &&& FILEINODE_FEATURE_HAS_ORIG_UID != 0) = true := by
  rw [bne_iff_ne, Ne, ← UInt32.toBitVec_inj, ← UInt32.toBitVec_inj, UInt32.toBitVec_or,
    UInt32.toBitVec_and]
  have hBit : FILEINODE_FEATURE_HAS_ORIG_UID.toBitVec = BitVec.twoPow 32 5 := by decide
  rw [hBit, BitVec.and_twoPow]
  constructor
  · intro h
    have hHas : flags.toBitVec.getLsbD 5 = true := by
      rw [← h]
      simp
    rw [if_pos hHas]
    decide
  · intro h
    ext i hi
    by_cases hFive : i = 5
    · simp_all
    · simp [hFive]

end Updates

end StoredFile

end Fhgfs.Metadata
