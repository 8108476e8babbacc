import Fhgfs.Metadata.DiskMetaData
import Mathlib.Data.Nat.Bitwise

/-!
# File inodes on disk: round trip

`deserializeDentry_serializeInDentryFormat`: a file inode with original IDs (version 5 of the
format) is read back. The numbers of blocks of the chunk files come back if the file is sparse.
-/

namespace Fhgfs.Metadata

open Wire Serialization Storage FileInodeStoreData Reads List Bool

theorem serbufSize_lt : DIRENTRY_SERBUF_SIZE + 8 < 2 ^ 32 := by decide

namespace DentryDiskData

/-- `d₀` after the mirror node of `d` was read into it. -/
def readMirrorNodeID (d d₀ : DentryDiskData) : DentryDiskData :=
  if d.dentryFeatureFlags &&& DENTRY_FEATURE_MIRRORED ≠ 0 then d₀.setMirrorNodeID d.mirrorNodeID
  else d₀

theorem reads_mirrorNodeID {d d₀ : DentryDiskData}
    (hFlags : d₀.dentryFeatureFlags = d.dentryFeatureFlags) :
    Reads d₀.deserializeMirrorNodeID d.serializeMirrorNodeID (d.readMirrorNodeID d₀) := by
  unfold deserializeMirrorNodeID serializeMirrorNodeID readMirrorNodeID
  rw [hFlags]
  split
  · apply (reads_uint16 _).bind
    apply (skip_of_length rfl).bind_of_nil
    exact .pure _
  · apply (skip_of_length rfl).bind_of_nil
    exact .pure _

theorem or_mirrored {flags : UInt16} (h : flags &&& DENTRY_FEATURE_MIRRORED ≠ 0) :
    flags ||| DENTRY_FEATURE_MIRRORED = flags := by
  have hBit : flags.toNat.testBit 2 = true := by
    rw [← not_eq_false]
    intro hClear
    apply h
    rw [← UInt16.toNat_inj, UInt16.toNat_and]
    show flags.toNat &&& 2 ^ 2 = 0
    rw [Nat.and_two_pow, hClear]
    rfl
  rw [← UInt16.toNat_inj, UInt16.toNat_or]
  apply Nat.eq_of_testBit_eq
  intro i
  show (flags.toNat ||| 2 ^ 2).testBit i = _
  rw [Nat.testBit_or, Nat.testBit_two_pow]
  by_cases hi : 2 = i
  · subst hi
    rw [hBit, Bool.true_or]
  · rw [decide_eq_false hi, Bool.or_false]

theorem dentryFeatureFlags_readMirrorNodeID (d : DentryDiskData) {d₀ : DentryDiskData}
    (hFlags : d₀.dentryFeatureFlags = d.dentryFeatureFlags) :
    (d.readMirrorNodeID d₀).dentryFeatureFlags = d.dentryFeatureFlags := by
  unfold readMirrorNodeID
  split
  · next hMirrored =>
    rw [setMirrorNodeID, hFlags]
    exact or_mirrored hMirrored
  · exact hFlags

theorem entryType_readMirrorNodeID (d d₀ : DentryDiskData) :
    (d.readMirrorNodeID d₀).entryType = d₀.entryType := by
  unfold readMirrorNodeID
  split <;> rfl

end DentryDiskData

namespace FileInodeStoreData

/-- Without a stored original owner, the owner is the original one. -/
def OrigUIDKnown (d : FileInodeStoreData) : Prop :=
  d.hasInodeFeatureFlag FILEINODE_FEATURE_HAS_ORIG_UID = false →
    d.origParentUID = d.inodeStatData.settableFileAttribs.userID

variable {d d₀ : FileInodeStoreData}

section

variable (hFlags : d₀.inodeFeatureFlags = d.inodeFeatureFlags)
include hFlags

theorem hasInodeFeatureFlag_congr
    (flag : UInt32) : d₀.hasInodeFeatureFlag flag = d.hasInodeFeatureFlag flag := by
  unfold hasInodeFeatureFlag
  rw [hFlags]

theorem reads_origUID (hUser : d₀.inodeStatData.settableFileAttribs.userID =
      d.inodeStatData.settableFileAttribs.userID) (hUID : d.OrigUIDKnown) :
    Reads d₀.deserializeOrigUID d.serializeOrigUID
      { d₀ with origParentUID := d.origParentUID } := by
  unfold serializeOrigUID deserializeOrigUID
  rw [hasInodeFeatureFlag_congr hFlags]
  cases hStored : d.hasInodeFeatureFlag FILEINODE_FEATURE_HAS_ORIG_UID with
  | true =>
    apply (reads_uint _).bind_of_nil
    exact .pure _
  | false =>
    rw [hUID hStored, ← hUser]
    exact .pure _

theorem reads_origParentEntryID
    (hFits : d.serializeOrigParentEntryID.length ≤ DIRENTRY_SERBUF_SIZE) :
    Reads d₀.deserializeOrigParentEntryID d.serializeOrigParentEntryID { d₀ with
        origParentEntryID :=
          if d.hasInodeFeatureFlag FILEINODE_FEATURE_HAS_ORIG_PARENTID then
            storedStr d.origParentEntryID
          else d₀.origParentEntryID } := by
  unfold serializeOrigParentEntryID at hFits ⊢
  unfold deserializeOrigParentEntryID
  rw [hasInodeFeatureFlag_congr hFlags]
  cases hStored : d.hasInodeFeatureFlag FILEINODE_FEATURE_HAS_ORIG_PARENTID with
  | true =>
    rw [hStored, if_pos rfl] at hFits
    have hMax := serbufSize_lt
    apply (reads_storedStr (by omega)).bind_of_nil
    exact .pure _
  | false => exact .pure _

theorem reads_mirrorNodeID : Reads d₀.deserializeMirrorNodeID d.serializeMirrorNodeID { d₀ with
        mirrorNodeID :=
          if d.hasInodeFeatureFlag FILEINODE_FEATURE_MIRRORED then d.mirrorNodeID
          else d₀.mirrorNodeID } := by
  unfold serializeMirrorNodeID deserializeMirrorNodeID
  rw [hasInodeFeatureFlag_congr hFlags]
  cases d.hasInodeFeatureFlag FILEINODE_FEATURE_MIRRORED with
  | true =>
    apply (reads_uint16 _).bind_of_nil
    exact .pure _
  | false => exact .pure _

end

/-- `d₀` after the inode data `d` of an entry was read into it. -/
def readInto (entryID : List UInt8) (d d₀ : FileInodeStoreData) : FileInodeStoreData where
  inodeFeatureFlags := d.inodeFeatureFlags
  inodeStatData := d.inodeStatData.readInto false true false d₀.inodeStatData
  entryID := storedStr entryID
  stripePattern := d.stripePattern.normalized
  origFeature := d₀.origFeature
  origParentUID := d.origParentUID
  origParentEntryID :=
    if d.hasInodeFeatureFlag FILEINODE_FEATURE_HAS_ORIG_PARENTID then
      storedStr d.origParentEntryID
    else d₀.origParentEntryID
  mirrorNodeID :=
    if d.hasInodeFeatureFlag FILEINODE_FEATURE_MIRRORED then d.mirrorNodeID else d₀.mirrorNodeID

end FileInodeStoreData

namespace DiskMetaData

variable {m m₀ : DiskMetaData}

theorem reads_dentryV5 (hFlags : checkFeatureFlagsCompat m.inodeData.inodeFeatureFlags
      getSupportedDentryV5FileInodeFeatureFlags = true)
    (hChunk : m.inodeData.stripePattern.chunkSize ≠ 0) (hUID : m.inodeData.OrigUIDKnown)
    (hFits : m.serializeDentryV5.length ≤ DIRENTRY_SERBUF_SIZE) (m₀ : DiskMetaData) :
    Reads m₀.deserializeDentryV5 m.serializeDentryV5
      ⟨{ m₀.dentryDiskData with entryID := storedStr m.dentryDiskData.entryID },
        m.inodeData.readInto m.dentryDiskData.entryID m₀.inodeData⟩ := by
  have hMax := serbufSize_lt
  simp only [serializeDentryV5, length_append] at hFits
  apply Reads.of_eq
  · apply (reads_uint _).bind
    apply (Reads.ensure hFlags).bind
    apply (Reads.skip 4).bind
    apply (StatData.reads_statData (by omega) _).bind
    apply (FileInodeStoreData.reads_origUID (by rfl) (by rfl) hUID).bind
    apply (FileInodeStoreData.reads_origParentEntryID (by rfl) (by omega)).bind
    apply (reads_storedStr (by omega)).bind
    apply (FileInodeStoreData.reads_mirrorNodeID (by rfl)).bind
    apply (StripePattern.reads_stripePattern hChunk (by omega)).bind_of_nil
    exact .pure _
  · rfl

theorem dentryFormatVersion_eq (hFile : m.dentryDiskData.isDir = false)
    (hOrig : m.inodeData.origFeature = .TRUE) :
    m.dentryFormatVersion = DIRENTRY_STORAGE_FORMAT_VER5 := by
  rw [dentryFormatVersion, hFile, if_neg Bool.false_ne_true, if_pos hOrig]

def readInto (localNodeID : UInt16) (m m₀ : DiskMetaData) : DiskMetaData where
  dentryDiskData :=
    { m.dentryDiskData.readMirrorNodeID
        { m₀.dentryDiskData with
          dentryFeatureFlags := m.dentryDiskData.dentryFeatureFlags
          entryType := m.dentryDiskData.entryType } with
      ownerNodeID := localNodeID
      entryID := storedStr m.dentryDiskData.entryID }
  inodeData :=
    { m.inodeData.readInto m.dentryDiskData.entryID m₀.inodeData with origFeature := .TRUE }

theorem reads_inDentryFormat (metaDataType : DiskMetaDataType)
    (hFile : m.dentryDiskData.isDir = false) (hOrig : m.inodeData.origFeature = .TRUE)
    (hDentryFlags : checkFeatureFlagsCompat m.dentryDiskData.dentryFeatureFlags.toUInt32
      getSupportedDentryFeatureFlags = true)
    (hInodeFlags : checkFeatureFlagsCompat m.inodeData.inodeFeatureFlags
      getSupportedDentryV5FileInodeFeatureFlags = true)
    (hChunk : m.inodeData.stripePattern.chunkSize ≠ 0) (hUID : m.inodeData.OrigUIDKnown)
    (hFits : (m.serializeInDentryFormat metaDataType).length ≤ DIRENTRY_SERBUF_SIZE)
    (localNodeID : UInt16) (m₀ : DiskMetaData) :
    Reads (m₀.deserializeInDentryFormat localNodeID) (m.serializeInDentryFormat metaDataType)
      (m.readInto localNodeID m₀) := by
  have hVersion := dentryFormatVersion_eq hFile hOrig
  unfold serializeInDentryFormat at hFits ⊢
  rw [hVersion, if_neg (by decide), if_neg (by decide)] at hFits ⊢
  rw [length_append] at hFits
  have hBody : ∀ m₁ : DiskMetaData, Reads
      (deserializeVersion localNodeID DIRENTRY_STORAGE_FORMAT_VER5 m₁) m.serializeDentryV5
      ⟨{ m₁.dentryDiskData with
          ownerNodeID := localNodeID, entryID := storedStr m.dentryDiskData.entryID },
        { m.inodeData.readInto m.dentryDiskData.entryID m₁.inodeData with
          origFeature := .TRUE }⟩ := by
    intro m₁
    unfold deserializeVersion
    rw [if_neg (by decide), if_neg (by decide), if_pos rfl]
    apply (reads_dentryV5 hInodeFlags hChunk hUID (by omega) _).bind_of_nil
    exact .pure _
  unfold serializeHeader
  rw [hVersion]
  apply (reads_uint8 _).bind
  apply (reads_uint8 _).bind
  apply (reads_uint16 _).bind
  apply (ensure hDentryFlags).bind
  apply (reads_uint8 _).bind
  apply (DentryDiskData.reads_mirrorNodeID (by rfl)).bind
  exact hBody _

/-- A file inode with original IDs that fits the buffer is read back, in memory with anything in
the unwritten bytes and behind the data. The chunk block vector of a file that is not sparse is
not stored. -/
theorem deserializeDentry_serializeInDentryFormat (localNodeID : UInt16)
    (metaDataType : DiskMetaDataType) (m m₀ : DiskMetaData) (mem rest : List UInt8)
    (hFile : m.dentryDiskData.isDir = false) (hOrig : m.inodeData.origFeature = .TRUE)
    (hDentryFlags : checkFeatureFlagsCompat m.dentryDiskData.dentryFeatureFlags.toUInt32
      getSupportedDentryFeatureFlags = true)
    (hInodeFlags : checkFeatureFlagsCompat m.inodeData.inodeFeatureFlags
      getSupportedDentryV5FileInodeFeatureFlags = true)
    (hChunk : m.inodeData.stripePattern.chunkSize ≠ 0) (hUID : m.inodeData.OrigUIDKnown)
    (hFits : (m.serializeInDentryFormat metaDataType).length ≤ DIRENTRY_SERBUF_SIZE)
    (hMem : Fills (m.serializeInDentryFormat metaDataType) mem) :
    ∃ m', m₀.deserializeDentry localNodeID (mem ++ rest) = .ok m' ∧
      m'.dentryDiskData.dentryFeatureFlags = m.dentryDiskData.dentryFeatureFlags ∧
      m'.inodeData.inodeFeatureFlags = m.inodeData.inodeFeatureFlags ∧
      m'.inodeData.inodeStatData = { m.inodeData.inodeStatData with
        chunkBlocksVec :=
          if m.inodeData.inodeStatData.getIsSparseFile then
            ⟨m₀.inodeData.inodeStatData.chunkBlocksVec.chunkBlocksVec ++
              m.inodeData.inodeStatData.chunkBlocksVec.chunkBlocksVec⟩
          else m₀.inodeData.inodeStatData.chunkBlocksVec } ∧
      m'.dentryDiskData.entryID = storedStr m.dentryDiskData.entryID ∧
      m'.inodeData.entryID = storedStr m.dentryDiskData.entryID ∧
      m'.inodeData.origParentUID = m.inodeData.origParentUID ∧
      (m.inodeData.hasInodeFeatureFlag FILEINODE_FEATURE_HAS_ORIG_PARENTID = true →
        m'.inodeData.origParentEntryID = storedStr m.inodeData.origParentEntryID) ∧
      (m.inodeData.hasInodeFeatureFlag FILEINODE_FEATURE_MIRRORED = true →
        m'.inodeData.mirrorNodeID = m.inodeData.mirrorNodeID) ∧
      m'.inodeData.stripePattern = m.inodeData.stripePattern.normalized := by
  have hReads := reads_inDentryFormat metaDataType hFile hOrig hDentryFlags hInodeFlags hChunk
    hUID hFits localNodeID m₀ mem rest DIRENTRY_SERBUF_SIZE hMem (by rwa [hMem.length_eq])
  refine ⟨m.readInto localNodeID m₀, ?_, ?_, rfl, rfl, rfl, rfl, rfl, fun hFlag => ?_,
    fun hFlag => ?_, rfl⟩
  · unfold deserializeDentry
    rw [hReads]
  · exact m.dentryDiskData.dentryFeatureFlags_readMirrorNodeID rfl
  · exact if_pos hFlag
  · exact if_pos hFlag

/-- A file with one target. All original IDs and a mirror node are stored. -/
def oneTargetFile (statFlags : UInt32) : DiskMetaData where
  dentryDiskData := ⟨[70], 2, 1, 3, 0⟩
  inodeData :=
    { inodeFeatureFlags := 49
      inodeStatData := ⟨statFlags, 4, 0, 0, 1, ⟨0, 7, 0, 0, 0⟩, 0, ⟨[8]⟩⟩
      entryID := [70]
      stripePattern := ⟨4, .raid0 [1], 4, 1⟩
      origFeature := .TRUE
      origParentUID := 5
      origParentEntryID := [68]
      mirrorNodeID := 2 }

def emptyMetaData : DiskMetaData where
  dentryDiskData := ⟨[], 0, 0, 0, 0⟩
  inodeData :=
    { inodeFeatureFlags := 0
      inodeStatData := ⟨0, 0, 0, 0, 0, ⟨0, 0, 0, 0, 0⟩, 0, ⟨[]⟩⟩
      entryID := []
      stripePattern := ⟨0, .raid0 [], 0, 0⟩
      origFeature := .UNSET
      origParentUID := 0
      origParentEntryID := []
      mirrorNodeID := 0 }

theorem deserializeDentry_sparseFile :
    ∃ m', emptyMetaData.deserializeDentry 1 (fill (fun _ => 255)
          ((oneTargetFile STATDATA_FEATURE_SPARSE_FILE).serializeInDentryFormat .FILEDENTRY)) =
          .ok m' ∧
      m'.inodeData.inodeStatData.chunkBlocksVec = ⟨[8]⟩ := by
  obtain ⟨m', hOk, -, -, hStat, -⟩ := deserializeDentry_serializeInDentryFormat 1 .FILEDENTRY
    (oneTargetFile STATDATA_FEATURE_SPARSE_FILE) emptyMetaData _ [] (by decide) (by decide)
    (by decide) (by decide) (by decide) (by unfold OrigUIDKnown; decide)
    (by decide +kernel) (fills_fill _ _)
  rw [append_nil] at hOk
  refine ⟨m', hOk, ?_⟩
  rw [hStat]
  rfl

/-- The same file without the sparse flag. -/
theorem not_restores_chunkBlocksVec :
    (oneTargetFile 0).inodeData.origFeature = .TRUE ∧
      (oneTargetFile 0).inodeData.stripePattern.chunkSize ≠ 0 ∧
      (oneTargetFile 0).inodeData.OrigUIDKnown ∧
      ((oneTargetFile 0).serializeInDentryFormat .FILEDENTRY).length ≤ DIRENTRY_SERBUF_SIZE ∧
      ¬∃ m', emptyMetaData.deserializeDentry 1
          (fill (fun _ => 0) ((oneTargetFile 0).serializeInDentryFormat .FILEDENTRY)) = .ok m' ∧
        m'.inodeData.inodeStatData = (oneTargetFile 0).inodeData.inodeStatData := by
  have hUID : (oneTargetFile 0).inodeData.OrigUIDKnown := by
    unfold OrigUIDKnown
    decide
  have hFits : ((oneTargetFile 0).serializeInDentryFormat .FILEDENTRY).length ≤
      DIRENTRY_SERBUF_SIZE := by decide +kernel
  refine ⟨by decide, by decide, hUID, hFits, ?_⟩
  intro ⟨m', hOk, hStat⟩
  have hReads := reads_inDentryFormat (m := oneTargetFile 0) .FILEDENTRY (by decide)
    (by decide) (by decide) (by decide) (by decide) hUID hFits 1 emptyMetaData _ []
    DIRENTRY_SERBUF_SIZE (fills_fill (fun _ => 0) _) (by rwa [length_fill])
  rw [append_nil] at hReads
  unfold deserializeDentry at hOk
  rw [hReads] at hOk
  cases hOk
  exact absurd (congrArg StatData.chunkBlocksVec hStat) (by decide)

end DiskMetaData

end Fhgfs.Metadata
