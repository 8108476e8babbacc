import Fhgfs.Common.StatData

/-!
# The flag of sparse files

`updateDynamicFileAttribs` marks a file as sparse if its chunk files use fewer blocks than its new
size needs. It takes the number of used blocks from `getNumBlocks`, which looks at the flag and at
the size that the file had before.

* `enterBlocks_eq`: what is in the block vector after the reported counts were entered.
* `flagsReported_iff`: the flag tells of the reported blocks exactly if the old size, or the vector
  of a file that was marked as sparse, is on the same side of the new size as they are.
* `flagsReported_of_sparse`: it does for files that were marked, with a report for each target.
-/

namespace Fhgfs

open List ChunksBlocksVec ChunkFileInfo

/-- The blocks that the chunk files use, over all targets. -/
def reportedBlocks (fileInfoVec : List ChunkFileInfo) : Nat :=
  (fileInfoVec.map fun info => info.getNumBlocks.toNat).sum

namespace ChunksBlocksVec

def resized (n : Nat) (v : List UInt64) : List UInt64 :=
  if v.isEmpty then replicate n 0 else v

/-- The counts after reports were entered: a target without a report keeps its count, and a report
without a target has no place. -/
def entered (n : Nat) (infos : List ChunkFileInfo) (v : List UInt64) : List UInt64 :=
  (infos.map getNumBlocks).take (resized n v).length ++ (resized n v).drop infos.length

theorem resized_resized (n : Nat) (v : List UInt64) : resized n (resized n v) = resized n v := by
  unfold resized
  split_ifs <;> simp_all

theorem enterBlocks_of_resized {n target : Nat} {infos : List ChunkFileInfo} {v : List UInt64}
    (hOld : resized n v = v) :
    (enterBlocks n target infos ⟨v⟩).chunkBlocksVec = v.take target ++
      ((infos.map getNumBlocks).take (v.length - target) ++ v.drop (target + infos.length)) := by
  induction infos generalizing target v with
  | nil => simp [enterBlocks]
  | cons info rest ih =>
    have hSet : (ChunksBlocksVec.mk v).setNumBlocks target info.getNumBlocks n =
        ⟨v.set target info.getNumBlocks⟩ :=
      congrArg (fun w => ChunksBlocksVec.mk (w.set target info.getNumBlocks)) hOld
    have hOld' : resized n (v.set target info.getNumBlocks) = v.set target info.getNumBlocks := by
      cases v with
      | nil => exact hOld
      | cons => cases target <;> rfl
    rw [enterBlocks, hSet, ih hOld', length_set, drop_set_of_lt (by omega), map_cons, length_cons,
      add_right_comm, add_assoc]
    by_cases hIn : target < v.length
    · have hLeft : v.length - target = v.length - (target + 1) + 1 := by omega
      rw [take_succ_eq_append_getElem (by rwa [length_set]), getElem_set_self,
        take_set_of_le le_rfl, hLeft, take_succ_cons, append_assoc, singleton_append, cons_append]
    · have hTake : ∀ k, target ≤ k → v.take k = v := fun k _ => take_of_length_le (by omega)
      rw [set_eq_of_length_le (by omega), hTake target le_rfl, hTake (target + 1) (by omega),
        Nat.sub_eq_zero_of_le (by omega), Nat.sub_eq_zero_of_le (by omega)]
      rfl

theorem enterBlocks_eq {n : Nat} {infos : List ChunkFileInfo} (v : ChunksBlocksVec)
    (hInfos : infos ≠ []) :
    (enterBlocks n 0 infos v).chunkBlocksVec = entered n infos v.chunkBlocksVec := by
  have hResized : enterBlocks n 0 infos v = enterBlocks n 0 infos ⟨resized n v.chunkBlocksVec⟩ := by
    cases infos with
    | nil => exact absurd rfl hInfos
    | cons info rest =>
      have hSet : v.setNumBlocks 0 info.getNumBlocks n =
          (ChunksBlocksVec.mk (resized n v.chunkBlocksVec)).setNumBlocks 0 info.getNumBlocks n :=
        congrArg (fun w => ChunksBlocksVec.mk (w.set 0 info.getNumBlocks))
          (resized_resized n v.chunkBlocksVec).symm
      rw [enterBlocks, hSet, enterBlocks]
  rw [hResized, enterBlocks_of_resized (resized_resized _ _), take_zero, nil_append, Nat.sub_zero,
    zero_add, entered]

theorem toNat_foldl_add (l : List UInt64) (a : UInt64) :
    (l.foldl (· + ·) a).toNat = (a.toNat + (l.map UInt64.toNat).sum) % 2 ^ 64 := by
  induction l generalizing a with
  | nil =>
    rw [foldl_nil, map_nil, sum_nil, add_zero, Nat.mod_eq_of_lt a.toNat_lt]
  | cons x l ih =>
    rw [foldl_cons, ih, UInt64.toNat_add, map_cons, sum_cons, Nat.mod_add_mod, add_assoc]

end ChunksBlocksVec

namespace StatData

variable {nowSecs : Int64} {fileInfoVec : List ChunkFileInfo} {stripePattern : StripePattern}
  {s : StatData}

def calcBlocks (size : Int64) : UInt64 :=
  (size >>> unsignedToInt64 STATDATA_SIZETOBLOCKSBIT_SHIFT).toUInt64

/-- The blocks that are compared with the new size. The file is still marked, and as large, as it
was before; only the vector has the reported blocks. -/
def comparedBlocks (s : StatData) (fileInfoVec : List ChunkFileInfo)
    (stripePattern : StripePattern) : UInt64 :=
  if s.getIsSparseFile then
    (s.chunkBlocksVec.enterBlocks stripePattern.getNumStripeTargetIDs 0 fileInfoVec).getBlockSum
  else calcBlocks s.fileSize

/-- The flag is set exactly if more than the grace blocks are missing. -/
def FlagsReported (s : StatData) (nowSecs : Int64) (fileInfoVec : List ChunkFileInfo)
    (stripePattern : StripePattern) : Prop :=
  let updated := s.updateDynamicFileAttribs nowSecs fileInfoVec stripePattern
  updated.getIsSparseFile = true ↔
    (reportedBlocks fileInfoVec : Int) + 8 < updated.fileSize.toInt / 512

/-- A number of blocks, taken with 64 bits, is on the same side of the size as the reported one. -/
def SameSide (size : Int64) (fileInfoVec : List ChunkFileInfo) (blocks : Int) : Prop :=
  (blocks + 8) % 2 ^ 64 < size.toInt / 512 % 2 ^ 64 ↔
    (reportedBlocks fileInfoVec : Int) + 8 < size.toInt / 512

/-- What the file had before is on the same side of the new size as the reported blocks: for a
marked file its vector with the reports, for another one its size. -/
structure OldDataAgrees (s : StatData) (fileInfoVec : List ChunkFileInfo)
    (stripePattern : StripePattern) : Prop where
  marked : s.getIsSparseFile = true →
    SameSide (reportedFileSize fileInfoVec stripePattern) fileInfoVec
      ((entered stripePattern.getNumStripeTargetIDs fileInfoVec
        s.chunkBlocksVec.chunkBlocksVec).map UInt64.toNat).sum
  notMarked : s.getIsSparseFile = false →
    SameSide (reportedFileSize fileInfoVec stripePattern) fileInfoVec (s.fileSize.toInt / 512)

/-! ## The flag -/

theorem getIsSparseFile_setSparseFlag (s : StatData) : s.setSparseFlag.getIsSparseFile = true := by
  have hBit : (s.flags ||| 1) &&& 1 = 1 := by
    rw [← UInt32.toBitVec_inj, UInt32.toBitVec_and, UInt32.toBitVec_or]
    ext i hi
    simp
    exact Or.inr
  unfold setSparseFlag getIsSparseFile STATDATA_FEATURE_SPARSE_FILE
  rw [hBit]
  rfl

theorem getIsSparseFile_unsetSparseFlag (s : StatData) :
    s.unsetSparseFlag.getIsSparseFile = false := by
  have hBit : (s.flags &&& ~~~1) &&& 1 = 0 := by
    rw [UInt32.and_assoc]
    exact UInt32.and_zero
  unfold unsetSparseFlag getIsSparseFile STATDATA_FEATURE_SPARSE_FILE
  rw [hBit]
  rfl

theorem getIsSparseFile_updateSparseFlag (newFileSize : Int64) (s : StatData) :
    (s.updateSparseFlag newFileSize).getIsSparseFile = true ↔
      s.getNumBlocks + STATDATA_SPARSE_GRACEBLOCKS < calcBlocks newFileSize := by
  unfold updateSparseFlag
  dsimp only
  rw [← calcBlocks]
  split_ifs with hMissing
  · exact iff_of_true (getIsSparseFile_setSparseFlag s) hMissing
  · rw [getIsSparseFile_unsetSparseFlag]
    exact iff_of_false nofun hMissing

theorem getIsSparseFile_updateDynamicFileAttribs
    (hValid : ∃ info ∈ fileInfoVec, info.getStorageVersion ≠ 0)
    (hSize : reportedFileSize fileInfoVec stripePattern ≠ 0) :
    (s.updateDynamicFileAttribs nowSecs fileInfoVec stripePattern).getIsSparseFile = true ↔
      s.comparedBlocks fileInfoVec stripePattern + STATDATA_SPARSE_GRACEBLOCKS <
        calcBlocks (reportedFileSize fileInfoVec stripePattern) := by
  obtain ⟨l, flagged, hStat, hFlagged, hUpdated⟩ :=
    updateDynamicFileAttribs_of_valid nowSecs s stripePattern hValid
  have hBlocks : l.statData.getNumBlocks = s.comparedBlocks fileInfoVec stripePattern := by
    rw [hStat]
    rfl
  rw [hUpdated, hFlagged hSize, ← hBlocks]
  exact getIsSparseFile_updateSparseFlag _ _

theorem fileSize_updateDynamicFileAttribs_of_valid
    (hValid : ∃ info ∈ fileInfoVec, info.getStorageVersion ≠ 0) :
    (s.updateDynamicFileAttribs nowSecs fileInfoVec stripePattern).fileSize =
      reportedFileSize fileInfoVec stripePattern := by
  obtain ⟨l, flagged, -, -, hUpdated⟩ :=
    updateDynamicFileAttribs_of_valid nowSecs s stripePattern hValid
  rw [hUpdated, fileSize_applyDynAttribs]

/-! ## The compared blocks -/

theorem toNat_calcBlocks (size : Int64) :
    ((calcBlocks size).toNat : Int) = size.toInt / 512 % 2 ^ 64 := by
  have hShift : (size >>> unsignedToInt64 STATDATA_SIZETOBLOCKSBIT_SHIFT).toInt =
      size.toInt / 512 :=
    toInt_shiftRight_unsigned (by decide)
  rw [← hShift, calcBlocks]
  generalize size >>> unsignedToInt64 STATDATA_SIZETOBLOCKSBIT_SHIFT = shifted
  show (shifted.toBitVec.toNat : Int) = shifted.toBitVec.toInt % 2 ^ 64
  have hLt := shifted.toBitVec.isLt
  rw [BitVec.toInt_eq_toNat_cond]
  split_ifs <;> omega

theorem grace_lt_calcBlocks_iff {blocks : UInt64} {n : Int} (size : Int64)
    (hBlocks : (blocks.toNat : Int) = n % 2 ^ 64) :
    blocks + STATDATA_SPARSE_GRACEBLOCKS < calcBlocks size ↔
      (n + 8) % 2 ^ 64 < size.toInt / 512 % 2 ^ 64 := by
  have hGrace : (blocks + STATDATA_SPARSE_GRACEBLOCKS).toNat = (blocks.toNat + 8) % 2 ^ 64 :=
    UInt64.toNat_add _ _
  rw [UInt64.lt_iff_toNat_lt, hGrace, ← toNat_calcBlocks]
  omega

theorem flagsReported_iff_agrees (hValid : ∃ info ∈ fileInfoVec, info.getStorageVersion ≠ 0)
    (hSize : reportedFileSize fileInfoVec stripePattern ≠ 0) :
    s.FlagsReported nowSecs fileInfoVec stripePattern ↔
      s.OldDataAgrees fileInfoVec stripePattern := by
  have hInfos : fileInfoVec ≠ [] := fun hNone => by simp [hNone] at hValid
  unfold FlagsReported
  dsimp only
  rw [fileSize_updateDynamicFileAttribs_of_valid hValid,
    getIsSparseFile_updateDynamicFileAttribs hValid hSize]
  cases hOld : s.getIsSparseFile with
  | true =>
    have hSum : ((s.comparedBlocks fileInfoVec stripePattern).toNat : Int) =
        ((entered stripePattern.getNumStripeTargetIDs fileInfoVec
          s.chunkBlocksVec.chunkBlocksVec).map UInt64.toNat).sum % 2 ^ 64 := by
      rw [comparedBlocks, if_pos hOld, getBlockSum, enterBlocks_eq _ hInfos, toNat_foldl_add]
      simp
    rw [grace_lt_calcBlocks_iff _ hSum]
    exact ⟨fun h => ⟨fun _ => h, fun hNot => nomatch hOld.symm.trans hNot⟩,
      fun h => h.marked hOld⟩
  | false =>
    have hNotMarked : ¬ s.getIsSparseFile = true := Bool.eq_false_iff.mp hOld
    have hBlocks : ((s.comparedBlocks fileInfoVec stripePattern).toNat : Int) =
        s.fileSize.toInt / 512 % 2 ^ 64 := by
      rw [comparedBlocks, if_neg hNotMarked, toNat_calcBlocks]
    rw [grace_lt_calcBlocks_iff _ hBlocks]
    exact ⟨fun h => ⟨fun hMarked => absurd hMarked hNotMarked, fun _ => h⟩,
      fun h => h.notMarked hOld⟩

/-- The decision is meant to depend on the blocks that the chunk files report. It does if what the
file had before is on the same side of the new size. -/
theorem flagsReported_iff (nowSecs : Int64) (s : StatData)
    (hValid : ∃ info ∈ fileInfoVec, info.getStorageVersion ≠ 0)
    (hSize : (s.updateDynamicFileAttribs nowSecs fileInfoVec stripePattern).fileSize ≠ 0) :
    s.FlagsReported nowSecs fileInfoVec stripePattern ↔
      s.OldDataAgrees fileInfoVec stripePattern := by
  rw [fileSize_updateDynamicFileAttribs_of_valid hValid] at hSize
  exact flagsReported_iff_agrees hValid hSize

/-- With a report for each target, the counts in the vector are the reported ones. -/
theorem entered_of_reports {n : Nat} {v : List UInt64} (hTargets : fileInfoVec.length = n)
    (hVec : v = [] ∨ v.length = fileInfoVec.length) :
    entered n fileInfoVec v = fileInfoVec.map ChunkFileInfo.getNumBlocks := by
  have hLength : (resized n v).length = fileInfoVec.length := by
    unfold resized
    rcases hVec with rfl | hVec
    · exact length_replicate.trans hTargets.symm
    · split_ifs with hEmpty
      · exact length_replicate.trans hTargets.symm
      · exact hVec
  rw [entered, hLength, take_of_length_le (by rw [length_map]), drop_of_length_le hLength.le,
    append_nil]

def newFile : StatData := ⟨0, 0, 0, 0, 1, ⟨0, 0, 0, 0, 0⟩, 0, ⟨[]⟩⟩

/-- A chunk file of 1 MiB that uses all its blocks. -/
def fullChunk : ChunkFileInfo := .new 1048576 ⟨1, 1048576, 2048, 0, 0⟩

def onePattern : StripePattern := ⟨1048576, .raid0 [1], 1048576, 1⟩

/-- A file with 4096 bytes and all its blocks. -/
theorem flagsReported_iff_small :
    newFile.FlagsReported 1 [.new 1048576 ⟨1, 4096, 8, 0, 0⟩] onePattern ↔
      newFile.OldDataAgrees [.new 1048576 ⟨1, 4096, 8, 0, 0⟩] onePattern :=
  flagsReported_iff 1 newFile (by decide) (by decide)

/-- All blocks of the new file are there, and the file is marked as sparse. -/
theorem not_flagsReported :
    ¬ ∀ (s : StatData) (nowSecs : Int64) (fileInfoVec : List ChunkFileInfo)
      (stripePattern : StripePattern), (∃ info ∈ fileInfoVec, info.getStorageVersion ≠ 0) →
      (s.updateDynamicFileAttribs nowSecs fileInfoVec stripePattern).fileSize ≠ 0 →
        s.FlagsReported nowSecs fileInfoVec stripePattern := by
  intro h
  have hFlags := h newFile 1 [fullChunk] onePattern (by decide) (by decide)
  exact absurd (hFlags.mp (by decide)) (by decide)

end StatData

end Fhgfs
