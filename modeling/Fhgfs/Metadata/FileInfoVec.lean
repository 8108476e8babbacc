import Fhgfs.Client.StripeAddress
import Fhgfs.Lib.StripedLengths
import Fhgfs.Metadata.FileInode

/-!
# The chunk files of a stored file size

`initFileInfoVec` splits the stored size of a file over its targets, before anything is known of
the chunk files. It takes the remainder after the last complete stripe set from a mask for a power
of two as the number of targets, and from a division for the others.

* `lastStripeSet_quick`, `lastStripeSet_slow`: both are the division.
* `initFileInfoVec_lengths`: the chunk files have the bytes of their targets.
* `initFileInfoVec_inverse`: the lengths add up to the size, and `updateDynamicFileAttribs`
  computes it from them.
* `getNodeLocalTruncPos_keepsBelow`: a truncation leaves the chunk files with the bytes below the
  new size.
* `setDynAttribs_converges`: reports of the chunk files may come in any order.
-/

namespace Fhgfs

open List ChunkFileInfo Striping StatData

/-- The blocks of a target, 0 for those out of range. -/
def ChunksBlocksVec.getNumBlocks (target : Nat) (v : ChunksBlocksVec) : UInt64 :=
  v.chunkBlocksVec.getD target 0

def StatData.getTargetChunkBlocks (target : Nat) (s : StatData) : UInt64 :=
  s.chunkBlocksVec.getNumBlocks target

namespace Metadata

/-- The remainder of a file size after its complete stripe sets, and the bytes that each target
has of these. -/
structure LastStripeSet where
  lastStripeSetSize : Int64
  fullLengthPerTarget : Int64
deriving DecidableEq

def lastStripeSetQuick (fileSize : Int64) (stripeSetSize : UInt32) (numTargets : Nat) :
    LastStripeSet :=
  let lastStripeSetSize := fileSize &&& unsignedToInt64 (stripeSetSize - 1)
  let stripeSetStart := fileSize - lastStripeSetSize
  ⟨lastStripeSetSize, stripeSetStart >>> unsignedToInt64 (log2Int32 (UInt32.ofNat numTargets))⟩

/-- `numTargets` is a `size_t`, so that the division is unsigned. -/
def lastStripeSetSlow (fileSize : Int64) (stripeSetSize : UInt32) (numTargets : Nat) :
    LastStripeSet :=
  let lastStripeSetSize := fileSize % unsignedToInt64 stripeSetSize
  let stripeSetStart := fileSize - lastStripeSetSize
  ⟨lastStripeSetSize, (stripeSetStart.toUInt64 / UInt64.ofNat numTargets).toInt64⟩

def lastStripeSet (fileSize : Int64) (stripeSetSize : UInt32) (numTargets : Nat) : LastStripeSet :=
  if isPowerOfTwo (UInt32.ofNat numTargets) then
    lastStripeSetQuick fileSize stripeSetSize numTargets
  else lastStripeSetSlow fileSize stripeSetSize numTargets

/-- The chunk file of a target as the metadata server assumes it, without a storage version. -/
def estimatedFileInfo (statData : StatData) (chunkSize : UInt32) (target : Nat)
    (targetFileLength : Int64) : ChunkFileInfo :=
  let usedBlocks :=
    if statData.getIsSparseFile then statData.getTargetChunkBlocks target
    else (targetFileLength >>> unsignedToInt64 STATDATA_SIZETOBLOCKSBIT_SHIFT).toUInt64
  .new chunkSize ⟨0, targetFileLength, usedBlocks.toInt64,
    statData.settableFileAttribs.modificationTimeSecs,
    statData.settableFileAttribs.lastAccessTimeSecs⟩

def fileInfosFrom (statData : StatData) (chunkSize : UInt32) (fullLengthPerTarget : Int64) :
    (numLeft target : Nat) → (remainingLastSetSize : Int64) → List ChunkFileInfo
  | 0, _, _ => []
  | numLeft + 1, target, remainingLastSetSize =>
    let targetFileLength :=
      if remainingLastSetSize > 0 then
        fullLengthPerTarget +
          (if remainingLastSetSize < unsignedToInt64 chunkSize then remainingLastSetSize
          else unsignedToInt64 chunkSize)
      else fullLengthPerTarget
    estimatedFileInfo statData chunkSize target targetFileLength ::
      fileInfosFrom statData chunkSize fullLengthPerTarget numLeft (target + 1)
        (remainingLastSetSize - unsignedToInt64 chunkSize)

def FileInode.initFileInfoVec (inode : FileInode) : List ChunkFileInfo :=
  let statData := inode.inodeDiskData.inodeStatData
  let pattern := inode.inodeDiskData.stripePattern
  let numTargets := pattern.getStripeTargetIDs.length
  let stripeSetSize := pattern.getChunkSize * UInt32.ofNat numTargets
  let last := lastStripeSet statData.fileSize stripeSetSize numTargets
  fileInfosFrom statData pattern.getChunkSize last.fullLengthPerTarget numTargets 0
    last.lastStripeSetSize

/-! ## The last stripe set -/

section LastStripeSet

variable {fileSize : Int64} {stripeSetSize : UInt32} {c n : Nat}

/-- The remainder and the complete stripe sets of a size. -/
structure LastStripeSet.Exact (last : LastStripeSet) (size c n : Nat) : Prop where
  lastStripeSetSize : last.lastStripeSetSize.toInt = (size % (c * n) : Nat)
  fullLengthPerTarget : last.fullLengthPerTarget.toInt = (size / (c * n) * c : Nat)

theorem LastStripeSet.Exact.unique {last last' : LastStripeSet} {size : Nat}
    (h : last.Exact size c n) (h' : last'.Exact size c n) : last = last' := by
  cases last
  cases last'
  rw [LastStripeSet.mk.injEq, ← Int64.toInt_inj, ← Int64.toInt_inj]
  exact ⟨h.1.trans h'.1.symm, h.2.trans h'.2.symm⟩

theorem ne_zero_of_toNat {value : UInt32} (h : value.toNat = n) (hn : n ≠ 0) : value ≠ 0 := by
  rintro rfl
  exact hn h.symm

theorem sub_mod_div (size c n : Nat) (hn : n ≠ 0) :
    (size - size % (c * n)) / n = size / (c * n) * c := by
  have hStart : size - size % (c * n) = size / (c * n) * c * n := by
    have hSplit := Nat.div_add_mod size (c * n)
    have hComm : size / (c * n) * c * n = c * n * (size / (c * n)) := by ring
    omega
  rw [hStart, Nat.mul_div_cancel _ (Nat.pos_of_ne_zero hn)]

variable (hSize : 0 ≤ fileSize.toInt)
include hSize

theorem toInt_stripeSetStart {last : Int64}
    (hLast : last.toInt = (fileSize.toInt.toNat % (c * n) : Nat)) :
    (fileSize - last).toInt = (fileSize.toInt.toNat - fileSize.toInt.toNat % (c * n) : Nat) := by
  have hLe := Nat.mod_le fileSize.toInt.toNat (c * n)
  have hLt := fileSize.toInt_lt
  rw [Int64.toInt_sub, hLast, Int.bmod_eq_of_le] <;> omega

theorem lastStripeSet_quick {k j : Nat} (hc : c = 2 ^ k)
    (hn : n = 2 ^ j) (hSet : stripeSetSize.toNat = c * n) (hFits : n < 2 ^ 32) :
    (lastStripeSetQuick fileSize stripeSetSize n).Exact fileSize.toInt.toNat c n := by
  have hTargets : (UInt32.ofNat n).toNat = 2 ^ j := by
    rw [UInt32.toNat_ofNat', Nat.mod_eq_of_lt hFits, hn]
  have hLog := log2Int32_of_pow hTargets
  have hj : j < 32 := by
    rw [hn] at hFits
    exact (Nat.pow_lt_pow_iff_right (by omega)).mp hFits
  have hLast : (fileSize &&& unsignedToInt64 (stripeSetSize - 1)).toInt =
      (fileSize.toInt.toNat % (c * n) : Nat) := by
    have hPow : stripeSetSize.toNat = 2 ^ (k + j) := by rw [hSet, hc, hn, pow_add]
    have hRest := toInt_and_mask hPow hSize
    rw [← Int.toNat_of_nonneg hSize] at hRest
    rw [hRest, hc, hn, ← pow_add]
    norm_cast
  constructor
  · exact hLast
  · show ((fileSize - (fileSize &&& unsignedToInt64 (stripeSetSize - 1))) >>>
      unsignedToInt64 (log2Int32 (UInt32.ofNat n))).toInt = _
    rw [toInt_shiftRight_unsigned (by omega), hLog, toInt_stripeSetStart hSize hLast,
      ← sub_mod_div _ c n (by rw [hn]; exact (Nat.two_pow_pos j).ne')]
    have hBase : ((2 : Int) ^ j) = (n : Nat) := by rw [hn]; norm_cast
    rw [hBase]
    norm_cast

theorem lastStripeSet_slow (hn : n ≠ 0) (hSet : stripeSetSize.toNat = c * n) (hFits : n < 2 ^ 32) :
    (lastStripeSetSlow fileSize stripeSetSize n).Exact fileSize.toInt.toNat c n := by
  have hLast : (fileSize % unsignedToInt64 stripeSetSize).toInt =
      (fileSize.toInt.toNat % (c * n) : Nat) := by
    rw [Int64.toInt_mod, toInt_unsignedToInt64, hSet, Int.tmod_eq_emod_of_nonneg hSize,
      Int.natCast_mod, Int.toNat_of_nonneg hSize]
  constructor
  · exact hLast
  · show ((fileSize - fileSize % unsignedToInt64 stripeSetSize).toUInt64 /
      UInt64.ofNat n).toInt64.toInt = _
    have hStart := toInt_stripeSetStart hSize hLast
    rw [← sub_mod_div _ c n hn]
    generalize fileSize - fileSize % unsignedToInt64 stripeSetSize = start at hStart ⊢
    apply toInt_toInt64_of_toNat
    · rw [UInt64.toNat_div, toNat_toUInt64_of_toInt hStart, UInt64.toNat_ofNat',
        Nat.mod_eq_of_lt (show n < 2 ^ 64 by omega)]
    · have hLe := Nat.div_le_self (fileSize.toInt.toNat - fileSize.toInt.toNat % (c * n)) n
      have hLt := fileSize.toInt_lt
      omega

theorem lastStripeSet_exact {k : Nat} (hc : c = 2 ^ k) (hn : n ≠ 0)
    (hSet : stripeSetSize.toNat = c * n) (hFits : n < 2 ^ 32) :
    (lastStripeSet fileSize stripeSetSize n).Exact fileSize.toInt.toNat c n := by
  have hTargets : (UInt32.ofNat n).toNat = n := by
    rw [UInt32.toNat_ofNat', Nat.mod_eq_of_lt hFits]
  unfold lastStripeSet
  split_ifs with hPow
  · obtain ⟨j, hj⟩ := (isPowerOfTwo_iff (ne_zero_of_toNat hTargets hn)).mp hPow
    exact lastStripeSet_quick hSize hc (hTargets.symm.trans hj) hSet hFits
  · exact lastStripeSet_slow hSize hn hSet hFits

end LastStripeSet

/-! ## The chunk files -/

section FileInfos

variable {statData : StatData} {chunkSize : UInt32} {full : Int64}

variable {remaining : Int64}

theorem mem_fileInfosFrom {numLeft target : Nat} {info : ChunkFileInfo}
    (hIn : info ∈ fileInfosFrom statData chunkSize full numLeft target remaining) :
    info.chunkSize = chunkSize ∧ info.getStorageVersion = 0 := by
  induction numLeft generalizing target remaining with
  | zero => exact absurd hIn not_mem_nil
  | succ numLeft ih =>
    rcases mem_cons.mp hIn with rfl | hLater
    · exact ⟨rfl, rfl⟩
    · exact ih hLater

theorem toInt_targetFileLength {q r t c : Nat}
    (hFull : full.toInt = (q : Nat)) (hChunk : chunkSize.toNat = c)
    (hRemaining : remaining.toInt = (r : Int) - t) (hFits : q + min r c < 2 ^ 63) :
    (if remaining > 0 then
        full + (if remaining < unsignedToInt64 chunkSize then remaining
          else unsignedToInt64 chunkSize)
      else full).toInt = (q + min (r - t) c : Nat) := by
  have hSize : (unsignedToInt64 chunkSize).toInt = c := by
    rw [toInt_unsignedToInt64, hChunk]
  have hPos : remaining > 0 ↔ t < r := by
    rw [gt_iff_lt, Int64.lt_iff_toInt_lt, hRemaining, Int64.toInt_zero]
    omega
  have hLess : remaining < unsignedToInt64 chunkSize ↔ (r : Int) - t < c := by
    rw [Int64.lt_iff_toInt_lt, hRemaining, hSize]
  rw [if_congr hPos rfl rfl, if_congr hLess rfl rfl]
  split_ifs
  · rw [Int64.toInt_add, hFull, hRemaining, Int.bmod_eq_of_le] <;> omega
  · rw [Int64.toInt_add, hFull, hSize, Int.bmod_eq_of_le] <;> omega
  · rw [hFull]
    omega

theorem toInt_fileInfosFrom {q r c numLeft target : Nat}
    (hFull : full.toInt = (q : Nat)) (hChunk : chunkSize.toNat = c)
    (hRemaining : remaining.toInt = (r : Int) - (target * c : Nat))
    (hTargets : (target + numLeft) * c < 2 ^ 32) (hr : r < 2 ^ 32) (hFits : q + min r c < 2 ^ 63) :
    (fileInfosFrom statData chunkSize full numLeft target remaining).map
        (fun info => info.getFileSize.toInt) =
      (range' target numLeft).map fun i => ((q + min (r - i * c) c : Nat) : Int) := by
  induction numLeft generalizing target remaining with
  | zero => rfl
  | succ numLeft ih =>
    have hBound : target * c + c ≤ (target + (numLeft + 1)) * c := by
      rw [← Nat.succ_mul]
      exact Nat.mul_le_mul_right c (by omega)
    have hNext : (remaining - unsignedToInt64 chunkSize).toInt =
        (r : Int) - ((target + 1) * c : Nat) := by
      rw [Int64.toInt_sub, hRemaining, toInt_unsignedToInt64, hChunk, Nat.succ_mul,
        Int.bmod_eq_of_le] <;> omega
    rw [fileInfosFrom, map_cons, range'_succ, map_cons,
      ih hNext (by rwa [add_right_comm, add_assoc])]
    exact congrArg (· :: _) (toInt_targetFileLength hFull hChunk hRemaining hFits)

end FileInfos

variable {inode : FileInode} {c n k : Nat}

theorem toInt_initFileInfoVec (hSize : 0 ≤ inode.inodeDiskData.inodeStatData.fileSize.toInt)
    (hChunk : inode.inodeDiskData.stripePattern.getChunkSize.toNat = c) (hc : c = 2 ^ k)
    (hTargets : inode.inodeDiskData.stripePattern.getNumStripeTargetIDs = n) (hn : n ≠ 0)
    (hSet : c * n < 2 ^ 32) :
    inode.initFileInfoVec.map (fun info => info.getFileSize.toInt) = (range n).map fun i =>
        (targetLength c n inode.inodeDiskData.inodeStatData.fileSize.toInt.toNat i : Int) := by
  have hcPos : 0 < c := by
    rw [hc]
    exact Nat.two_pow_pos k
  have hnPos := Nat.pos_of_ne_zero hn
  have hFits : n < 2 ^ 32 := lt_of_le_of_lt (Nat.le_mul_of_pos_left n hcPos) hSet
  have hSetSize : (inode.inodeDiskData.stripePattern.getChunkSize * UInt32.ofNat n).toNat =
      c * n := by
    rw [UInt32.toNat_mul, hChunk, UInt32.toNat_ofNat', Nat.mod_eq_of_lt hFits,
      Nat.mod_eq_of_lt hSet]
  have hLast := lastStripeSet_exact hSize hc hn hSetSize hFits
  have hBound := inode.inodeDiskData.inodeStatData.fileSize.toInt_lt
  unfold FileInode.initFileInfoVec
  dsimp only
  rw [show inode.inodeDiskData.stripePattern.getStripeTargetIDs.length = n from hTargets]
  generalize hNat : inode.inodeDiskData.inodeStatData.fileSize.toInt.toNat = size at hLast ⊢
  have hRest := Nat.mod_lt size (Nat.mul_pos hcPos hnPos)
  have hWhole : size / (c * n) * c + min (size % (c * n)) c < 2 ^ 63 := by
    have hSplit := Nat.div_add_mod size (c * n)
    have hLe := Nat.mul_le_mul_left (size / (c * n)) (Nat.le_mul_of_pos_right c hnPos)
    rw [mul_comm (c * n)] at hSplit
    omega
  have hStart : (lastStripeSet inode.inodeDiskData.inodeStatData.fileSize
      (inode.inodeDiskData.stripePattern.getChunkSize * UInt32.ofNat n) n).lastStripeSetSize.toInt =
        ((size % (c * n) : Nat) : Int) - (0 * c : Nat) := by
    rw [hLast.lastStripeSetSize, zero_mul, Int.natCast_zero, Int.sub_zero]
  rw [toInt_fileInfosFrom hLast.fullLengthPerTarget hChunk hStart
    (by rwa [zero_add, mul_comm]) (hRest.trans hSet) hWhole, ← range_eq_range']
  apply map_congr_left
  intro i hi
  rw [targetLength_eq hcPos (mem_range.mp hi)]

/-! ## Splitting and recombining -/

/-- What the chunk files of a stored file size are for. -/
structure SplitsFileSize (inode : FileInode) (c n : Nat) : Prop where
  lengths : inode.initFileInfoVec.map ChunkFileInfo.length = (List.range n).map fun i =>
    Nat.count (fun p => Striping.targetIndex c n p = i)
      inode.inodeDiskData.inodeStatData.fileSize.toInt.toNat
  sum : ((inode.initFileInfoVec.map ChunkFileInfo.length).sum : Int) =
    inode.inodeDiskData.inodeStatData.fileSize.toInt
  samePaths : isPowerOfTwo (UInt32.ofNat n) = true → ∀ stripeSetSize : UInt32,
    stripeSetSize.toNat = c * n →
      lastStripeSetQuick inode.inodeDiskData.inodeStatData.fileSize stripeSetSize n =
        lastStripeSetSlow inode.inodeDiskData.inodeStatData.fileSize stripeSetSize n
  recombined : ∀ (nowSecs : Int64) (s : StatData) (infos : List ChunkFileInfo),
    infos.map ChunkFileInfo.getFileSize = inode.initFileInfoVec.map ChunkFileInfo.getFileSize →
    (∀ info ∈ infos, info.chunkSize = inode.inodeDiskData.stripePattern.getChunkSize) →
    (∃ info ∈ infos, info.getStorageVersion ≠ 0) →
      (s.updateDynamicFileAttribs nowSecs infos inode.inodeDiskData.stripePattern).fileSize =
        inode.inodeDiskData.inodeStatData.fileSize
  kept : ∀ nowSecs : Int64,
    (inode.inodeDiskData.inodeStatData.updateDynamicFileAttribs nowSecs inode.initFileInfoVec
      inode.inodeDiskData.stripePattern).fileSize = inode.inodeDiskData.inodeStatData.fileSize

/-- The lengths of the chunks give the size of the file back. -/
theorem initFileInfoVec_inverse (hSize : 0 ≤ inode.inodeDiskData.inodeStatData.fileSize.toInt)
    (hChunk : inode.inodeDiskData.stripePattern.getChunkSize.toNat = c) (hc : c = 2 ^ k)
    (hTargets : inode.inodeDiskData.stripePattern.getNumStripeTargetIDs = n) (hn : n ≠ 0)
    (hSet : c * n < 2 ^ 32) : SplitsFileSize inode c n := by
  have hcPos : 0 < c := by
    rw [hc]
    exact Nat.two_pow_pos k
  have hnPos := Nat.pos_of_ne_zero hn
  have hFits : n < 2 ^ 32 := lt_of_le_of_lt (Nat.le_mul_of_pos_left n hcPos) hSet
  have hInts := toInt_initFileInfoVec hSize hChunk hc hTargets hn hSet
  have hLengths : inode.initFileInfoVec.map ChunkFileInfo.length = (range n).map
      (Striping.targetLength c n inode.inodeDiskData.inodeStatData.fileSize.toInt.toNat) := by
    have hNats := congrArg (map Int.toNat) hInts
    rwa [map_map, map_map] at hNats
  constructor
  · exact hLengths
  · rw [hLengths, Striping.sum_targetLength hnPos]
    exact Int.toNat_of_nonneg hSize
  · intro hPow stripeSetSize hSetSize
    have hOfNat : (UInt32.ofNat n).toNat = n := by
      rw [UInt32.toNat_ofNat', Nat.mod_eq_of_lt hFits]
    obtain ⟨j, hj⟩ := (isPowerOfTwo_iff (ne_zero_of_toNat hOfNat hn)).mp hPow
    exact (lastStripeSet_quick hSize hc (hOfNat.symm.trans hj) hSetSize hFits).unique
      (lastStripeSet_slow hSize hn hSetSize hFits)
  · intro nowSecs s infos hSizes hChunks hValid
    have hSame : infos.map ChunkFileInfo.length =
        inode.initFileInfoVec.map ChunkFileInfo.length := by
      have hNats := congrArg (map fun size => size.toInt.toNat) hSizes
      rwa [map_map, map_map] at hNats
    have hNonneg : ∀ info ∈ infos, 0 ≤ info.getFileSize.toInt := by
      intro info hIn
      have hMem := mem_map_of_mem (f := ChunkFileInfo.getFileSize) hIn
      rw [hSizes] at hMem
      obtain ⟨info', hIn', hEq⟩ := mem_map.mp hMem
      have hInt := mem_map_of_mem (f := fun info => info.getFileSize.toInt) hIn'
      rw [hInts] at hInt
      obtain ⟨i, -, hi⟩ := mem_map.mp hInt
      rw [← hEq, ← hi]
      exact Int.natCast_nonneg _
    have hWhole : Striping.fileSize (2 ^ k) (infos.map ChunkFileInfo.length) =
        inode.inodeDiskData.inodeStatData.fileSize.toInt.toNat := by
      rw [hSame, hLengths, ← hc, Striping.fileSize_targetLengths hcPos hnPos]
    have hBound := inode.inodeDiskData.inodeStatData.fileSize.toInt_lt
    obtain ⟨l, flagged, -, -, hUpdated⟩ := StatData.updateDynamicFileAttribs_of_valid nowSecs s
      inode.inodeDiskData.stripePattern hValid
    rw [hUpdated, StatData.fileSize_applyDynAttribs, ← Int64.toInt_inj,
      StatData.toInt_reportedFileSize (hChunk.trans hc)
        (fun info hIn => ⟨hChunks info hIn, hNonneg info hIn⟩) (by omega), hWhole]
    exact Int.toNat_of_nonneg hSize
  · intro nowSecs
    rw [StatData.updateDynamicFileAttribs_of_noVersion]
    intro info hIn
    exact (mem_fileInfosFrom hIn).2

def stripedInode : FileInode where
  inodeDiskData := ⟨0, ⟨0, 100, 0, 0, 1, ⟨0, 0, 0, 0, 0⟩, 0, ⟨[]⟩⟩, [],
    ⟨8, .raid0 [1, 2, 3], 24, 3⟩, .UNSET, 0, [], 0⟩
  dentryCompatData := ⟨0, 0⟩
  isInlined := false

theorem initFileInfoVec_inverse_threeTargets : SplitsFileSize stripedInode 8 3 :=
  initFileInfoVec_inverse (k := 3) (by decide) rfl rfl rfl (by decide) (by decide)

/-! ## The chunk files of a truncated file -/

/-- `numNodes` and `stripeNodeIndex` are of the type `size_t`, so that the start of the stripe set
and the division are unsigned. -/
def getNodeLocalOffset (pos chunkSize : Int64) (numNodes stripeNodeIndex : UInt64) : Int64 :=
  let posModChunkSize := pos &&& (chunkSize - 1)
  let chunkStart :=
    ((pos - posModChunkSize).toUInt64 - stripeNodeIndex * chunkSize.toUInt64).toInt64
  (chunkStart.toUInt64 / numNodes + posModChunkSize.toUInt64).toInt64

def getNodeLocalTruncPos (pos : Int64) (pattern : StripePattern) (stripeNodeIndex : UInt64) :
    Int64 :=
  let numTargets := UInt64.ofNat pattern.getStripeTargetIDs.length
  let mainNodeIndex := pattern.getStripeTargetIndex pos
  let mainNodeLocalOffset :=
    getNodeLocalOffset pos (unsignedToInt64 pattern.getChunkSize) numTargets mainNodeIndex
  let truncPos :=
    if stripeNodeIndex < mainNodeIndex then pattern.getNextChunkStart mainNodeLocalOffset
    else if stripeNodeIndex = mainNodeIndex then mainNodeLocalOffset
    else pattern.getChunkStart mainNodeLocalOffset
  if truncPos < 0 then 0 else truncPos

section Truncation

variable {pattern : StripePattern} (h : pattern.Sized) {pos : Int64} {m : Nat}
  (hPos : pos.toInt = m)
include h hPos

theorem toInt_getChunkStart : (pattern.getChunkStart pos).toInt =
    (m - m % pattern.chunkSize.toNat : Nat) := by
  have hMod := h.toInt_posModChunkSize hPos
  have hLe := Nat.mod_le m pattern.chunkSize.toNat
  have hBound := pos.toInt_lt
  rw [StripePattern.getChunkStart, Int64.toInt_sub, hPos, hMod, Int.bmod_eq_of_le] <;> omega

variable (hFits : pattern.setSize < 2 ^ 32)
include hFits

theorem toInt_getNodeLocalOffset {stripeNodeIndex : UInt64} (hIndex : stripeNodeIndex.toNat =
      targetIndex pattern.chunkSize.toNat pattern.getNumStripeTargetIDs m) :
    (getNodeLocalOffset pos (unsignedToInt64 pattern.getChunkSize)
      (UInt64.ofNat pattern.getStripeTargetIDs.length) stripeNodeIndex).toInt =
        chunkPos pattern.chunkSize.toNat pattern.getNumStripeTargetIDs m := by
  have hNumPos := h.numTargets_pos
  have hNum : (UInt64.ofNat pattern.getStripeTargetIDs.length).toNat =
      pattern.getNumStripeTargetIDs := by
    show (UInt64.ofNat pattern.getNumStripeTargetIDs).toNat = _
    have hLe : pattern.getNumStripeTargetIDs ≤ pattern.setSize :=
      Nat.le_mul_of_pos_right _ h.chunkSize_pos
    rw [UInt64.toNat_ofNat', Nat.mod_eq_of_lt (by omega)]
  have hMask : unsignedToInt64 pattern.chunkSize - 1 = unsignedToInt64 (pattern.chunkSize - 1) := by
    have hOne : (pattern.chunkSize - 1).toNat = pattern.chunkSize.toNat - 1 :=
      UInt32.toNat_sub_of_le _ _ (UInt32.le_iff_toNat_le.mpr h.chunkSize_pos)
    have hLt := pattern.chunkSize.toNat_lt
    have hPositive := h.chunkSize_pos
    rw [← Int64.toInt_inj, Int64.toInt_sub, toInt_unsignedToInt64, toInt_unsignedToInt64, hOne,
      Int64.toInt_one, Int.bmod_eq_of_le] <;> omega
  have hMod := h.toInt_posModChunkSize hPos
  have hStart := h.toInt_stripeSetStart hPos hIndex
  have hSplit := address_split pattern.chunkSize.toNat pattern.getNumStripeTargetIDs m
  have hBound := pos.toInt_lt
  have hLe : m / (pattern.chunkSize.toNat * pattern.getNumStripeTargetIDs) *
      pattern.chunkSize.toNat ≤ m / (pattern.chunkSize.toNat * pattern.getNumStripeTargetIDs) *
        pattern.chunkSize.toNat * pattern.getNumStripeTargetIDs :=
    Nat.le_mul_of_pos_right _ hNumPos
  unfold getNodeLocalOffset StripePattern.getChunkSize
  rw [hMask]
  apply toInt_toInt64_of_toNat
  · rw [UInt64.toNat_add, UInt64.toNat_div, hNum, toNat_toUInt64_of_toInt hMod]
    have hStart' : ((pos - (pos &&& unsignedToInt64 (pattern.chunkSize - 1))).toUInt64 -
        stripeNodeIndex * (unsignedToInt64 pattern.chunkSize).toUInt64).toInt64.toUInt64.toNat =
        m / (pattern.chunkSize.toNat * pattern.getNumStripeTargetIDs) *
          pattern.chunkSize.toNat * pattern.getNumStripeTargetIDs :=
      toNat_toUInt64_of_toInt hStart
    rw [hStart', Nat.mul_div_cancel _ hNumPos, chunkPos]
    apply Nat.mod_eq_of_lt
    omega
  · rw [chunkPos]
    omega

/-- The targets before the one of the new end have its chunk as a whole, and those behind it do not
have it. -/
theorem toInt_getNodeLocalTruncPos {i : UInt64} (hi : i.toNat < pattern.getNumStripeTargetIDs) :
    (getNodeLocalTruncPos pos pattern i).toInt =
      targetLength pattern.chunkSize.toNat pattern.getNumStripeTargetIDs m i.toNat := by
  have hMain := h.getStripeTargetIndex_eq hFits.le hPos
  have hLocal := toInt_getNodeLocalOffset h hPos hFits hMain
  have hStart := toInt_getChunkStart h hLocal
  have hcPos := h.chunkSize_pos
  have hMod := Nat.mod_lt m hcPos
  have hBound := pos.toInt_lt
  have hSplit := address_split pattern.chunkSize.toNat pattern.getNumStripeTargetIDs m
  have hRest : m % (pattern.chunkSize.toNat * pattern.getNumStripeTargetIDs) =
      targetIndex pattern.chunkSize.toNat pattern.getNumStripeTargetIDs m *
        pattern.chunkSize.toNat + m % pattern.chunkSize.toNat := by
    have hSet := Nat.div_add_mod m (pattern.chunkSize.toNat * pattern.getNumStripeTargetIDs)
    rw [← mul_comm, ← mul_assoc] at hSet
    omega
  have hMax {a : Int64} {k : Nat} (ha : a.toInt = k) : (if a < 0 then 0 else a).toInt = k := by
    rw [if_neg, ha]
    rw [Int64.lt_iff_toInt_lt, ha, Int64.toInt_zero]
    omega
  have hLe := Nat.le_mul_of_pos_right (m / (pattern.chunkSize.toNat *
    pattern.getNumStripeTargetIDs) * pattern.chunkSize.toNat) h.numTargets_pos
  rw [chunkPos, Nat.mul_add_mod', Nat.mod_mod, Nat.add_sub_cancel] at hStart
  rw [targetLength_eq hcPos hi, hRest]
  apply hMax
  rcases Nat.lt_trichotomy i.toNat (pattern.getStripeTargetIndex pos).toNat with hi | hi | hi
  · have hBehind := Nat.mul_le_mul_right pattern.chunkSize.toNat (Nat.succ_le_of_lt hi)
    rw [hMain, Nat.succ_mul] at hBehind
    rw [if_pos (UInt64.lt_iff_toNat_lt.mpr hi), StripePattern.getNextChunkStart, Int64.toInt_add,
      toInt_unsignedToInt64, hStart, Int.bmod_eq_of_le] <;> omega
  · rw [if_neg (fun hLt => absurd (UInt64.lt_iff_toNat_lt.mp hLt) hi.not_lt),
      if_pos (UInt64.toNat_inj.mp hi), hLocal, hi, hMain, chunkPos, Nat.add_sub_cancel_left,
      min_eq_left hMod.le]
  · have hBefore := Nat.mul_le_mul_right pattern.chunkSize.toNat (Nat.succ_le_of_lt hi)
    rw [hMain, Nat.succ_mul] at hBefore
    rw [if_neg (fun hLt => absurd (UInt64.lt_iff_toNat_lt.mp hLt) hi.not_gt),
      if_neg (fun hSame => hi.ne' (congrArg UInt64.toNat hSame)), hStart]
    omega

end Truncation

/-- What the chunk files of a file that is truncated at `pos` keep. -/
structure KeepsBelow (pattern : StripePattern) (pos : Int64) : Prop where
  addresses : ∀ p < 2 ^ 63, (pattern.getStripeTargetIndex (Int64.ofNat p)).toNat =
    targetIndex pattern.chunkSize.toNat pattern.getNumStripeTargetIDs p
  lengths : ∀ i : UInt64, i.toNat < pattern.getNumStripeTargetIDs →
    (getNodeLocalTruncPos pos pattern i).toInt = Nat.count (fun p =>
      targetIndex pattern.chunkSize.toNat pattern.getNumStripeTargetIDs p = i.toNat) pos.toInt.toNat
  places : ∀ i : UInt64, i.toNat < pattern.getNumStripeTargetIDs → ∀ p,
    targetIndex pattern.chunkSize.toNat pattern.getNumStripeTargetIDs p = i.toNat →
      (p < pos.toInt.toNat ↔ chunkPos pattern.chunkSize.toNat pattern.getNumStripeTargetIDs p <
        (getNodeLocalTruncPos pos pattern i).toInt)
  recombined : ∀ (nowSecs : Int64) (s : StatData) (infos : List ChunkFileInfo),
    infos.map getFileSize = (List.range pattern.getNumStripeTargetIDs).map (fun i =>
      getNodeLocalTruncPos pos pattern (UInt64.ofNat i)) →
    (∀ info ∈ infos, info.chunkSize = pattern.chunkSize) →
    (∃ info ∈ infos, info.getStorageVersion ≠ 0) →
      (s.updateDynamicFileAttribs nowSecs infos pattern).fileSize = pos

/-- The local positions keep exactly the bytes below `pos`. -/
theorem getNodeLocalTruncPos_keepsBelow {pattern : StripePattern} (h : pattern.Sized)
    (hFits : pattern.setSize < 2 ^ 32) {pos : Int64} (hPos : 0 ≤ pos.toInt) :
    KeepsBelow pattern pos := by
  have hNat := (Int.toNat_of_nonneg hPos).symm
  have hcPos := h.chunkSize_pos
  have hnPos := h.numTargets_pos
  constructor
  · exact fun p hp => h.getStripeTargetIndex_eq hFits.le (Int64.toInt_ofNat_of_lt hp)
  · exact fun i hi => toInt_getNodeLocalTruncPos h hNat hFits hi
  · intro i hi p hIndex
    rw [toInt_getNodeLocalTruncPos h hNat hFits hi, ← hIndex,
      ← targetLength_targetIndex hcPos hnPos, Int.ofNat_lt]
    constructor
    · intro hLt
      have hNext := targetLength_succ pattern.chunkSize.toNat pattern.getNumStripeTargetIDs p
        (targetIndex pattern.chunkSize.toNat pattern.getNumStripeTargetIDs p)
      rw [if_pos rfl] at hNext
      exact lt_of_lt_of_le (Nat.lt_of_lt_of_eq (Nat.lt_succ_self _) hNext.symm)
        (Nat.count_monotone _ hLt)
    · exact fun hCount => Nat.lt_of_not_le fun hLe => hCount.not_ge (Nat.count_monotone _ hLe)
  · intro nowSecs s infos hSizes hChunks hValid
    obtain ⟨k, hk, -⟩ := h.chunkSize_eq
    have hInts : infos.map (fun info => info.getFileSize.toInt) =
        (range pattern.getNumStripeTargetIDs).map fun i => (targetLength
          pattern.chunkSize.toNat pattern.getNumStripeTargetIDs pos.toInt.toNat i : Int) := by
      have hMap := congrArg (map Int64.toInt) hSizes
      rw [map_map, map_map] at hMap
      refine hMap.trans (map_congr_left fun i hi => ?_)
      have hLe : pattern.getNumStripeTargetIDs ≤ pattern.setSize := Nat.le_mul_of_pos_right _ hcPos
      have hOfNat : (UInt64.ofNat i).toNat = i := by
        rw [UInt64.toNat_ofNat']
        exact Nat.mod_eq_of_lt (by have hLt := mem_range.mp hi; omega)
      rw [Function.comp_apply, toInt_getNodeLocalTruncPos h hNat hFits
        (by rw [hOfNat]; exact mem_range.mp hi), hOfNat]
    have hLengths : infos.map ChunkFileInfo.length = (range pattern.getNumStripeTargetIDs).map
        (targetLength pattern.chunkSize.toNat pattern.getNumStripeTargetIDs pos.toInt.toNat) := by
      have hNats := congrArg (map Int.toNat) hInts
      rwa [map_map, map_map] at hNats
    have hNonneg : ∀ info ∈ infos, 0 ≤ info.getFileSize.toInt := by
      intro info hIn
      have hInt := mem_map_of_mem (f := fun info => info.getFileSize.toInt) hIn
      rw [hInts] at hInt
      obtain ⟨i, -, hi⟩ := mem_map.mp hInt
      rw [← hi]
      exact Int.natCast_nonneg _
    have hWhole : Striping.fileSize (2 ^ k) (infos.map ChunkFileInfo.length) = pos.toInt.toNat := by
      rw [hLengths, ← hk, fileSize_targetLengths hcPos hnPos]
    have hBound := pos.toInt_lt
    obtain ⟨l, flagged, -, -, hUpdated⟩ :=
      updateDynamicFileAttribs_of_valid nowSecs s pattern hValid
    rw [hUpdated, fileSize_applyDynAttribs, ← Int64.toInt_inj, toInt_reportedFileSize (k := k) hk
        (fun info hIn => ⟨hChunks info hIn, hNonneg info hIn⟩) (by omega), hWhole]
    exact hNat.symm

theorem getNodeLocalTruncPos_keepsBelow_threeTargets :
    KeepsBelow ⟨8, .raid0 [1, 2, 3], 24, 3⟩ 100 :=
  getNodeLocalTruncPos_keepsBelow ⟨by decide, by decide, by decide, rfl⟩ (by decide) (by decide)

/-! ## Reports of the chunk files -/

/-- `FileInode::setDynAttribs`, on the vector of the chunk files. -/
def setDynAttribs (newAttribsVec : List DynamicFileAttribs) (fileInfoVec : List ChunkFileInfo) :
    Bool × List ChunkFileInfo :=
  if newAttribsVec.length ≠ fileInfoVec.length then (false, fileInfoVec)
  else (true, zipWith (fun info newAttribs => (info.updateDynAttribs newAttribs).1) fileInfoVec
    newAttribsVec)

def afterReports (calls : List (List DynamicFileAttribs)) (fileInfoVec : List ChunkFileInfo) :
    List ChunkFileInfo :=
  calls.foldl (fun fileInfoVec newAttribsVec => (setDynAttribs newAttribsVec fileInfoVec).2)
    fileInfoVec

/-- What the calls report of a target, in vectors of the right size. -/
def reportsOf (numTargets target : Nat) (calls : List (List DynamicFileAttribs)) :
    List DynamicFileAttribs :=
  (calls.filter fun newAttribsVec => newAttribsVec.length = numTargets).filterMap (·[target]?)

def applyReports (reports : List DynamicFileAttribs) (info : ChunkFileInfo) : ChunkFileInfo :=
  reports.foldl (fun info newAttribs => (info.updateDynAttribs newAttribs).1) info

section Reports

variable {info info' : ChunkFileInfo} {reports : List DynamicFileAttribs}

theorem ChunkFileInfo.eq_of_dynAttribs (hSize : info.chunkSize = info'.chunkSize)
    (hAttribs : info.dynAttribs = info'.dynAttribs) : info = info' := by
  obtain ⟨attribs, chunkSize, log2, complete, hLog2, hComplete⟩ := info
  obtain ⟨attribs', chunkSize', log2', complete', hLog2', hComplete'⟩ := info'
  subst hSize hAttribs hLog2 hLog2' hComplete hComplete'
  rfl

theorem afterReports_getElem? (calls : List (List DynamicFileAttribs))
    (infos : List ChunkFileInfo) (i : Nat) : (afterReports calls infos)[i]? =
      infos[i]?.map (applyReports (reportsOf infos.length i calls)) := by
  induction calls generalizing infos with
  | nil => exact Option.map_id'.symm
  | cons newAttribsVec calls ih =>
    show (afterReports calls (setDynAttribs newAttribsVec infos).2)[i]? = _
    rw [ih]
    unfold setDynAttribs reportsOf
    split_ifs with hSize
    · rw [filter_cons_of_neg (by simpa using hSize)]
    have hLength := not_not.mp hSize
    rw [filter_cons_of_pos (by simpa using hLength), length_zipWith, hLength, Nat.min_self,
      getElem?_zipWith]
    cases hInfo : infos[i]? with
    | none => rfl
    | some info =>
      have hi := (List.getElem?_eq_some_iff.mp hInfo).1
      rw [filterMap_cons, getElem?_eq_getElem (hLength.symm ▸ hi)]
      rfl

/-- The end of a sequence of reports: the state before, or a report that is newer than it, and
not older than any other. -/
structure Newest (info : ChunkFileInfo) (reports : List DynamicFileAttribs)
    (final : ChunkFileInfo) : Prop where
  chunkSize : final.chunkSize = info.chunkSize
  origin : final = info ∨
    info.getStorageVersion < final.getStorageVersion ∧ final.dynAttribs ∈ reports
  newest : ∀ report ∈ reports, report.storageVersion ≤ final.getStorageVersion

theorem Newest.le {final : ChunkFileInfo} (h : Newest info reports final) :
    info.getStorageVersion ≤ final.getStorageVersion := by
  rcases h.origin with rfl | ⟨hLt, -⟩
  · exact UInt64.le_rfl
  · exact UInt64.le_of_lt hLt

theorem newest_applyReports (info : ChunkFileInfo) (reports : List DynamicFileAttribs) :
    Newest info reports (applyReports reports info) := by
  induction reports generalizing info with
  | nil => exact ⟨rfl, .inl rfl, nofun⟩
  | cons report reports ih =>
    show Newest info (report :: reports) (applyReports reports (info.updateDynAttribs report).1)
    have hRest := ih (info.updateDynAttribs report).1
    revert hRest
    unfold updateDynAttribs
    split_ifs with hNewer
    · intro hRest
      refine ⟨hRest.chunkSize, .inr ?_, forall_mem_cons.mpr ⟨hRest.le, hRest.newest⟩⟩
      rcases hRest.origin with hSame | ⟨hLt, hIn⟩
      · rw [hSame]
        exact ⟨hNewer, mem_cons_self⟩
      · exact ⟨UInt64.lt_trans hNewer hLt, mem_cons_of_mem _ hIn⟩
    · intro hRest
      exact ⟨hRest.chunkSize, hRest.origin.imp_right (And.imp_right (mem_cons_of_mem _)),
        forall_mem_cons.mpr ⟨UInt64.le_trans (UInt64.not_lt.mp hNewer) hRest.le, hRest.newest⟩⟩

theorem Newest.unique {reports' : List DynamicFileAttribs} {final final' : ChunkFileInfo}
    (hSame : ∀ report, report ∈ reports ↔ report ∈ reports')
    (hDistinct : ∀ report ∈ reports, ∀ report' ∈ reports, report.storageVersion ≠ 0 →
      report.storageVersion = report'.storageVersion → report = report')
    (h : Newest info reports final) (h' : Newest info reports' final') : final = final' := by
  have hVersion : final.getStorageVersion = final'.getStorageVersion := by
    apply UInt64.le_antisymm
    · rcases h.origin with rfl | ⟨-, hIn⟩
      · exact h'.le
      · exact h'.newest _ ((hSame _).mp hIn)
    · rcases h'.origin with rfl | ⟨-, hIn⟩
      · exact h.le
      · exact h.newest _ ((hSame _).mpr hIn)
  rcases h.origin with hOld | ⟨hLt, hIn⟩
  · rcases h'.origin with hOld' | ⟨hLt', -⟩
    · exact hOld.trans hOld'.symm
    · rw [← hVersion, hOld] at hLt'
      exact absurd hLt' (UInt64.lt_irrefl _)
  rcases h'.origin with hOld' | ⟨-, hIn'⟩
  · rw [hVersion, hOld'] at hLt
    exact absurd hLt (UInt64.lt_irrefl _)
  · refine ChunkFileInfo.eq_of_dynAttribs (h.chunkSize.trans h'.chunkSize.symm)
      (hDistinct _ hIn _ ((hSame _).mpr hIn') ?_ hVersion)
    intro hZero
    have hBelow : info.getStorageVersion < 0 := hZero ▸ hLt
    exact absurd hBelow UInt64.not_lt_zero

end Reports

end Metadata

end Fhgfs
