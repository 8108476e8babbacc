import Fhgfs.Common.StripePattern
import Fhgfs.Lib.Striping

/-!
# Chunk files

`ChunkFileInfo` is what the metadata server knows of a chunk file on a storage target. The number
of complete chunks is kept with the size, for a power of two as the chunk size.
-/

namespace Fhgfs

structure DynamicFileAttribs where
  storageVersion : UInt64
  fileSize : Int64
  numBlocks : Int64
  modificationTimeSecs : Int64
  lastAccessTimeSecs : Int64
deriving DecidableEq

/-- The number of complete chunks belongs to the file size, and the logarithm to the chunk size. -/
structure ChunkFileInfo where
  dynAttribs : DynamicFileAttribs
  chunkSize : UInt32
  chunkSizeLog2 : UInt32
  numCompleteChunks : Int64
  hLog2 : chunkSizeLog2 = log2Int32 chunkSize
  hComplete : numCompleteChunks = dynAttribs.fileSize >>> unsignedToInt64 chunkSizeLog2
deriving DecidableEq

namespace ChunkFileInfo

def new (chunkSize : UInt32) (dynAttribs : DynamicFileAttribs) : ChunkFileInfo where
  dynAttribs := dynAttribs
  chunkSize := chunkSize
  chunkSizeLog2 := log2Int32 chunkSize
  numCompleteChunks := dynAttribs.fileSize >>> unsignedToInt64 (log2Int32 chunkSize)
  hLog2 := rfl
  hComplete := rfl

variable (info : ChunkFileInfo)

def getStorageVersion : UInt64 := info.dynAttribs.storageVersion

def getFileSize : Int64 := info.dynAttribs.fileSize

def getModificationTimeSecs : Int64 := info.dynAttribs.modificationTimeSecs

def getLastAccessTimeSecs : Int64 := info.dynAttribs.lastAccessTimeSecs

def getNumBlocks : UInt64 := info.dynAttribs.numBlocks.toUInt64

def getNumChunks : Int64 :=
  let incompleteChunk : Int64 :=
    if info.dynAttribs.fileSize &&& unsignedToInt64 (info.chunkSize - 1) ≠ 0 then 1 else 0
  info.numCompleteChunks + incompleteChunk

/-- Only attributes of a higher version are applied. -/
def updateDynAttribs (newAttribs : DynamicFileAttribs) (info : ChunkFileInfo) :
    ChunkFileInfo × Bool :=
  if newAttribs.storageVersion > info.dynAttribs.storageVersion then
    ({ dynAttribs := newAttribs
       chunkSize := info.chunkSize
       chunkSizeLog2 := info.chunkSizeLog2
       numCompleteChunks := newAttribs.fileSize >>> unsignedToInt64 info.chunkSizeLog2
       hLog2 := info.hLog2
       hComplete := rfl }, true)
  else (info, false)

def length : Nat := info.getFileSize.toInt.toNat

end ChunkFileInfo

/-! ## Numbers of 64 bits -/

variable {a : Int64}

theorem toNat_toUInt64_of_toInt {m : Nat} (h : a.toInt = m) : a.toUInt64.toNat = m := by
  have hNat : a.toBitVec.toInt = m := h
  show a.toBitVec.toNat = m
  rw [BitVec.toInt_eq_toNat_cond] at hNat
  split at hNat <;> omega

theorem toInt_toInt64_of_toNat {a : UInt64} {m : Nat} (h : a.toNat = m) (hm : m < 2 ^ 63) :
    a.toInt64.toInt = m := by
  show a.toBitVec.toInt = m
  have hNat : a.toBitVec.toNat = m := h
  rw [BitVec.toInt_eq_toNat_of_lt, hNat]
  omega

/-! ## Arithmetic with a power of two -/

/-- `MathTk::isPowerOfTwo`. The test holds for zero, too. -/
def isPowerOfTwo (value : UInt32) : Bool := decide (value &&& (value - 1) = 0)

variable {value : UInt32}

theorem isPowerOfTwo_iff (h : value ≠ 0) :
    isPowerOfTwo value = true ↔ ∃ k, value.toNat = 2 ^ k := by
  have hNat : value.toNat ≠ 0 := fun hZero => h (UInt32.toNat_inj.mp hZero)
  have hSub : (value - 1).toNat = value.toNat - 1 := by
    apply UInt32.toNat_sub_of_le
    rw [UInt32.le_iff_toNat_le]
    exact Nat.one_le_iff_ne_zero.mpr hNat
  unfold isPowerOfTwo
  rw [decide_eq_true_eq, ← UInt32.toNat_inj, UInt32.toNat_and, hSub]
  exact Nat.and_sub_one_eq_zero_iff_isPowerOfTwo hNat

theorem log2Int32_of_pow {k : Nat} (h : value.toNat = 2 ^ k) : (log2Int32 value).toNat = k := by
  have hk : k < 32 := by
    have hLt := value.toNat_lt
    rw [h] at hLt
    exact (Nat.pow_lt_pow_iff_right (by omega)).mp hLt
  unfold log2Int32
  rw [h, Nat.log2_two_pow, UInt32.toNat_ofNat']
  apply Nat.mod_eq_of_lt
  omega

theorem toInt_unsignedToInt64 (value : UInt32) : (unsignedToInt64 value).toInt = value.toNat := by
  have hLt := value.toNat_lt
  show value.toUInt64.toBitVec.toInt = _
  rw [BitVec.toInt_eq_toNat_of_lt]
  · simp
  · simp
    omega

theorem toInt_shiftRight_unsigned (h : value.toNat < 64) :
    (a >>> unsignedToInt64 value).toInt = a.toInt / 2 ^ value.toNat := by
  have hShift : ((unsignedToInt64 value).toBitVec.smod 64).toNat = value.toNat := by
    have hInt : ((unsignedToInt64 value).toBitVec.smod 64).toInt = value.toNat := by
      rw [BitVec.toInt_smod]
      have hValue : (unsignedToInt64 value).toBitVec.toInt = value.toNat :=
        toInt_unsignedToInt64 value
      rw [hValue]
      have h64 : (64 : BitVec 64).toInt = 64 := by decide
      rw [h64, Int.fmod_eq_emod_of_nonneg _ (by omega)]
      omega
    rw [BitVec.toInt_eq_toNat_cond] at hInt
    split at hInt <;> omega
  show (BitVec.sshiftRight' a.toBitVec ((unsignedToInt64 value).toBitVec.smod 64)).toInt = _
  rw [BitVec.sshiftRight', hShift, BitVec.toInt_sshiftRight, Int.shiftRight_eq_div_pow]
  rfl

theorem toInt_and_lowBits {mask : UInt32} {k : Nat} (h : mask.toNat = 2 ^ k - 1)
    (ha : 0 ≤ a.toInt) : (a &&& unsignedToInt64 mask).toInt = a.toInt % 2 ^ k := by
  have hNat : a.toBitVec.toInt = a.toBitVec.toNat := by
    have hNonneg : 0 ≤ a.toBitVec.toInt := ha
    rw [BitVec.toInt_eq_toNat_cond] at hNonneg ⊢
    split at hNonneg <;> omega
  have hAnd : (a &&& unsignedToInt64 mask).toBitVec.toNat = a.toBitVec.toNat % 2 ^ k := by
    show (a.toBitVec &&& mask.toUInt64.toBitVec).toNat = _
    rw [BitVec.toNat_and]
    have hWide : mask.toUInt64.toBitVec.toNat = 2 ^ k - 1 := (UInt32.toNat_toUInt64 mask).trans h
    rw [hWide, Nat.and_two_pow_sub_one_eq_mod]
  show (a &&& unsignedToInt64 mask).toBitVec.toInt = a.toBitVec.toInt % 2 ^ k
  rw [BitVec.toInt_eq_toNat_of_lt, hAnd, hNat]
  · norm_cast
  · rw [hAnd]
    have hLe := Nat.mod_le a.toBitVec.toNat (2 ^ k)
    rw [BitVec.toInt_eq_toNat_cond] at hNat
    split at hNat <;> omega

theorem toInt_and_mask {k : Nat} (h : value.toNat = 2 ^ k)
    (ha : 0 ≤ a.toInt) : (a &&& unsignedToInt64 (value - 1)).toInt = a.toInt % 2 ^ k := by
  apply toInt_and_lowBits _ ha
  have hPos : 0 < 2 ^ k := Nat.two_pow_pos k
  rw [UInt32.toNat_sub_of_le, h]
  · rfl
  · rw [UInt32.le_iff_toNat_le, h]
    exact hPos

theorem ChunkFileInfo.toInt_getNumChunks {info : ChunkFileInfo} {k : Nat}
    (hChunk : info.chunkSize.toNat = 2 ^ k) (hSize : 0 ≤ info.getFileSize.toInt) :
    info.getNumChunks.toInt = Striping.numChunks (2 ^ k) info.length := by
  have hk : k < 32 := by
    have hLt := info.chunkSize.toNat_lt
    rw [hChunk] at hLt
    exact (Nat.pow_lt_pow_iff_right (by omega)).mp hLt
  have hLog := log2Int32_of_pow hChunk
  have hLength : (info.length : Int) = info.dynAttribs.fileSize.toInt := Int.toNat_of_nonneg hSize
  have hComplete : info.numCompleteChunks.toInt = (info.length / 2 ^ k : Nat) := by
    rw [info.hComplete, info.hLog2, toInt_shiftRight_unsigned, hLog, ← hLength]
    · norm_cast
    · rw [hLog]
      omega
  have hMask : (info.dynAttribs.fileSize &&& unsignedToInt64 (info.chunkSize - 1)).toInt =
      (info.length % 2 ^ k : Nat) := by
    have hRest := toInt_and_mask hChunk hSize
    rw [← Int.toNat_of_nonneg hSize] at hRest
    exact_mod_cast hRest
  have hIncomplete : info.dynAttribs.fileSize &&& unsignedToInt64 (info.chunkSize - 1) = 0 ↔
      info.length % 2 ^ k = 0 := by
    rw [← Int64.toInt_inj, hMask, Int64.toInt_zero]
    norm_cast
  have hBound : info.length < 2 ^ 63 := by
    have hLt := info.dynAttribs.fileSize.toInt_lt
    omega
  have hChunks := Striping.numChunks_le (Nat.two_pow_pos k) info.length
  unfold getNumChunks
  unfold Striping.numChunks at hChunks ⊢
  rw [Int64.toInt_add, hComplete]
  generalize info.length / 2 ^ k = complete at hChunks ⊢
  by_cases hRest : info.length % 2 ^ k = 0
  · rw [if_pos hRest] at hChunks ⊢
    rw [if_neg (not_not.mpr (hIncomplete.mpr hRest)), Int64.toInt_zero]
    apply Int.bmod_eq_of_le <;> omega
  · rw [if_neg hRest] at hChunks ⊢
    rw [if_pos (mt hIncomplete.mp hRest), Int64.toInt_one]
    apply Int.bmod_eq_of_le <;> omega

end Fhgfs
