import Fhgfs.Common.ChunkFileInfo

/-!
# Stripe addresses

The client finds the target of a file position and the place in its chunk file with shifts and
masks where it can. The server has the same for the target. The size of a stripe set is an
`unsigned`, so these are right only for stripe sets of up to 2^32 bytes (`index_iff`).
-/

namespace Fhgfs

open Striping

namespace StripePattern

variable (pattern : StripePattern)

def getChunkStart (pos : Int64) : Int64 :=
  pos - (pos &&& unsignedToInt64 (pattern.chunkSize - 1))

def getNextChunkStart (pos : Int64) : Int64 :=
  pattern.getChunkStart pos + unsignedToInt64 pattern.chunkSize

def getChunkEnd (pos : Int64) : Int64 :=
  pattern.getNextChunkStart pos - 1

end StripePattern

/-- The server's `getStripeTargetIndex`, the same for all kinds of patterns. -/
def StripePattern.getStripeTargetIndex (pattern : StripePattern) (pos : Int64) : UInt64 :=
  let stripeSetInnerOffset : Int64 :=
    if isPowerOfTwo pattern.stripeSetSize then pos &&& unsignedToInt64 (pattern.stripeSetSize - 1)
    else pos % unsignedToInt64 pattern.stripeSetSize
  (stripeSetInnerOffset >>> unsignedToInt64 (log2Int32 pattern.getChunkSize)).toUInt64

namespace Client

/-- `do_div` of the kernel: the quotient, and the remainder. -/
def do_div (n : Int64) (base : UInt32) : Int64 × UInt32 :=
  ((n.toUInt64 / base.toUInt64).toInt64, (n.toUInt64 % base.toUInt64).toUInt32)

def getStripeTargetIndex (pattern : StripePattern) (pos : Int64) : UInt64 :=
  let stripeSetInnerOffset : Int64 :=
    if isPowerOfTwo pattern.stripeSetSize then pos &&& unsignedToInt64 (pattern.stripeSetSize - 1)
    else unsignedToInt64 (do_div pos pattern.stripeSetSize).2
  (stripeSetInnerOffset >>> unsignedToInt64 (log2Int32 pattern.getChunkSize)).toUInt64

def getChunkOffset (pos : Int64) (chunkSize : UInt32) (numNodes stripeNodeIndex : UInt64) : Int64 :=
  let posModChunkSize := pos &&& unsignedToInt64 (chunkSize - 1)
  let stripeSetStart :=
    pos - posModChunkSize - (stripeNodeIndex * chunkSize.toUInt64).toInt64
  let stripeSetStartDivNumNodes : Int64 :=
    if isPowerOfTwo numNodes.toUInt32 then
      stripeSetStart >>> unsignedToInt64 (log2Int32 numNodes.toUInt32)
    else (do_div stripeSetStart numNodes.toUInt32).1
  stripeSetStartDivNumNodes + posModChunkSize

end Client

namespace Client

theorem do_div_spec {n : Int64} {base : UInt32} {m : Nat} (h : n.toInt = m) (hBase : base ≠ 0) :
    (do_div n base).1.toInt = (m / base.toNat : Nat) ∧
      (do_div n base).2.toNat = m % base.toNat := by
  have hNat := toNat_toUInt64_of_toInt h
  have hLt := n.toInt_lt
  have hPos : 0 < base.toNat := Nat.pos_of_ne_zero fun hZero => hBase (UInt32.toNat_inj.mp hZero)
  constructor
  · apply toInt_toInt64_of_toNat
    · rw [UInt64.toNat_div, hNat, UInt32.toNat_toUInt64]
    · have hLe := Nat.div_le_self m base.toNat
      omega
  · have hMod := Nat.mod_lt m hPos
    have hBound := base.toNat_lt
    show (n.toUInt64 % base.toUInt64).toUInt32.toNat = _
    rw [UInt64.toNat_toUInt32, UInt64.toNat_mod, hNat, UInt32.toNat_toUInt64]
    apply Nat.mod_eq_of_lt
    omega

end Client

/-! ## The target of a position -/

def STRIPEPATTERN_MIN_CHUNKSIZE : UInt32 := 1024 * 64

namespace StripePattern

/-- The patterns that the server accepts. -/
structure Accepted (pattern : StripePattern) : Prop where
  powerOfTwo : isPowerOfTwo pattern.chunkSize = true
  minChunkSize : STRIPEPATTERN_MIN_CHUNKSIZE ≤ pattern.chunkSize
  targets : pattern.getStripeTargetIDs ≠ []
  stripeSetSize : pattern.stripeSetSize = computeStripeSetSize pattern.chunkSize pattern.targets

/-- Patterns whose stripe sets have the size of their targets, for any chunk size. -/
structure Sized (pattern : StripePattern) : Prop where
  powerOfTwo : isPowerOfTwo pattern.chunkSize = true
  nonzero : pattern.chunkSize ≠ 0
  targets : pattern.getStripeTargetIDs ≠ []
  stripeSetSize : pattern.stripeSetSize = computeStripeSetSize pattern.chunkSize pattern.targets

/-- The size of a stripe set, which may be larger than what the pattern has. -/
def setSize (pattern : StripePattern) : Nat :=
  pattern.getNumStripeTargetIDs * pattern.chunkSize.toNat

variable {pattern : StripePattern}

theorem Accepted.sized (h : pattern.Accepted) : pattern.Sized where
  powerOfTwo := h.powerOfTwo
  nonzero := by
    intro hZero
    have hMin := UInt32.le_iff_toNat_le.mp h.minChunkSize
    rw [hZero] at hMin
    exact absurd hMin (by decide)
  targets := h.targets
  stripeSetSize := h.stripeSetSize

variable (h : pattern.Sized)
include h

theorem Sized.chunkSize_eq : ∃ k, pattern.chunkSize.toNat = 2 ^ k ∧ k < 32 := by
  obtain ⟨k, hk⟩ := (isPowerOfTwo_iff h.nonzero).mp h.powerOfTwo
  refine ⟨k, hk, ?_⟩
  have hLt := pattern.chunkSize.toNat_lt
  rw [hk] at hLt
  exact (Nat.pow_lt_pow_iff_right (by omega)).mp hLt

theorem Sized.chunkSize_pos : 0 < pattern.chunkSize.toNat := by
  obtain ⟨k, hk, -⟩ := h.chunkSize_eq
  rw [hk]
  exact Nat.two_pow_pos k

theorem Sized.numTargets_pos : 0 < pattern.getNumStripeTargetIDs :=
  List.length_pos_of_ne_nil h.targets

theorem Sized.toNat_stripeSetSize : pattern.stripeSetSize.toNat = pattern.setSize % 2 ^ 32 := by
  rw [h.stripeSetSize]
  exact UInt32.toNat_ofNat'

theorem Sized.quickPath (hFits : pattern.setSize ≤ 2 ^ 32)
    (hPower : isPowerOfTwo pattern.stripeSetSize = true) {pos : Int64} {m : Nat}
    (hPos : pos.toInt = m) :
    (pos &&& unsignedToInt64 (pattern.stripeSetSize - 1)).toInt = (m % pattern.setSize : Nat) := by
  have hSize := h.toNat_stripeSetSize
  have hSet : 0 < pattern.setSize := Nat.mul_pos h.numTargets_pos h.chunkSize_pos
  by_cases hZero : pattern.stripeSetSize = 0
  · have hFull : pattern.setSize = 2 ^ 32 := by
      rw [hZero] at hSize
      have hMod : pattern.setSize % 2 ^ 32 = 0 := hSize.symm
      omega
    have hMask : (pattern.stripeSetSize - 1).toNat = 2 ^ 32 - 1 := by
      rw [hZero]
      rfl
    rw [toInt_and_lowBits hMask (by omega), hPos, hFull]
    norm_cast
  · obtain ⟨k, hk⟩ := (isPowerOfTwo_iff hZero).mp hPower
    have hNonzero : pattern.stripeSetSize.toNat ≠ 0 := fun hNat => hZero (UInt32.toNat_inj.mp hNat)
    have hSame : pattern.setSize = 2 ^ k := by
      rw [← hk, hSize]
      rw [hSize] at hNonzero
      omega
    rw [toInt_and_mask hk (by omega), hPos, hSame]
    norm_cast

theorem Sized.setSize_of_slowPath (hFits : pattern.setSize ≤ 2 ^ 32)
    (hPower : ¬isPowerOfTwo pattern.stripeSetSize = true) :
    pattern.stripeSetSize ≠ 0 ∧ pattern.stripeSetSize.toNat = pattern.setSize := by
  have hNonzero : pattern.stripeSetSize ≠ 0 := by
    intro hZero
    rw [hZero] at hPower
    exact hPower (by decide)
  have hNat : pattern.stripeSetSize.toNat ≠ 0 := fun hNat => hNonzero (UInt32.toNat_inj.mp hNat)
  have hSize := h.toNat_stripeSetSize
  refine ⟨hNonzero, ?_⟩
  rw [hSize] at hNat ⊢
  omega

theorem Sized.index_of_inner {inner : Int64} {m : Nat}
    (hInner : inner.toInt = (m % pattern.setSize : Nat)) :
    (inner >>> unsignedToInt64 (log2Int32 pattern.getChunkSize)).toUInt64.toNat =
      targetIndex pattern.chunkSize.toNat pattern.getNumStripeTargetIDs m := by
  obtain ⟨k, hk, hk32⟩ := h.chunkSize_eq
  have hLog : (log2Int32 pattern.getChunkSize).toNat = k := log2Int32_of_pow hk
  apply toNat_toUInt64_of_toInt
  rw [toInt_shiftRight_unsigned (by omega), hLog, hInner, targetIndex, hk]
  unfold setSize
  rw [hk, mul_comm, ← Nat.mod_mul_right_div_self]
  norm_cast

theorem Sized.getStripeTargetIndex_eq (hFits : pattern.setSize ≤ 2 ^ 32)
    {pos : Int64} {m : Nat} (hPos : pos.toInt = m) :
    (pattern.getStripeTargetIndex pos).toNat =
      targetIndex pattern.chunkSize.toNat pattern.getNumStripeTargetIDs m := by
  apply h.index_of_inner
  split
  · rename_i hPower
    exact h.quickPath hFits hPower hPos
  · rename_i hPower
    have hSize := (h.setSize_of_slowPath hFits hPower).2
    rw [Int64.toInt_mod, toInt_unsignedToInt64, hPos, hSize]
    norm_cast

theorem Sized.toInt_posModChunkSize {pos : Int64} {m : Nat} (hPos : pos.toInt = m) :
    (pos &&& unsignedToInt64 (pattern.chunkSize - 1)).toInt =
      (m % pattern.chunkSize.toNat : Nat) := by
  obtain ⟨k, hk, -⟩ := h.chunkSize_eq
  rw [toInt_and_mask hk (by omega), hPos, hk]
  norm_cast

theorem Sized.toInt_stripeSetStart {pos : Int64} {m : Nat} (hPos : pos.toInt = m)
    {stripeNodeIndex : UInt64} (hIndex : stripeNodeIndex.toNat =
      targetIndex pattern.chunkSize.toNat pattern.getNumStripeTargetIDs m) :
    (pos - (pos &&& unsignedToInt64 (pattern.chunkSize - 1)) -
      (stripeNodeIndex * pattern.chunkSize.toUInt64).toInt64).toInt =
        (m / (pattern.chunkSize.toNat * pattern.getNumStripeTargetIDs) *
          pattern.chunkSize.toNat * pattern.getNumStripeTargetIDs : Nat) := by
  have hMod := h.toInt_posModChunkSize hPos
  have hSplit := address_split pattern.chunkSize.toNat pattern.getNumStripeTargetIDs m
  have hLt : m < 2 ^ 63 := by
    have hBound := pos.toInt_lt
    omega
  have hTarget : (stripeNodeIndex * pattern.chunkSize.toUInt64).toInt64.toInt =
      (targetIndex pattern.chunkSize.toNat pattern.getNumStripeTargetIDs m *
        pattern.chunkSize.toNat : Nat) := by
    apply toInt_toInt64_of_toNat
    · rw [UInt64.toNat_mul, hIndex, UInt32.toNat_toUInt64]
      apply Nat.mod_eq_of_lt
      omega
    · omega
  rw [Int64.toInt_sub, Int64.toInt_sub, hMod, hTarget, hPos, Int.bmod_sub_bmod,
    Int.bmod_eq_of_le] <;> omega

end StripePattern

namespace Client

variable {pattern : StripePattern}

theorem getStripeTargetIndex_eq (h : pattern.Sized) (hFits : pattern.setSize ≤ 2 ^ 32)
    {pos : Int64} {m : Nat} (hPos : pos.toInt = m) :
    (getStripeTargetIndex pattern pos).toNat =
      targetIndex pattern.chunkSize.toNat pattern.getNumStripeTargetIDs m := by
  apply h.index_of_inner
  split
  · rename_i hPower
    exact h.quickPath hFits hPower hPos
  · rename_i hPower
    obtain ⟨hNonzero, hSize⟩ := h.setSize_of_slowPath hFits hPower
    rw [toInt_unsignedToInt64, (do_div_spec hPos hNonzero).2, hSize]

/-- The first byte behind the stripe sets that the pattern has. -/
def behindStripeSet (pattern : StripePattern) : Nat :=
  if pattern.stripeSetSize = 0 then 2 ^ 32 else pattern.stripeSetSize.toNat

theorem index_behindStripeSet (h : pattern.Sized) {pos : Int64}
    (hPos : pos.toInt = behindStripeSet pattern) :
    (getStripeTargetIndex pattern pos).toNat = 0 := by
  have hZero : targetIndex pattern.chunkSize.toNat pattern.getNumStripeTargetIDs 0 = 0 := by
    unfold targetIndex
    rw [Nat.zero_div, Nat.zero_mod]
  rw [← hZero]
  apply h.index_of_inner
  rw [Nat.zero_mod]
  unfold behindStripeSet at hPos
  by_cases hSize : pattern.stripeSetSize = 0
  · have hMask : (pattern.stripeSetSize - 1).toNat = 2 ^ 32 - 1 := by
      rw [hSize]
      rfl
    have hPower : isPowerOfTwo pattern.stripeSetSize = true := by
      rw [hSize]
      decide
    rw [if_pos hSize] at hPos
    rw [if_pos hPower, toInt_and_lowBits hMask (by omega), hPos]
    norm_num
  · rw [if_neg hSize] at hPos
    split
    · rename_i hPower
      obtain ⟨k, hk⟩ := (isPowerOfTwo_iff hSize).mp hPower
      rw [toInt_and_mask hk (by omega), hPos, hk]
      norm_cast
      exact Nat.mod_self _
    · rw [toInt_unsignedToInt64, (do_div_spec hPos hSize).2, Nat.mod_self]

theorem fits_of_getStripeTargetIndex (h : pattern.Sized)
    (hIndex : ∀ (pos : Int64) (m : Nat), pos.toInt = m →
      (getStripeTargetIndex pattern pos).toNat =
        targetIndex pattern.chunkSize.toNat pattern.getNumStripeTargetIDs m) :
    pattern.setSize ≤ 2 ^ 32 := by
  by_contra hLarge
  obtain ⟨k, hk, hk32⟩ := h.chunkSize_eq
  have hSize := h.toNat_stripeSetSize
  have hBehind : 0 < behindStripeSet pattern ∧ behindStripeSet pattern ≤ 2 ^ 32 ∧
      behindStripeSet pattern < pattern.setSize ∧
      pattern.chunkSize.toNat ∣ behindStripeSet pattern := by
    have hPow : pattern.chunkSize.toNat ∣ 2 ^ 32 := by
      rw [hk]
      exact Nat.pow_dvd_pow 2 (by omega)
    unfold behindStripeSet
    split
    · exact ⟨by omega, le_rfl, by omega, hPow⟩
    · rename_i hNonzero
      have hNat : pattern.stripeSetSize.toNat ≠ 0 := fun hNat => hNonzero (UInt32.toNat_inj.mp hNat)
      refine ⟨by omega, by omega, by omega, ?_⟩
      rw [hSize]
      exact (Nat.dvd_mod_iff hPow).mpr (Nat.dvd_mul_left _ _)
  obtain ⟨hPos, hLe, hLt, j, hj⟩ := hBehind
  have hInt : (Int64.ofNat (behindStripeSet pattern)).toInt = behindStripeSet pattern := by
    rw [Int64.toInt_ofNat_of_lt]
    omega
  have hSame := hIndex _ _ hInt
  rw [index_behindStripeSet h hInt, targetIndex, hj,
    Nat.mul_div_cancel_left j h.chunkSize_pos] at hSame
  have hj0 : 0 < j := by
    apply Nat.pos_of_ne_zero
    rintro rfl
    omega
  have hjn : j < pattern.getNumStripeTargetIDs := by
    rw [hj, StripePattern.setSize, mul_comm] at hLt
    exact Nat.lt_of_mul_lt_mul_right hLt
  rw [Nat.mod_eq_of_lt hjn] at hSame
  omega

/-! ## The place in the chunk file -/

theorem stripeSetStart_div {stripeSetStart : Int64} {numNodes : UInt32} {q : Nat}
    (hNodes : numNodes ≠ 0) (hStart : stripeSetStart.toInt = (q * numNodes.toNat : Nat)) :
    (if isPowerOfTwo numNodes then stripeSetStart >>> unsignedToInt64 (log2Int32 numNodes)
      else (do_div stripeSetStart numNodes).1).toInt = q := by
  have hPos : 0 < numNodes.toNat := Nat.pos_of_ne_zero fun hNat => hNodes (UInt32.toNat_inj.mp hNat)
  split
  · rename_i hPower
    obtain ⟨k, hk⟩ := (isPowerOfTwo_iff hNodes).mp hPower
    have hk32 : k < 32 := by
      have hLt := numNodes.toNat_lt
      rw [hk] at hLt
      exact (Nat.pow_lt_pow_iff_right (by omega)).mp hLt
    have hLog := log2Int32_of_pow hk
    rw [toInt_shiftRight_unsigned (by omega), hLog, hStart, hk]
    norm_cast
    exact Nat.mul_div_cancel q (Nat.two_pow_pos k)
  · rw [(do_div_spec hStart hNodes).1, Nat.mul_div_cancel q hPos]

theorem getChunkOffset_eq (h : pattern.Sized) {pos : Int64} {m : Nat} (hPos : pos.toInt = m)
    {numNodes : UInt32} {stripeNodeIndex : UInt64}
    (hNodes : numNodes.toNat = pattern.getNumStripeTargetIDs)
    (hIndex : stripeNodeIndex.toNat =
      targetIndex pattern.chunkSize.toNat pattern.getNumStripeTargetIDs m) :
    (getChunkOffset pos pattern.chunkSize numNodes.toUInt64 stripeNodeIndex).toInt =
      chunkPos pattern.chunkSize.toNat pattern.getNumStripeTargetIDs m := by
  have hMod := h.toInt_posModChunkSize hPos
  have hStart := h.toInt_stripeSetStart hPos hIndex
  have hSplit := address_split pattern.chunkSize.toNat pattern.getNumStripeTargetIDs m
  have hLt : m < 2 ^ 63 := by
    have hBound := pos.toInt_lt
    omega
  have hNumPos := h.numTargets_pos
  rw [← hNodes] at hStart hSplit hNumPos ⊢
  have hNonzero : numNodes ≠ 0 := by
    rintro rfl
    exact absurd hNumPos (by decide)
  have hDiv := stripeSetStart_div hNonzero hStart
  unfold getChunkOffset chunkPos
  rw [UInt32.toUInt32_toUInt64]
  have hLe : m / (pattern.chunkSize.toNat * numNodes.toNat) * pattern.chunkSize.toNat ≤
      m / (pattern.chunkSize.toNat * numNodes.toNat) * pattern.chunkSize.toNat * numNodes.toNat :=
    Nat.le_mul_of_pos_right _ hNumPos
  rw [Int64.toInt_add, hMod, hDiv, Int.bmod_eq_of_le] <;> omega

end Client

end Fhgfs
