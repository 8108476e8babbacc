import Fhgfs.Client.CommKitCommon
import Fhgfs.Client.StripeAddress

/-!
# The pieces of a request

`writefileVec` and `readfileVec` cut a request into pieces, one for each chunk. They go through
the request in rounds over the targets, and only the first target of a round is computed.
-/

namespace Fhgfs

open Striping StripePattern

namespace Client

/-- The work for one target: a `WritefileState` or a `ReadfileState` when it is assigned. -/
structure AssignedPiece where
  data : IovIter
  offset : Int64
  targetID : Option UInt16
deriving DecidableEq

/-- What is left of a request. -/
structure RequestRest where
  currentOffset : Int64
  iterCopy : IovIter
  toBeDone : Nat
deriving DecidableEq

section Loops

variable (pattern : StripePattern)

def numStripeTargets : UInt32 := UInt32.ofNat pattern.getStripeTargetIDs.length

variable (maxNumRWNodes : UInt32)

/-- The works of a round, at most one for each target. -/
def maxNumWorks : UInt32 :=
  if maxNumRWNodes < numStripeTargets pattern then maxNumRWNodes else numStripeTargets pattern

/-- The stripeset-loop for at most the given number of works. `taken` are the bytes by which the
request gets shorter, from the size of the chunk, the bytes to be done and those of the piece. -/
def stripesetLoop (taken : Nat → Nat → Nat → Nat) :
    Nat → UInt32 → RequestRest → List AssignedPiece × RequestRest
  | 0, _, rest => ([], rest)
  | works + 1, currentTargetIndex, rest =>
    if rest.toBeDone = 0 then ([], rest)
    else
      let currentChunkSize :=
        (pattern.getChunkEnd rest.currentOffset - rest.currentOffset + 1).toUInt64.toNat
      let chunkIter := rest.iterCopy.truncate currentChunkSize
      let state : AssignedPiece := {
        data := chunkIter
        offset := getChunkOffset rest.currentOffset pattern.chunkSize
          (numStripeTargets pattern).toUInt64 currentTargetIndex.toUInt64
        targetID := pattern.getStripeTargetIDs[currentTargetIndex.toNat]? }
      let bytes := taken currentChunkSize rest.toBeDone chunkIter.count
      let next := stripesetLoop taken works ((currentTargetIndex + 1) % numStripeTargets pattern)
        ⟨rest.currentOffset + Int64.ofNat bytes, rest.iterCopy.advance chunkIter.count,
          rest.toBeDone - bytes⟩
      (state :: next.1, next.2)

/-- The rounds of a request. There is no result if the loop has not ended by then. -/
def requestLoop (taken : Nat → Nat → Nat → Nat) (maxNumRWNodes : UInt32) :
    Nat → RequestRest → Option (List (List AssignedPiece))
  | 0, rest => if rest.toBeDone = 0 then some [] else none
  | rounds + 1, rest =>
    if rest.toBeDone = 0 then some []
    else
      let currentTargetIndex := (getStripeTargetIndex pattern rest.currentOffset).toUInt32
      let round := stripesetLoop pattern taken (maxNumWorks pattern maxNumRWNodes).toNat
        currentTargetIndex rest
      (requestLoop taken maxNumRWNodes rounds round.2).map (round.1 :: ·)

def writefileVec (rounds : Nat) (iter : IovIter) (offset : Int64) :
    Option (List (List AssignedPiece)) :=
  requestLoop pattern (fun _ _ pieceCount => pieceCount) maxNumRWNodes rounds
    ⟨offset, iter, iter.count⟩

def readfileVec (rounds : Nat) (iter : IovIter) (offset : Int64) :
    Option (List (List AssignedPiece)) :=
  requestLoop pattern (fun currentChunkSize toBeRead _ => min currentChunkSize toBeRead)
    maxNumRWNodes rounds ⟨offset, iter, iter.count⟩

end Loops

/-! ## Tiles of a request -/

/-- The pieces cover the bytes of the buffer from the file position `m` on, one after the other.
None of them is empty or goes over the end of a chunk, and each has the address of its first
byte. -/
def Tiles (pattern : StripePattern) : Nat → IovIter → List AssignedPiece → Prop
  | _, iter, [] => iter.count = 0
  | m, iter, state :: states =>
    state.data.iovOffset = iter.iovOffset ∧
      (0 < state.data.count ∧ state.data.count ≤ iter.count) ∧
      m % pattern.chunkSize.toNat + state.data.count ≤ pattern.chunkSize.toNat ∧
      state.targetID = pattern.getStripeTargetIDs[Striping.targetIndex pattern.chunkSize.toNat
        pattern.getNumStripeTargetIDs m]? ∧
      state.offset.toInt =
        Striping.chunkPos pattern.chunkSize.toNat pattern.getNumStripeTargetIDs m ∧
      Tiles pattern (m + state.data.count) (iter.advance state.data.count) states

/-- The rest of a request at the file position `m`. -/
structure RequestRest.At (rest : RequestRest) (m : Nat) : Prop where
  count : rest.iterCopy.count = rest.toBeDone
  bound : m + rest.toBeDone ≤ 2 ^ 63
  offset : rest.toBeDone ≠ 0 → rest.currentOffset.toInt = m

/-- The bytes of a piece are those by which the request gets shorter. -/
def TakesPiece (taken : Nat → Nat → Nat → Nat) : Prop :=
  ∀ currentChunkSize toBeDone, taken currentChunkSize toBeDone (min toBeDone currentChunkSize) =
    min toBeDone currentChunkSize

variable {pattern : StripePattern} {taken : Nat → Nat → Nat → Nat}

theorem IovIter.count_truncate (iter : IovIter) (count : Nat) :
    (iter.truncate count).count = min iter.count count := by
  unfold truncate
  split
  · show count = _
    omega
  · omega

theorem IovIter.iovOffset_truncate (iter : IovIter) (count : Nat) :
    (iter.truncate count).iovOffset = iter.iovOffset := by
  unfold truncate
  split <;> rfl

theorem toNat_numStripeTargets (h : pattern.Accepted) (hFits : pattern.setSize ≤ 2 ^ 32) :
    (numStripeTargets pattern).toNat = pattern.getNumStripeTargetIDs := by
  have hMin := UInt32.le_iff_toNat_le.mp h.minChunkSize
  have hMin' : 65536 ≤ pattern.chunkSize.toNat := hMin
  have hSet : pattern.getNumStripeTargetIDs * pattern.chunkSize.toNat ≤ 2 ^ 32 := hFits
  have hLe := (Nat.mul_le_mul_left pattern.getNumStripeTargetIDs hMin').trans hSet
  unfold numStripeTargets
  rw [UInt32.toNat_ofNat']
  apply Nat.mod_eq_of_lt
  show pattern.getNumStripeTargetIDs < _
  omega

theorem currentChunkSize_eq (h : pattern.Accepted) {pos : Int64} {m : Nat} (hPos : pos.toInt = m) :
    (pattern.getChunkEnd pos - pos + 1).toUInt64.toNat =
      pattern.chunkSize.toNat - m % pattern.chunkSize.toNat := by
  have hMod := h.sized.toInt_posModChunkSize hPos
  have hLe := Nat.mod_lt m h.sized.chunkSize_pos
  have hBound := pattern.chunkSize.toNat_lt
  have hEnd : pattern.getChunkEnd pos - pos + 1 =
      unsignedToInt64 pattern.chunkSize - (pos &&& unsignedToInt64 (pattern.chunkSize - 1)) := by
    unfold getChunkEnd getNextChunkStart getChunkStart
    grind
  apply toNat_toUInt64_of_toInt
  rw [hEnd, Int64.toInt_sub, toInt_unsignedToInt64, hMod, Int.bmod_eq_of_le] <;> omega

variable {rest : RequestRest}

theorem RequestRest.At.behindPiece {m bytes : Nat} (hAt : rest.At m)
    (hBytes : bytes ≤ rest.toBeDone) :
    RequestRest.At ⟨rest.currentOffset + Int64.ofNat bytes, rest.iterCopy.advance bytes,
      rest.toBeDone - bytes⟩ (m + bytes) := by
  have hCount := hAt.count
  have hBound := hAt.bound
  refine ⟨?_, ?_, fun hMore => ?_⟩
  · show rest.iterCopy.count - bytes = _
    rw [hCount]
  · show m + bytes + (rest.toBeDone - bytes) ≤ _
    omega
  · have hLeft : rest.toBeDone - bytes ≠ 0 := hMore
    have hPos := hAt.offset (by omega)
    have hInt : (Int64.ofNat bytes).toInt = bytes := Int64.toInt_ofNat_of_lt (by omega)
    show (rest.currentOffset + Int64.ofNat bytes).toInt = _
    rw [Int64.toInt_add, hPos, hInt, Int.bmod_eq_of_le] <;> omega

section

variable (h : pattern.Accepted) (hFits : pattern.setSize ≤ 2 ^ 32)
include h hFits

theorem toNat_nextTargetIndex {currentTargetIndex : UInt32} {m bytes : Nat}
    (hIndex : currentTargetIndex.toNat = targetIndex pattern.chunkSize.toNat
      pattern.getNumStripeTargetIDs m)
    (hEnd : m % pattern.chunkSize.toNat + bytes = pattern.chunkSize.toNat) :
    ((currentTargetIndex + 1) % numStripeTargets pattern).toNat = targetIndex
      pattern.chunkSize.toNat pattern.getNumStripeTargetIDs (m + bytes) := by
  have hNum := toNat_numStripeTargets h hFits
  have hLt : currentTargetIndex.toNat < pattern.getNumStripeTargetIDs := by
    rw [hIndex]
    exact Nat.mod_lt _ h.sized.numTargets_pos
  have hNumLt := (numStripeTargets pattern).toNat_lt
  have hSum : (currentTargetIndex + 1).toNat = currentTargetIndex.toNat + 1 := by
    rw [UInt32.toNat_add]
    exact Nat.mod_eq_of_lt (by rw [UInt32.toNat_one]; omega)
  rw [UInt32.toNat_mod, hSum, hNum, hIndex, targetIndex_add h.sized.chunkSize_pos hEnd]

theorem stripesetLoop_spec (hTaken : TakesPiece taken) (works : Nat) {currentTargetIndex : UInt32}
    {m : Nat} (hAt : rest.At m)
    (hIndex : rest.toBeDone ≠ 0 → currentTargetIndex.toNat = targetIndex
      pattern.chunkSize.toNat pattern.getNumStripeTargetIDs m) :
    let round := stripesetLoop pattern taken works currentTargetIndex rest
    round.2.toBeDone ≤ rest.toBeDone ∧
      (works ≠ 0 → rest.toBeDone ≠ 0 → round.2.toBeDone < rest.toBeDone) ∧
      ∃ m', round.2.At m' ∧ ∀ states, Tiles pattern m' round.2.iterCopy states →
        Tiles pattern m rest.iterCopy (round.1 ++ states) := by
  induction works generalizing currentTargetIndex rest m with
  | zero => exact ⟨le_rfl, (absurd rfl ·), m, hAt, fun _ hTiles => hTiles⟩
  | succ works ih =>
    unfold stripesetLoop
    split
    · rename_i hDone
      exact ⟨le_rfl, fun _ hMore => absurd hDone hMore, m, hAt, fun _ hTiles => hTiles⟩
    rename_i hMore
    have hPos := hAt.offset hMore
    have hMod := Nat.mod_lt m h.sized.chunkSize_pos
    have hSize := currentChunkSize_eq h hPos
    have hPiece := IovIter.count_truncate rest.iterCopy
      (pattern.getChunkEnd rest.currentOffset - rest.currentOffset + 1).toUInt64.toNat
    have hStart := IovIter.iovOffset_truncate rest.iterCopy
      (pattern.getChunkEnd rest.currentOffset - rest.currentOffset + 1).toUInt64.toNat
    generalize (pattern.getChunkEnd rest.currentOffset - rest.currentOffset + 1).toUInt64.toNat =
      currentChunkSize at hSize hPiece hStart ⊢
    simp only
    generalize rest.iterCopy.truncate currentChunkSize = chunkIter at hPiece hStart ⊢
    rw [hAt.count] at hPiece
    rw [hPiece, hTaken, ← hPiece]
    have hCount : chunkIter.count ≤ rest.toBeDone := by omega
    have hNext := ih (hAt.behindPiece hCount) fun hLeft =>
      toNat_nextTargetIndex h hFits (hIndex hMore) (by
        have hLeft' : rest.toBeDone - chunkIter.count ≠ 0 := hLeft
        omega)
    obtain ⟨hLess, -, m', hAt', hTiles⟩ := hNext
    have hLess' : _ ≤ rest.toBeDone - chunkIter.count := hLess
    refine ⟨by omega, fun _ _ => by omega, m', hAt', fun states hStates => ?_⟩
    refine ⟨hStart, ⟨?_, ?_⟩, ?_, ?_, ?_, hTiles states hStates⟩
    · show 0 < chunkIter.count
      omega
    · rwa [hAt.count]
    · show m % _ + chunkIter.count ≤ _
      omega
    · rw [hIndex hMore]
    · apply getChunkOffset_eq h.sized hPos (toNat_numStripeTargets h hFits)
      rw [UInt32.toNat_toUInt64]
      exact hIndex hMore

theorem requestLoop_spec
    (hTaken : TakesPiece taken) {maxNumRWNodes : UInt32} (hMax : maxNumRWNodes ≠ 0) (rounds : Nat)
    {m : Nat} (hAt : rest.At m) (hRounds : rest.toBeDone ≤ rounds) :
    ∃ states, requestLoop pattern taken maxNumRWNodes rounds rest = some states ∧
      Tiles pattern m rest.iterCopy states.flatten := by
  induction rounds generalizing rest m with
  | zero =>
    have hDone : rest.toBeDone = 0 := by omega
    exact ⟨[], if_pos hDone, hAt.count.trans hDone⟩
  | succ rounds ih =>
    unfold requestLoop
    split
    · rename_i hDone
      exact ⟨[], rfl, hAt.count.trans hDone⟩
    rename_i hMore
    have hNum := toNat_numStripeTargets h hFits
    have hNumPos := h.sized.numTargets_pos
    have hNumLt := (numStripeTargets pattern).toNat_lt
    have hTarget := getStripeTargetIndex_eq h.sized hFits (hAt.offset hMore)
    have hTargetLt :
        targetIndex pattern.chunkSize.toNat pattern.getNumStripeTargetIDs m <
        pattern.getNumStripeTargetIDs := Nat.mod_lt _ hNumPos
    have hIndex : (getStripeTargetIndex pattern rest.currentOffset).toUInt32.toNat =
        targetIndex pattern.chunkSize.toNat pattern.getNumStripeTargetIDs m := by
      rw [UInt64.toNat_toUInt32, hTarget]
      apply Nat.mod_eq_of_lt
      omega
    have hWorks : (maxNumWorks pattern maxNumRWNodes).toNat ≠ 0 := by
      unfold maxNumWorks
      split
      · exact fun hZero => hMax (UInt32.toNat_inj.mp hZero)
      · omega
    obtain ⟨-, hLess, m', hAt', hTiles⟩ :=
      stripesetLoop_spec h hFits hTaken (maxNumWorks pattern maxNumRWNodes).toNat hAt
        fun _ => hIndex
    obtain ⟨states, hLoop, hRest⟩ := ih hAt' (by omega)
    simp only
    rw [hLoop]
    exact ⟨_, rfl, hTiles _ hRest⟩

end

theorem requestLoop_eq_none (hMore : rest.toBeDone ≠ 0) (rounds : Nat) :
    requestLoop pattern taken 0 rounds rest = none := by
  induction rounds with
  | zero => exact if_neg hMore
  | succ rounds ih =>
    have hWorks : (maxNumWorks pattern 0).toNat = 0 := by
      unfold maxNumWorks
      split
      · rfl
      · rename_i hLess
        rw [UInt32.lt_iff_toNat_lt] at hLess
        exact Nat.eq_zero_of_not_pos hLess
    unfold requestLoop
    rw [if_neg hMore]
    simp only [hWorks, stripesetLoop]
    rw [ih]
    rfl

/-! ## All addresses of a pattern -/

/-- The addresses that the client and the server compute are those of the stripes, and the client
cuts every request into its chunks. -/
structure Addressed (pattern : StripePattern) (maxNumRWNodes : UInt32) : Prop where
  index : ∀ (pos : Int64) (m : Nat), pos.toInt = m →
    (getStripeTargetIndex pattern pos).toNat = m / pattern.chunkSize.toNat %
      pattern.getNumStripeTargetIDs
  server : ∀ pos : Int64, 0 ≤ pos.toInt →
    pattern.getStripeTargetIndex pos = getStripeTargetIndex pattern pos
  offset : ∀ (pos : Int64) (m : Nat), pos.toInt = m →
    (getChunkOffset pos pattern.chunkSize (numStripeTargets pattern).toUInt64
      (getStripeTargetIndex pattern pos)).toInt =
        (m / (pattern.chunkSize.toNat * pattern.getNumStripeTargetIDs) * pattern.chunkSize.toNat +
          m % pattern.chunkSize.toNat : Nat)
  injective : ∀ pos pos' : Int64, 0 ≤ pos.toInt → 0 ≤ pos'.toInt →
    getStripeTargetIndex pattern pos = getStripeTargetIndex pattern pos' →
    getChunkOffset pos pattern.chunkSize (numStripeTargets pattern).toUInt64
        (getStripeTargetIndex pattern pos) =
      getChunkOffset pos' pattern.chunkSize (numStripeTargets pattern).toUInt64
        (getStripeTargetIndex pattern pos') → pos = pos'
  written : ∀ (offset : Int64) (m : Nat) (iter : IovIter), offset.toInt = m →
    m + iter.count ≤ 2 ^ 63 → ∃ rounds states,
      writefileVec pattern maxNumRWNodes rounds iter offset = some states ∧
        Tiles pattern m iter states.flatten
  read : ∀ (offset : Int64) (m : Nat) (iter : IovIter), offset.toInt = m →
    m + iter.count ≤ 2 ^ 63 → ∃ rounds states,
      readfileVec pattern maxNumRWNodes rounds iter offset = some states ∧
        Tiles pattern m iter states.flatten

/-- The address arithmetic is right exactly for stripe sets of up to 2^32 bytes. -/
theorem addressed_iff (h : pattern.Accepted) (maxNumRWNodes : UInt32) :
    Addressed pattern maxNumRWNodes ↔
      pattern.getNumStripeTargetIDs * pattern.chunkSize.toNat ≤ 2 ^ 32 ∧ maxNumRWNodes ≠ 0 := by
  constructor
  · intro hAddressed
    refine ⟨fits_of_getStripeTargetIndex h.sized hAddressed.index, ?_⟩
    rintro rfl
    obtain ⟨rounds, states, hWritten, -⟩ :=
      hAddressed.written 0 0 ⟨0, 1⟩ Int64.toInt_zero (by norm_num)
    have hMore : (RequestRest.mk 0 ⟨0, 1⟩ 1).toBeDone ≠ 0 := one_ne_zero
    have hNone : writefileVec pattern 0 rounds ⟨0, 1⟩ 0 = none := requestLoop_eq_none hMore rounds
    rw [hNone] at hWritten
    cases hWritten
  · rintro ⟨hFits, hMax⟩
    have hIndex := fun (pos : Int64) (m : Nat) (hPos : pos.toInt = m) =>
      getStripeTargetIndex_eq h.sized hFits hPos
    have hOffset := fun (pos : Int64) (m : Nat) (hPos : pos.toInt = m) =>
      getChunkOffset_eq h.sized hPos (toNat_numStripeTargets h hFits) (hIndex pos m hPos)
    refine ⟨hIndex, ?_, hOffset, ?_, ?_, ?_⟩
    · intro pos hPos
      obtain ⟨m, hm⟩ := Int.eq_ofNat_of_zero_le hPos
      rw [← UInt64.toNat_inj, h.sized.getStripeTargetIndex_eq hFits hm, hIndex pos m hm]
    · intro pos pos' hPos hPos' hSame hSameOffset
      obtain ⟨m, hm⟩ := Int.eq_ofNat_of_zero_le hPos
      obtain ⟨m', hm'⟩ := Int.eq_ofNat_of_zero_le hPos'
      rw [← Int64.toInt_inj, hm, hm']
      norm_cast
      apply address_injective h.sized.chunkSize_pos (n := pattern.getNumStripeTargetIDs)
      · rw [← hIndex pos m hm, hSame, hIndex pos' m' hm']
      · have hInt := congrArg Int64.toInt hSameOffset
        rw [hOffset pos m hm, hOffset pos' m' hm'] at hInt
        exact_mod_cast hInt
    · intro offset m iter hPos hBound
      have hAt : RequestRest.At ⟨offset, iter, iter.count⟩ m := ⟨rfl, hBound, fun _ => hPos⟩
      have hTaken : TakesPiece fun _ _ pieceCount => pieceCount := fun _ _ => rfl
      obtain ⟨states, hLoop, hTiles⟩ := requestLoop_spec h hFits hTaken hMax iter.count hAt le_rfl
      exact ⟨iter.count, states, hLoop, hTiles⟩
    · intro offset m iter hPos hBound
      have hAt : RequestRest.At ⟨offset, iter, iter.count⟩ m := ⟨rfl, hBound, fun _ => hPos⟩
      have hTaken : TakesPiece fun currentChunkSize toBeRead _ => min currentChunkSize toBeRead :=
        fun _ _ => min_comm _ _
      obtain ⟨states, hLoop, hTiles⟩ := requestLoop_spec h hFits hTaken hMax iter.count hAt le_rfl
      exact ⟨iter.count, states, hLoop, hTiles⟩

/-- Four targets with chunks of 512 KiB. -/
theorem addressed_fourTargets : Addressed ⟨524288, .raid0 [1, 2, 3, 4], 2097152, 4⟩ 8 :=
  (addressed_iff ⟨by decide, by decide, by decide, by decide⟩ 8).mpr ⟨by decide, by decide⟩

/-- Three targets with chunks of 2 GiB: the first byte of the second chunk is taken for one of the
first target. -/
theorem not_addressed_threeTargets :
    StripePattern.Accepted ⟨2147483648, .raid0 [1, 2, 3], 2147483648, 4⟩ ∧
      ¬Addressed ⟨2147483648, .raid0 [1, 2, 3], 2147483648, 4⟩ 8 := by
  refine ⟨⟨?_, ?_, ?_, ?_⟩, fun hAddressed => ?_⟩
  · decide
  · decide
  · decide
  · decide
  · have hIndex := hAddressed.index 2147483648 2147483648 (by decide)
    exact absurd hIndex (by decide)

end Client

end Fhgfs
