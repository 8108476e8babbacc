import Fhgfs.Common.ChunkFileInfo

/-!
# The attributes of files

`updateDynamicFileAttribs` computes the size and the times of a file from its chunk files. It
only looks at the last target with the largest number of chunks. `fileSize_updateDynamicFileAttribs`
shows that this gives the file size for all combinations of holes and incomplete chunks.
-/

namespace Fhgfs

open Striping List Option

def STATDATA_FEATURE_SPARSE_FILE : UInt32 := 1
def STATDATA_SIZETOBLOCKSBIT_SHIFT : UInt32 := 9
def STATDATA_SPARSE_GRACEBLOCKS : UInt64 := 8

structure SettableFileAttribs where
  mode : Int32
  userID : UInt32
  groupID : UInt32
  modificationTimeSecs : Int64
  lastAccessTimeSecs : Int64
deriving DecidableEq

/-- The number of used blocks of each chunk file. -/
structure ChunksBlocksVec where
  chunkBlocksVec : List UInt64
deriving DecidableEq

namespace ChunksBlocksVec

/-- A vector without targets is resized first. For a target out of range, nothing is set. -/
def setNumBlocks (target : Nat) (numBlocks : UInt64) (numStripeTargets : Nat)
    (v : ChunksBlocksVec) : ChunksBlocksVec :=
  let vec :=
    if v.chunkBlocksVec.isEmpty then List.replicate numStripeTargets 0 else v.chunkBlocksVec
  ⟨vec.set target numBlocks⟩

def getBlockSum (v : ChunksBlocksVec) : UInt64 := v.chunkBlocksVec.foldl (· + ·) 0

def enterBlocks (numStripeTargets : Nat) : Nat → List ChunkFileInfo → ChunksBlocksVec →
    ChunksBlocksVec
  | _, [], v => v
  | target, info :: rest, v =>
    enterBlocks numStripeTargets (target + 1) rest
      (v.setNumBlocks target info.getNumBlocks numStripeTargets)

end ChunksBlocksVec

structure StatData where
  flags : UInt32
  fileSize : Int64
  creationTimeSecs : Int64
  attribChangeTimeSecs : Int64
  nlink : UInt32
  settableFileAttribs : SettableFileAttribs
  contentsVersion : UInt32
  chunkBlocksVec : ChunksBlocksVec
deriving DecidableEq

namespace StatData

variable (s : StatData)

def getIsSparseFile : Bool := s.flags &&& STATDATA_FEATURE_SPARSE_FILE != 0

def setSparseFlag : StatData :=
  { s with flags := s.flags ||| STATDATA_FEATURE_SPARSE_FILE }

def unsetSparseFlag : StatData :=
  { s with flags := s.flags &&& ~~~STATDATA_FEATURE_SPARSE_FILE }

def getNumBlocks : UInt64 :=
  if s.getIsSparseFile then s.chunkBlocksVec.getBlockSum
  else (s.fileSize >>> unsignedToInt64 STATDATA_SIZETOBLOCKSBIT_SHIFT).toUInt64

def setTargetChunkBlocks (target : Nat) (chunkBlocks : UInt64) (numStripeTargets : Nat)
    (s : StatData) : StatData :=
  { s with
    chunkBlocksVec := s.chunkBlocksVec.setNumBlocks target chunkBlocks numStripeTargets }

end StatData

/-- The variables of the loop over the targets in `updateDynamicFileAttribs`. -/
structure DynAttribsLoop where
  lastMaxNumChunksIndex : Nat
  maxNumChunks : Int64
  newModificationTimeSecs : Int64
  newLastAccessTimeSecs : Int64
  statData : StatData

namespace DynAttribsLoop

def next (numStripeTargets target : Nat) (info : ChunkFileInfo) (l : DynAttribsLoop) :
    DynAttribsLoop where
  lastMaxNumChunksIndex :=
    if info.getNumChunks ≥ l.maxNumChunks then target else l.lastMaxNumChunksIndex
  maxNumChunks := if info.getNumChunks ≥ l.maxNumChunks then info.getNumChunks else l.maxNumChunks
  newModificationTimeSecs := max l.newModificationTimeSecs info.getModificationTimeSecs
  newLastAccessTimeSecs := max l.newLastAccessTimeSecs info.getLastAccessTimeSecs
  statData := l.statData.setTargetChunkBlocks target info.getNumBlocks numStripeTargets

def run (numStripeTargets : Nat) : Nat → List ChunkFileInfo → DynAttribsLoop → DynAttribsLoop
  | _, [], l => l
  | target, info :: rest, l =>
    run numStripeTargets (target + 1) rest (l.next numStripeTargets target info)

end DynAttribsLoop

namespace StatData

/-- The variables for the first target. Without information from all targets, the times of the
metadata server count, too. -/
def startDynAttribsLoop (numValidDynAttribs numStripeTargets : Nat) (info : ChunkFileInfo)
    (s : StatData) : DynAttribsLoop :=
  let all := numValidDynAttribs = numStripeTargets
  { lastMaxNumChunksIndex := 0
    maxNumChunks := info.getNumChunks
    newModificationTimeSecs :=
      if all then info.getModificationTimeSecs
      else max info.getModificationTimeSecs s.settableFileAttribs.modificationTimeSecs
    newLastAccessTimeSecs :=
      if all then info.getLastAccessTimeSecs
      else max info.getLastAccessTimeSecs s.settableFileAttribs.lastAccessTimeSecs
    statData := s.setTargetChunkBlocks 0 info.getNumBlocks numStripeTargets }

/-- The file size from the last target with the largest number of chunks: the targets before it
have as many chunks, and those after it one less. -/
def lastMaxFileSize (chunkSize : UInt32) (numTargets index : Nat) (maxNumChunks : Int64)
    (info : ChunkFileInfo) : Int64 :=
  let lengthBeforeLastMaxIndex := Int64.ofNat index * maxNumChunks * unsignedToInt64 chunkSize
  let lengthAfterLastMaxIndex :=
    Int64.ofNat (numTargets - index - 1) * (maxNumChunks - 1) * unsignedToInt64 chunkSize
  lengthBeforeLastMaxIndex + lengthAfterLastMaxIndex + info.getFileSize

def updateSparseFlag (newFileSize : Int64) (s : StatData) : StatData :=
  let calcBlocks := (newFileSize >>> unsignedToInt64 STATDATA_SIZETOBLOCKSBIT_SHIFT).toUInt64
  if s.getNumBlocks + STATDATA_SPARSE_GRACEBLOCKS < calcBlocks then s.setSparseFlag
  else s.unsetSparseFlag

def applyDynAttribs (nowSecs newFileSize : Int64) (l : DynAttribsLoop) (s : StatData) : StatData :=
  let changed := l.newModificationTimeSecs ≠ s.settableFileAttribs.modificationTimeSecs ∨
    newFileSize ≠ s.fileSize
  { s with
    fileSize := newFileSize
    attribChangeTimeSecs := if changed then nowSecs else s.attribChangeTimeSecs
    settableFileAttribs :=
      { s.settableFileAttribs with
        lastAccessTimeSecs := l.newLastAccessTimeSecs
        modificationTimeSecs := l.newModificationTimeSecs } }

def updateDynamicFileAttribs (nowSecs : Int64) (fileInfoVec : List ChunkFileInfo)
    (stripePattern : StripePattern) (s : StatData) : StatData :=
  let numValidDynAttribs := fileInfoVec.countP (fun info => info.getStorageVersion != 0)
  let numStripeTargets := stripePattern.getNumStripeTargetIDs
  match fileInfoVec with
  | [] => s
  | first :: rest =>
    if numValidDynAttribs = 0 then s
    else
      let l := (s.startDynAttribsLoop numValidDynAttribs numStripeTargets first).run
        numStripeTargets 1 rest
      if l.maxNumChunks ≠ 0 then
        let newFileSize := lastMaxFileSize stripePattern.getChunkSize (rest.length + 1)
          l.lastMaxNumChunksIndex l.maxNumChunks
          ((first :: rest).getD l.lastMaxNumChunksIndex first)
        (l.statData.updateSparseFlag newFileSize).applyDynAttribs nowSecs newFileSize l
      else l.statData.applyDynAttribs nowSecs 0 l

end StatData

/-! ## The last target with the largest number of chunks -/

/-- The last target with the largest number of chunks, and that number. -/
def lastMaxChunks : Nat → List ChunkFileInfo → Nat × Int64 → Nat × Int64
  | _, [], best => best
  | target, info :: rest, best =>
    lastMaxChunks (target + 1) rest
      (if info.getNumChunks ≥ best.2 then (target, info.getNumChunks) else best)

/-- `best` is the last of the chunk files with its number of chunks, and none has more. -/
structure LastMax (infos : List ChunkFileInfo) (best : Nat × Int64) : Prop where
  found : ∃ info : ChunkFileInfo, infos[best.1]? = some info ∧ info.getNumChunks = best.2
  isMax : ∀ (i : Nat) (info : ChunkFileInfo), infos[i]? = some info →
    info.getNumChunks.toInt ≤ best.2.toInt
  isLast : ∀ (i : Nat) (info : ChunkFileInfo), infos[i]? = some info → best.1 < i →
    info.getNumChunks.toInt < best.2.toInt

namespace LastMax

variable {infos : List ChunkFileInfo} {best : Nat × Int64}

theorem singleton (info : ChunkFileInfo) : LastMax [info] (0, info.getNumChunks) := by
  constructor
  · exact ⟨info, rfl, rfl⟩
  · intro i other hOther
    cases i with
    | zero =>
      cases hOther
      exact le_rfl
    | succ i => cases hOther
  · intro i other hOther hLater
    obtain ⟨j, rfl⟩ := Nat.exists_eq_succ_of_ne_zero (Nat.pos_iff_ne_zero.mp hLater)
    cases hOther

theorem next (info : ChunkFileInfo) (h : LastMax infos best) :
    LastMax (infos ++ [info])
      (if info.getNumChunks ≥ best.2 then (infos.length, info.getNumChunks) else best) := by
  have hCases : ∀ (i : Nat) (other : ChunkFileInfo), (infos ++ [info])[i]? = some other →
      infos[i]? = some other ∨ i = infos.length ∧ other = info := by
    intro i other hOther
    rcases Nat.lt_trichotomy i infos.length with hBefore | rfl | hAfter
    · rw [getElem?_append_left hBefore] at hOther
      exact Or.inl hOther
    · rw [getElem?_concat_length] at hOther
      exact Or.inr ⟨rfl, (some.inj hOther).symm⟩
    · rw [getElem?_eq_none (by simp; omega)] at hOther
      cases hOther
  by_cases hGreater : info.getNumChunks ≥ best.2
  · have hInt := Int64.le_iff_toInt_le.mp hGreater
    rw [if_pos hGreater]
    constructor
    · exact ⟨info, getElem?_concat_length, rfl⟩
    · intro i other hOther
      rcases hCases i other hOther with hIn | ⟨-, rfl⟩
      · exact (h.isMax i other hIn).trans hInt
      · exact le_rfl
    · intro i other hOther hLater
      rcases hCases i other hOther with hIn | ⟨rfl, -⟩
      · have hLt := (List.getElem?_eq_some_iff.mp hIn).1
        omega
      · exact absurd hLater (lt_irrefl _)
  · have hInt : info.getNumChunks.toInt < best.2.toInt :=
      not_le.mp fun hLe => hGreater (Int64.le_iff_toInt_le.mpr hLe)
    rw [if_neg hGreater]
    constructor
    · obtain ⟨max, hMax, hChunks⟩ := h.found
      refine ⟨max, ?_, hChunks⟩
      rw [List.getElem?_append_left (List.getElem?_eq_some_iff.mp hMax).1]
      exact hMax
    · intro i other hOther
      rcases hCases i other hOther with hIn | ⟨-, rfl⟩
      · exact h.isMax i other hIn
      · exact hInt.le
    · intro i other hOther hLater
      rcases hCases i other hOther with hIn | ⟨-, rfl⟩
      · exact h.isLast i other hIn hLater
      · exact hInt

theorem lastMaxChunks (rest : List ChunkFileInfo) (h : LastMax infos best) :
    LastMax (infos ++ rest) (lastMaxChunks infos.length rest best) := by
  induction rest generalizing infos best with
  | nil =>
    rw [append_nil]
    exact h
  | cons info rest ih =>
    have hRest := ih (h.next info)
    rwa [append_assoc, singleton_append, length_append] at hRest

end LastMax

namespace DynAttribsLoop

section

variable (n target : Nat) (infos : List ChunkFileInfo) (l : DynAttribsLoop)

theorem run_lastMax :
    ((l.run n target infos).lastMaxNumChunksIndex, (l.run n target infos).maxNumChunks) =
      lastMaxChunks target infos (l.lastMaxNumChunksIndex, l.maxNumChunks) := by
  induction infos generalizing target l with
  | nil => rfl
  | cons info rest ih =>
    rw [run, ih, lastMaxChunks]
    unfold next
    split_ifs <;> rfl

theorem run_statData : (l.run n target infos).statData = { l.statData with
        chunkBlocksVec := l.statData.chunkBlocksVec.enterBlocks n target infos } := by
  induction infos generalizing target l with
  | nil => rfl
  | cons info rest ih =>
    rw [run, ih]
    rfl

end

end DynAttribsLoop

namespace StatData

variable {stripePattern : StripePattern} {fileInfoVec : List ChunkFileInfo} {k : Nat}

theorem toInt_lastMaxFileSize {chunkSize : UInt32} {numTargets index : Nat} {info : ChunkFileInfo}
    (hChunk : chunkSize.toNat = 2 ^ k) (hInfo : info.chunkSize = chunkSize)
    (hSize : 0 ≤ info.getFileSize.toInt) (hIndex : index < numTargets) (hLength : info.length ≠ 0)
    (hFits : fileEnd (2 ^ k) numTargets index info.length < 2 ^ 63) :
    (lastMaxFileSize chunkSize numTargets index info.getNumChunks info).toInt =
      fileEnd (2 ^ k) numTargets index info.length := by
  have hChunks := ChunkFileInfo.toInt_getNumChunks (hInfo ▸ hChunk) hSize
  have hPos : 0 < numChunks (2 ^ k) info.length := by
    rw [Nat.pos_iff_ne_zero, Ne, numChunks_eq_zero]
    exact hLength
  have hFile : (info.length : Int) = info.getFileSize.toInt := Int.toNat_of_nonneg hSize
  have hEnd := fileEnd_eq_sum (Nat.two_pow_pos k) hIndex hLength
  have hExact : (lastMaxFileSize chunkSize numTargets index info.getNumChunks info).toInt =
      (fileEnd (2 ^ k) numTargets index info.length : Int).bmod (2 ^ 64) := by
    have hPred : ((numChunks (2 ^ k) info.length - 1 : Nat) : Int) =
        numChunks (2 ^ k) info.length - 1 := by omega
    rw [hEnd]
    push_cast
    rw [hPred, hFile]
    simp only [lastMaxFileSize, Int64.toInt_add, Int64.toInt_mul, Int64.toInt_sub,
      Int64.toInt_ofNat', hChunks, toInt_unsignedToInt64, hChunk, Int64.toInt_one, Int64.size,
      Int.bmod_mul_bmod, Int.mul_bmod_bmod, Int.bmod_add_bmod, Int.add_bmod_bmod]
    rfl
  rw [hExact]
  apply Int.bmod_eq_of_le <;> omega

@[simp] theorem fileSize_applyDynAttribs (nowSecs newFileSize : Int64) (l : DynAttribsLoop)
    (s : StatData) : (s.applyDynAttribs nowSecs newFileSize l).fileSize = newFileSize := rfl

theorem fileSize_of_lastMax {best : Nat × Int64} {info : ChunkFileInfo}
    (hChunk : stripePattern.getChunkSize.toNat = 2 ^ k)
    (hInfos : ∀ info ∈ fileInfoVec, info.chunkSize = stripePattern.getChunkSize ∧
      0 ≤ info.getFileSize.toInt)
    (hMax : LastMax fileInfoVec best) (hInfo : fileInfoVec[best.1]? = some info) :
    Striping.fileSize (2 ^ k) (fileInfoVec.map ChunkFileInfo.length) =
      Striping.fileEnd (2 ^ k) fileInfoVec.length best.1 info.length := by
  have hChunks : ∀ other ∈ fileInfoVec,
      other.getNumChunks.toInt = Striping.numChunks (2 ^ k) other.length := by
    intro other hIn
    obtain ⟨hSame, hSize⟩ := hInfos other hIn
    exact ChunkFileInfo.toInt_getNumChunks (hSame ▸ hChunk) hSize
  obtain ⟨found, hFound, hFoundMax⟩ := hMax.found
  obtain rfl : found = info := some.inj (hFound.symm.trans hInfo)
  have hFoundChunks := hChunks found (mem_of_getElem? hInfo)
  rw [hFoundMax] at hFoundChunks
  have hAt : ∀ (i x : Nat), (fileInfoVec.map ChunkFileInfo.length)[i]? = some x →
      ∃ other, fileInfoVec[i]? = some other ∧ other.length = x := by
    intro i x hx
    rwa [getElem?_map, map_eq_some_iff] at hx
  by_cases hEmpty : found.length = 0
  · -- no target has a chunk
    rw [hEmpty, Striping.fileEnd, if_pos rfl]
    apply Striping.fileSize_eq_zero
    intro len hIn
    obtain ⟨i, hi⟩ := getElem?_of_mem hIn
    obtain ⟨other, hOther, rfl⟩ := hAt i len hi
    have hLe := hMax.isMax i other hOther
    rw [hChunks other (mem_of_getElem? hOther), hFoundChunks, hEmpty,
      Striping.numChunks_eq_zero.mpr rfl] at hLe
    exact Striping.numChunks_eq_zero.mp (Nat.le_zero.mp (by exact_mod_cast hLe))
  · have hFoundAt : (fileInfoVec.map ChunkFileInfo.length)[best.1]? = some found.length := by
      rw [getElem?_map, hInfo]
      rfl
    rw [Striping.fileSize_eq_of_lastMax (Nat.two_pow_pos k) hFoundAt hEmpty, length_map]
    · intro i x hx
      obtain ⟨other, hOther, rfl⟩ := hAt i x hx
      have hLe := hMax.isMax i other hOther
      rw [hChunks other (mem_of_getElem? hOther), hFoundChunks] at hLe
      exact_mod_cast hLe
    · intro i x hx hLater
      obtain ⟨other, hOther, rfl⟩ := hAt i x hx
      have hLt := hMax.isLast i other hOther hLater
      rw [hChunks other (mem_of_getElem? hOther), hFoundChunks] at hLt
      exact_mod_cast hLt

def reportedFileSize (fileInfoVec : List ChunkFileInfo) (stripePattern : StripePattern) : Int64 :=
  match fileInfoVec with
  | [] => 0
  | first :: rest =>
    let best := lastMaxChunks 1 rest (0, first.getNumChunks)
    if best.2 ≠ 0 then
      lastMaxFileSize stripePattern.getChunkSize (rest.length + 1) best.1 best.2
        ((first :: rest).getD best.1 first)
    else 0

theorem toInt_reportedFileSize (hChunk : stripePattern.getChunkSize.toNat = 2 ^ k)
    (hInfos : ∀ info ∈ fileInfoVec, info.chunkSize = stripePattern.getChunkSize ∧
      0 ≤ info.getFileSize.toInt)
    (hFits : Striping.fileSize (2 ^ k) (fileInfoVec.map ChunkFileInfo.length) < 2 ^ 63) :
    (reportedFileSize fileInfoVec stripePattern).toInt =
      Striping.fileSize (2 ^ k) (fileInfoVec.map ChunkFileInfo.length) := by
  cases fileInfoVec with
  | nil => rfl
  | cons first rest =>
    have hMax := (LastMax.singleton first).lastMaxChunks rest
    rw [singleton_append, length_singleton] at hMax
    unfold reportedFileSize
    dsimp only
    obtain ⟨info, hInfo, hNumChunks⟩ := hMax.found
    have hSize := fileSize_of_lastMax hChunk hInfos hMax hInfo
    obtain ⟨hSame, hNonneg⟩ := hInfos info (mem_of_getElem? hInfo)
    have hLength : info.getNumChunks = 0 ↔ info.length = 0 := by
      rw [← Striping.numChunks_eq_zero (c := 2 ^ k), ← Int64.toInt_inj,
        ChunkFileInfo.toInt_getNumChunks (hSame ▸ hChunk) hNonneg, Int64.toInt_zero]
      norm_cast
    rw [hSize] at hFits ⊢
    rw [← hNumChunks]
    split
    · next hChunks =>
      rw [getD_eq_getElem?_getD, hInfo]
      exact toInt_lastMaxFileSize hChunk hSame hNonneg (List.getElem?_eq_some_iff.mp hInfo).1
        (mt hLength.mpr hChunks) hFits
    · next hChunks =>
      rw [hLength.mp (not_not.mp hChunks), Striping.fileEnd, if_pos rfl]
      rfl

/-- With a valid chunk file, the attributes are set from the variables after the loop. The vector
has the reported blocks then, and all else is as before. -/
theorem updateDynamicFileAttribs_of_valid (nowSecs : Int64) (s : StatData)
    (stripePattern : StripePattern)
    (hValid : ∃ info ∈ fileInfoVec, info.getStorageVersion ≠ 0) :
    ∃ (l : DynAttribsLoop) (flagged : StatData),
      l.statData = { s with
        chunkBlocksVec := s.chunkBlocksVec.enterBlocks stripePattern.getNumStripeTargetIDs 0
          fileInfoVec } ∧
      (reportedFileSize fileInfoVec stripePattern ≠ 0 →
        flagged = l.statData.updateSparseFlag (reportedFileSize fileInfoVec stripePattern)) ∧
      s.updateDynamicFileAttribs nowSecs fileInfoVec stripePattern =
        flagged.applyDynAttribs nowSecs (reportedFileSize fileInfoVec stripePattern) l := by
  have hCount : fileInfoVec.countP (fun info => info.getStorageVersion != 0) ≠ 0 := by
    obtain ⟨info, hIn, hVersion⟩ := hValid
    rw [Ne, countP_eq_zero]
    exact fun hNone => hNone info hIn (bne_iff_ne.mpr hVersion)
  cases fileInfoVec with
  | nil => exact absurd rfl hCount
  | cons first rest =>
    generalize hLoop : (s.startDynAttribsLoop
      ((first :: rest).countP (fun info => info.getStorageVersion != 0))
      stripePattern.getNumStripeTargetIDs first).run stripePattern.getNumStripeTargetIDs 1 rest =
        l
    have hBest : lastMaxChunks 1 rest (0, first.getNumChunks) =
        (l.lastMaxNumChunksIndex, l.maxNumChunks) := by
      rw [← hLoop, DynAttribsLoop.run_lastMax]
      rfl
    have hStat := DynAttribsLoop.run_statData stripePattern.getNumStripeTargetIDs 1 rest
      (s.startDynAttribsLoop ((first :: rest).countP (fun info => info.getStorageVersion != 0))
        stripePattern.getNumStripeTargetIDs first)
    rw [hLoop] at hStat
    unfold updateDynamicFileAttribs reportedFileSize
    simp only [if_neg hCount, hLoop, hBest]
    split_ifs with hChunks
    · exact ⟨l, _, hStat, fun _ => rfl, rfl⟩
    · exact ⟨l, l.statData, hStat, (absurd rfl ·), rfl⟩

theorem updateDynamicFileAttribs_of_noVersion {nowSecs : Int64} {s : StatData}
    (hNone : ∀ info ∈ fileInfoVec, info.getStorageVersion = 0) :
    s.updateDynamicFileAttribs nowSecs fileInfoVec stripePattern = s := by
  have hCount : fileInfoVec.countP (fun info => info.getStorageVersion != 0) = 0 := by
    rw [countP_eq_zero]
    intro info hIn
    rw [hNone info hIn]
    decide
  cases fileInfoVec with
  | nil => rfl
  | cons first rest => exact if_pos hCount

/-- The file size is the largest end of file over the targets, whatever the chunk files lack. -/
theorem fileSize_updateDynamicFileAttribs (nowSecs : Int64) (s : StatData)
    (hChunk : stripePattern.getChunkSize.toNat = 2 ^ k)
    (hInfos : ∀ info ∈ fileInfoVec, info.chunkSize = stripePattern.getChunkSize ∧
      0 ≤ info.getFileSize.toInt)
    (hValid : ∃ info ∈ fileInfoVec, info.getStorageVersion ≠ 0)
    (hFits : Striping.fileSize (2 ^ k) (fileInfoVec.map ChunkFileInfo.length) < 2 ^ 63) :
    (s.updateDynamicFileAttribs nowSecs fileInfoVec stripePattern).fileSize.toInt =
      Striping.fileSize (2 ^ k) (fileInfoVec.map ChunkFileInfo.length) := by
  obtain ⟨l, flagged, -, -, hUpdated⟩ :=
    updateDynamicFileAttribs_of_valid nowSecs s stripePattern hValid
  rw [hUpdated, fileSize_applyDynAttribs]
  exact toInt_reportedFileSize hChunk hInfos hFits

/-- Two chunk files with chunks of four bytes, the first one with a hole that the second lacks. -/
theorem fileSize_updateDynamicFileAttribs_hole :
    ((StatData.mk 0 0 0 0 1 ⟨0, 0, 0, 0, 0⟩ 0 ⟨[]⟩).updateDynamicFileAttribs 1
      [.new 4 ⟨1, 6, 1, 0, 0⟩, .new 4 ⟨0, 3, 1, 0, 0⟩]
      ⟨4, .raid0 [1, 2], 8, 2⟩).fileSize.toInt = 10 := by
  rw [fileSize_updateDynamicFileAttribs (k := 2) 1 _ (by decide) (by decide) (by decide)
    (by decide)]
  decide

/-! ## What does not come from the chunk files -/

/-- The attributes without the change time and without those of the chunk files. -/
def static (s : StatData) : StatData :=
  { s with
    flags := 0
    fileSize := 0
    attribChangeTimeSecs := 0
    chunkBlocksVec := ⟨[]⟩
    settableFileAttribs.modificationTimeSecs := 0
    settableFileAttribs.lastAccessTimeSecs := 0 }

/-- What the chunk files tell of the size is the same. -/
def SameSize (s s' : StatData) : Prop :=
  s'.fileSize = s.fileSize ∧ s'.flags = s.flags ∧ s'.chunkBlocksVec = s.chunkBlocksVec

def SameTimes (s s' : StatData) : Prop :=
  s'.settableFileAttribs.modificationTimeSecs = s.settableFileAttribs.modificationTimeSecs ∧
    s'.settableFileAttribs.lastAccessTimeSecs = s.settableFileAttribs.lastAccessTimeSecs

theorem eq_iff_of_static {s s' : StatData} (h : s'.static = s.static) :
    s' = s ↔ s.SameSize s' ∧ s.SameTimes s' ∧ s'.attribChangeTimeSecs = s.attribChangeTimeSecs := by
  constructor
  · rintro rfl
    exact ⟨⟨rfl, rfl, rfl⟩, ⟨rfl, rfl⟩, rfl⟩
  · rintro ⟨⟨hSize, hFlags, hBlocks⟩, ⟨hModified, hAccessed⟩, hChanged⟩
    obtain ⟨_, _, _, _, _, ⟨_, _, _, _, _⟩, _, _⟩ := s
    obtain ⟨_, _, _, _, _, ⟨_, _, _, _, _⟩, _, _⟩ := s'
    simp only [static, mk.injEq, SettableFileAttribs.mk.injEq] at *
    simp [h, hSize, hFlags, hBlocks, hModified, hAccessed, hChanged]

theorem static_updateSparseFlag (newFileSize : Int64) (s : StatData) :
    (s.updateSparseFlag newFileSize).static = s.static := by
  unfold updateSparseFlag
  simp only
  split <;> rfl

section

variable (nowSecs : Int64) (fileInfoVec : List ChunkFileInfo) (stripePattern : StripePattern)
  (s : StatData)

theorem static_updateDynamicFileAttribs :
    (s.updateDynamicFileAttribs nowSecs fileInfoVec stripePattern).static = s.static := by
  have hApply : ∀ (newFileSize : Int64) (l : DynAttribsLoop) (s : StatData),
      (s.applyDynAttribs nowSecs newFileSize l).static = s.static := fun _ _ _ => rfl
  unfold updateDynamicFileAttribs
  cases fileInfoVec with
  | nil => rfl
  | cons first rest =>
    simp only
    split_ifs
    · rfl
    · rw [hApply, static_updateSparseFlag, DynAttribsLoop.run_statData]
      rfl
    · rw [hApply, DynAttribsLoop.run_statData]
      rfl

theorem changeTime_updateDynamicFileAttribs (h : s.attribChangeTimeSecs = nowSecs) :
    (s.updateDynamicFileAttribs nowSecs fileInfoVec stripePattern).attribChangeTimeSecs =
      nowSecs := by
  have hApply : ∀ (newFileSize : Int64) (l : DynAttribsLoop) (s : StatData),
      s.attribChangeTimeSecs = nowSecs →
      (s.applyDynAttribs nowSecs newFileSize l).attribChangeTimeSecs = nowSecs :=
    fun _ _ _ h => ite_eq_left_iff.mpr fun _ => h
  have hFlag : ∀ (newFileSize : Int64) (s : StatData),
      (s.updateSparseFlag newFileSize).attribChangeTimeSecs = s.attribChangeTimeSecs := by
    intro newFileSize s
    unfold updateSparseFlag
    dsimp only
    split <;> rfl
  unfold updateDynamicFileAttribs
  cases fileInfoVec with
  | nil => exact h
  | cons first rest =>
    simp only
    split_ifs
    · exact h
    · exact hApply _ _ _ (by rw [hFlag, DynAttribsLoop.run_statData]; exact h)
    · exact hApply _ _ _ (by rw [DynAttribsLoop.run_statData]; exact h)

theorem userID_updateDynamicFileAttribs :
    (s.updateDynamicFileAttribs nowSecs fileInfoVec stripePattern).settableFileAttribs.userID =
      s.settableFileAttribs.userID :=
  congrArg (·.settableFileAttribs.userID)
    (static_updateDynamicFileAttribs nowSecs fileInfoVec stripePattern s)

end

end StatData

end Fhgfs
