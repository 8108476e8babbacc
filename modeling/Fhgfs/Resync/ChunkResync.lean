import Fhgfs.Lib.Run
import Fhgfs.Resync.ResyncLocalFile

/-!
# Equality after a resync

Below the offset of the resync the chunks have the same bytes; above it the buddy chunk has
zeros or what a modification wrote to both. The first message empties the buddy chunk, and the
last one gives it the length of the local chunk.
-/

namespace Fhgfs.Resync

open SparseFile ChunkResync List Run

/-! ## What a write of a block does -/

theorem isSparse_iff {block : List UInt8} : isSparse block = true ↔ ∀ i, block.getD i 0 = 0 := by
  unfold isSparse
  rw [all_eq_true]
  constructor
  · intro h i
    by_cases hi : i < block.length
    · rw [getD_eq_getElem _ _ hi]
      simpa using h _ (getElem_mem hi)
    · exact getD_eq_default _ _ (by omega)
  · intro h byte hByte
    obtain ⟨i, hi, rfl⟩ := mem_iff_getElem.mp hByte
    have hZero := h i
    rw [getD_eq_getElem _ _ hi] at hZero
    simpa using hZero

theorem getD_take_drop (buf : List UInt8) (n i : Nat) :
    buf.getD i 0 = if i < n then (buf.take n).getD i 0 else (buf.drop n).getD (i - n) 0 := by
  simp only [getD_eq_getElem?_getD, getElem?_take, getElem?_drop]
  split_ifs with hi
  · rfl
  · congr 2
    omega

theorem findData_true (steps : Nat) (data : List UInt8) : (findData steps data true).1 = true := by
  induction steps generalizing data with
  | zero => rfl
  | succ steps ih =>
    unfold findData
    by_cases hData : data = []
    · rw [if_pos hData]
    rw [if_neg hData, if_pos rfl]
    by_cases hSparse : isSparse (data.take RESYNCER_SPARSE_BLOCK_SIZE) = true
    · rw [if_pos hSparse]
    · rw [if_neg hSparse]
      exact ih _

variable {data : List UInt8}

theorem getD_of_findData {steps : Nat} (hSteps : data.length ≤ steps)
    (hNone : (findData steps data false).1 = false) (i : Nat) : data.getD i 0 = 0 := by
  induction steps generalizing data i with
  | zero =>
    obtain rfl : data = [] := eq_nil_of_length_eq_zero (by omega)
    rfl
  | succ steps ih =>
    unfold findData at hNone
    by_cases hData : data = []
    · rw [hData]
      rfl
    rw [if_neg hData] at hNone
    by_cases hSparse : isSparse (data.take RESYNCER_SPARSE_BLOCK_SIZE) = true
    · rw [if_pos hSparse, if_neg (by simp)] at hNone
      have hSize : 0 < RESYNCER_SPARSE_BLOCK_SIZE := by decide
      rw [getD_take_drop data RESYNCER_SPARSE_BLOCK_SIZE]
      split_ifs
      · exact isSparse_iff.mp hSparse i
      · exact ih (by rw [length_drop]; omega) hNone _
    · rw [if_neg hSparse, findData_true] at hNone
      cases hNone

/-- The file after a write of a buffer that may leave out zeros, and that may cut off what is
behind the buffer. -/
structure Copied (chunk : Chunk) (data : List UInt8) (offset : Nat) (chunk' : Chunk) : Prop where
  inside : ∀ i < data.length, chunk'.byteAt (offset + i) = data.getD i 0 ∨
    data.getD i 0 = 0 ∧ chunk'.byteAt (offset + i) = chunk.byteAt (offset + i)
  below : ∀ pos < offset, chunk'.byteAt pos = chunk.byteAt pos
  above : ∀ pos, offset + data.length ≤ pos →
    chunk'.byteAt pos = chunk.byteAt pos ∨ chunk'.byteAt pos = 0
  length_ge : offset + data.length ≤ chunk'.length
  length_le : chunk'.length ≤ max chunk.length (offset + data.length)

variable (chunk : Chunk)

theorem Copied.pwrite (hData : data ≠ []) (offset : Nat) :
    Copied chunk data offset (chunk.pwrite data offset) := by
  have hLength := length_pwrite chunk data offset hData
  constructor
  · intro i hi
    left
    rw [byteAt_pwrite, if_pos (by omega)]
    congr 1
    omega
  · intro pos hpos
    rw [byteAt_pwrite, if_neg (by omega)]
  · intro pos hpos
    rw [byteAt_pwrite, if_neg (by omega)]
    exact Or.inl rfl
  · omega
  · omega

theorem block_written {block : List UInt8} (offset : Nat) {written : Chunk}
    (hWritten : written = if isSparse block then chunk else chunk.pwrite block offset) :
    (∀ i < block.length, written.byteAt (offset + i) = block.getD i 0 ∨
      block.getD i 0 = 0 ∧ written.byteAt (offset + i) = chunk.byteAt (offset + i)) ∧
    (∀ pos, pos < offset ∨ offset + block.length ≤ pos → written.byteAt pos = chunk.byteAt pos) ∧
    written.length ≤ max chunk.length (offset + block.length) := by
  by_cases hSparse : isSparse block = true
  · rw [if_pos hSparse] at hWritten
    subst hWritten
    exact ⟨fun i _ => Or.inr ⟨isSparse_iff.mp hSparse i, rfl⟩, fun _ _ => rfl, le_max_left _ _⟩
  rw [if_neg hSparse] at hWritten
  subst hWritten
  have hBlock : block ≠ [] := by
    rintro rfl
    exact hSparse rfl
  have hCopied := Copied.pwrite chunk hBlock offset
  refine ⟨hCopied.inside, ?_, hCopied.length_le⟩
  intro pos hpos
  rw [byteAt_pwrite, if_neg (by omega)]

theorem Copied.last (data : List UInt8) (offset : Nat) :
    Copied chunk data offset (if isSparse data then chunk.ftruncate (offset + data.length)
      else chunk.pwrite data offset) := by
  by_cases hSparse : isSparse data = true
  · rw [if_pos hSparse]
    have hLength := length_ftruncate chunk (offset + data.length)
    constructor
    · intro i hi
      right
      refine ⟨isSparse_iff.mp hSparse i, ?_⟩
      rw [byteAt_ftruncate, if_pos (by omega)]
    · intro pos hpos
      rw [byteAt_ftruncate, if_pos (by omega)]
    · intro pos hpos
      right
      rw [byteAt_ftruncate, if_neg (by omega)]
    · omega
    · omega
  · rw [if_neg hSparse]
    refine Copied.pwrite chunk ?_ offset
    rintro rfl
    exact hSparse rfl

theorem Copied.doWriteSparse {steps : Nat} (offset : Nat) (hSteps : data.length < steps) :
    Copied chunk data offset (doWriteSparse steps chunk data offset) := by
  induction steps generalizing chunk data offset with
  | zero => omega
  | succ steps ih =>
    have hSize : 0 < RESYNCER_SPARSE_BLOCK_SIZE := by decide
    have hLengths := length_take (i := RESYNCER_SPARSE_BLOCK_SIZE) (l := data)
    have hRestLength := length_drop (i := RESYNCER_SPARSE_BLOCK_SIZE) (l := data)
    have hBytes := getD_take_drop data RESYNCER_SPARSE_BLOCK_SIZE
    unfold Resync.doWriteSparse
    by_cases hRest : data.drop RESYNCER_SPARSE_BLOCK_SIZE = []
    · have hAll : data.take RESYNCER_SPARSE_BLOCK_SIZE = data :=
        take_of_length_le (drop_eq_nil_iff.mp hRest)
      rw [if_pos hRest, if_pos hRest, hAll]
      exact Copied.last chunk data offset
    rw [if_neg hRest, if_neg hRest]
    have hMore : RESYNCER_SPARSE_BLOCK_SIZE < data.length := by
      by_contra hLess
      exact hRest (drop_eq_nil_iff.mpr (by omega))
    generalize data.take RESYNCER_SPARSE_BLOCK_SIZE = block at *
    generalize data.drop RESYNCER_SPARSE_BLOCK_SIZE = rest at *
    obtain ⟨written, hWritten⟩ : ∃ written, written =
        if isSparse block then chunk else chunk.pwrite block offset := ⟨_, rfl⟩
    obtain ⟨hInside, hOutside, hLength⟩ := block_written chunk offset hWritten
    rw [← hWritten]
    have hNext := ih written (offset + block.length) (by omega : rest.length < steps)
    constructor
    · intro i hi
      rw [hBytes i]
      split_ifs with hBlock
      · rw [hNext.below _ (by omega)]
        exact hInside i (by omega)
      · have hThere := hNext.inside (i - RESYNCER_SPARSE_BLOCK_SIZE) (by omega)
        have hPos : offset + block.length + (i - RESYNCER_SPARSE_BLOCK_SIZE) = offset + i := by
          omega
        rwa [hPos, hOutside (offset + i) (by omega)] at hThere
    · intro pos hpos
      rw [hNext.below pos (by omega), hOutside pos (by omega)]
    · intro pos hpos
      rw [← hOutside pos (by omega)]
      exact hNext.above pos (by omega)
    · have := hNext.length_ge
      omega
    · have := hNext.length_le
      omega

theorem Copied.processIncoming (msg : ResyncLocalFileMsg) (chunk : Chunk)
    (hData : msg.flags.noData = false) (hTrunc : msg.flags.trunc = false)
    (hSome : msg.dataBuf ≠ []) :
    Copied (if msg.offset = 0 then [] else chunk) msg.dataBuf msg.offset
      (processIncoming msg chunk) := by
  unfold Resync.processIncoming
  simp only [hData, hTrunc, and_true, Bool.false_eq_true, if_false]
  by_cases hSparse : msg.flags.checkSparse = true
  · rw [if_pos hSparse]
    exact Copied.doWriteSparse _ _ (by omega)
  · rw [if_neg hSparse]
    exact Copied.pwrite _ hSome _

theorem processIncoming_nil {msg : ResyncLocalFileMsg}
    (hData : msg.flags.noData = false) (hNil : msg.dataBuf = []) :
    processIncoming msg chunk = (if msg.flags.checkSparse || msg.flags.trunc then
        (if msg.offset = 0 then [] else chunk : Chunk).ftruncate msg.offset
      else if msg.offset = 0 then [] else chunk) := by
  have hTwice : ∀ fd : Chunk, (fd.ftruncate msg.offset).ftruncate msg.offset =
      fd.ftruncate msg.offset := by
    intro fd
    refine ext_byteAt ?_ fun pos => ?_
    · rw [length_ftruncate, length_ftruncate]
    · rw [byteAt_ftruncate, byteAt_ftruncate]
      split_ifs <;> rfl
  have hSparse : ∀ fd : Chunk, doWriteSparse ((([] : List UInt8)).length + 1) fd [] msg.offset =
      fd.ftruncate msg.offset := fun fd => rfl
  unfold Resync.processIncoming
  dsimp only
  rw [hNil, hSparse]
  simp only [hData, and_true, Bool.false_eq_true, if_false, length_nil, add_zero]
  cases msg.flags.checkSparse <;> cases msg.flags.trunc
  · rfl
  · rfl
  · rfl
  · exact hTwice _

namespace ChunkResync

variable {s : ChunkResync}

/-- The chunks between two iterations. -/
structure Partly (s : ChunkResync) : Prop where
  below : ∀ pos < s.offset, s.buddyChunk.byteAt pos = s.localChunk.byteAt pos
  above : ∀ pos, s.buddyChunk.byteAt pos = 0 ∨ s.buddyChunk.byteAt pos = s.localChunk.byteAt pos
  length_le : s.buddyChunk.length ≤ s.localChunk.length
  shrunk : s.offset ≤ s.localChunk.length ∨ s.buddyChunk.length = s.localChunk.length

structure Inv (s : ChunkResync) : Prop where
  finished : s.finished = true → s.buddyChunk = s.localChunk
  trunc : s.finished = false → s.resyncMsgFlags.trunc = false
  noData : s.maxCount ≠ 0 → s.resyncMsgFlags.noData = false
  nothing : s.maxCount = 0 → s.offset = 0
  partly : s.finished = false → s.offset ≠ 0 → s.Partly

theorem getD_data (s : ChunkResync) {i : Nat}
    (hi : i < (s.localChunk.pread s.maxCount s.offset).length) :
    (s.localChunk.pread s.maxCount s.offset).getD i 0 = s.localChunk.byteAt (s.offset + i) := by
  have hLength := length_pread s.localChunk s.offset s.maxCount
  rw [getD_pread, if_pos (by omega)]

theorem Partly.copied {buddyChunk : Chunk} (h : s.offset ≠ 0 → s.Partly)
    (hCopied : Copied (if s.offset = 0 then [] else s.buddyChunk)
      (s.localChunk.pread s.maxCount s.offset) s.offset buddyChunk) :
    (∀ pos < s.offset + (s.localChunk.pread s.maxCount s.offset).length,
      buddyChunk.byteAt pos = s.localChunk.byteAt pos) ∧
    (∀ pos, buddyChunk.byteAt pos = 0 ∨ buddyChunk.byteAt pos = s.localChunk.byteAt pos) ∧
    s.offset + (s.localChunk.pread s.maxCount s.offset).length ≤ buddyChunk.length ∧
    buddyChunk.length ≤ max s.localChunk.length
      (s.offset + (s.localChunk.pread s.maxCount s.offset).length) := by
  have hBytes : ∀ i, i < (s.localChunk.pread s.maxCount s.offset).length →
      (s.localChunk.pread s.maxCount s.offset).getD i 0 =
        s.localChunk.byteAt (s.offset + i) := fun i hi => s.getD_data hi
  generalize s.localChunk.pread s.maxCount s.offset = data at *
  -- what the chunk has before the write: nothing if this is the first message
  obtain ⟨before, hBefore⟩ : ∃ before : Chunk,
      before = if s.offset = 0 then [] else s.buddyChunk := ⟨_, rfl⟩
  rw [← hBefore] at hCopied
  have hOld : (∀ pos < s.offset, before.byteAt pos = s.localChunk.byteAt pos) ∧
      (∀ pos, before.byteAt pos = 0 ∨ before.byteAt pos = s.localChunk.byteAt pos) ∧
      before.length ≤ s.localChunk.length := by
    by_cases hFirst : s.offset = 0
    · rw [if_pos hFirst] at hBefore
      subst hBefore
      exact ⟨fun pos hpos => by omega, fun pos => Or.inl rfl, Nat.zero_le _⟩
    · rw [if_neg hFirst] at hBefore
      subst hBefore
      exact ⟨(h hFirst).below, (h hFirst).above, (h hFirst).length_le⟩
  obtain ⟨hBelow, hAbove, hLength⟩ := hOld
  have hInside : ∀ i < data.length,
      buddyChunk.byteAt (s.offset + i) = s.localChunk.byteAt (s.offset + i) := by
    intro i hi
    rcases hCopied.inside i hi with hSame | ⟨hZero, hSame⟩
    · rw [hSame, hBytes i hi]
    · rw [hBytes i hi] at hZero
      rw [hSame, hZero]
      rcases hAbove (s.offset + i) with hHole | hEqual
      · exact hHole
      · rw [hEqual, hZero]
  have hAll : ∀ pos < s.offset + data.length, buddyChunk.byteAt pos = s.localChunk.byteAt pos := by
    intro pos hpos
    by_cases hpos' : pos < s.offset
    · rw [hCopied.below pos hpos', hBelow pos hpos']
    · have hThere := hInside (pos - s.offset) (by omega)
      rwa [Nat.add_sub_cancel' (by omega)] at hThere
  refine ⟨hAll, fun pos => ?_, hCopied.length_ge, ?_⟩
  · by_cases hpos : pos < s.offset + data.length
    · exact Or.inr (hAll pos hpos)
    · rcases hCopied.above pos (by omega) with hSame | hZero
      · rw [hSame]
        exact hAbove pos
      · exact Or.inl hZero
  · have := hCopied.length_le
    omega

theorem eq_of_below {chunk chunk' : Chunk} (hLength : chunk.length = chunk'.length)
    (hBytes : ∀ pos < chunk.length, chunk.byteAt pos = chunk'.byteAt pos) : chunk = chunk' := by
  refine ext_byteAt hLength fun pos => ?_
  by_cases hpos : pos < chunk.length
  · exact hBytes pos hpos
  · rw [byteAt_of_length_le (by omega), byteAt_of_length_le (by omega)]

variable {flags : ResyncMsgFlags}

theorem resyncMsg_noData (data : List UInt8) (flags : ResyncMsgFlags) :
    (s.resyncMsg data flags).flags.noData = flags.noData := by
  unfold resyncMsg
  split_ifs <;> rfl

theorem Partly.sendEnd (h : s.offset ≠ 0 → s.Partly) (hEnd : s.localChunk.length ≤ s.offset)
    (hData : flags.noData = false) :
    processIncoming (s.resyncMsg [] flags) s.buddyChunk = s.localChunk := by
  by_cases hShrunk : s.localChunk.length < s.offset
  · have hMsg : s.resyncMsg [] flags = ⟨[], s.localChunk.length, flags⟩ := by
      unfold resyncMsg
      rw [if_pos (Or.inl rfl), if_pos hShrunk]
    have hPartly := h (by omega)
    have hLength := hPartly.shrunk.resolve_left (by omega)
    have hBase : (if s.localChunk.length = 0 then [] else s.buddyChunk : Chunk) = s.localChunk := by
      split_ifs with hEmpty
      · exact (eq_nil_of_length_eq_zero hEmpty).symm
      · exact eq_of_below hLength fun pos hpos => hPartly.below pos (by omega)
    rw [hMsg, processIncoming_nil _ hData rfl]
    rw [hBase, ftruncate_length, ite_self]
  · by_cases hFirst : s.offset = 0
    · have hMsg : s.resyncMsg [] flags = ⟨[], 0, flags⟩ := by
        unfold resyncMsg
        rw [if_pos (Or.inl rfl), if_neg hShrunk,
          if_neg (not_and.mpr fun hNew => absurd hFirst hNew),
          hFirst]
      have hEmpty : s.localChunk = [] := eq_nil_of_length_eq_zero (by omega)
      rw [hMsg, processIncoming_nil _ hData rfl, hEmpty]
      exact ite_self _
    · have hMsg : s.resyncMsg [] flags = ⟨[], s.offset, { flags with trunc := true }⟩ := by
        unfold resyncMsg
        rw [if_pos (Or.inl rfl), if_neg hShrunk, if_pos ⟨hFirst, rfl⟩]
      rw [hMsg, processIncoming_nil _ hData rfl]
      dsimp only
      rw [Bool.or_true, if_pos rfl, if_neg hFirst]
      refine eq_of_below ?_ fun pos hpos => ?_
      · rw [length_ftruncate]
        omega
      · rw [length_ftruncate] at hpos
        rw [byteAt_ftruncate, if_pos hpos]
        exact (h hFirst).below pos hpos

section

variable (h : s.Inv) (hRunning : s.finished = false)
  (hFlags : flags.trunc = s.resyncMsgFlags.trunc)
  (hData : flags.noData = s.resyncMsgFlags.noData)
include h hRunning hFlags hData

theorem Inv.skip (hOffset : s.offset ≠ 0)
    (hFull : (s.localChunk.pread s.maxCount s.offset).length = s.maxCount)
    (hZero : ∀ i, (s.localChunk.pread s.maxCount s.offset).getD i 0 = 0) :
    Inv { s with
      resyncMsgFlags := flags
      offset := s.offset + (s.localChunk.pread s.maxCount s.offset).length } := by
  have hPartly := h.partly hRunning hOffset
  have hLength := length_pread s.localChunk s.offset s.maxCount
  have hBytes := fun i => s.getD_data (i := i)
  generalize s.localChunk.pread s.maxCount s.offset = data at *
  refine ⟨fun hDone => ?_, fun _ => hFlags.trans (h.trunc hRunning),
    fun hCount => hData.trans (h.noData hCount), fun hCount => ?_, fun _ _ => ?_⟩
  · rw [show s.finished = true from hDone] at hRunning
    cases hRunning
  · exact absurd (h.nothing hCount) hOffset
  · refine ⟨fun pos hpos => ?_, hPartly.above, hPartly.length_le, Or.inl ?_⟩
    · by_cases hpos' : pos < s.offset
      · exact hPartly.below pos hpos'
      · have hNew : pos - s.offset < data.length := by
          have : pos < s.offset + data.length := hpos
          omega
        have hHere := (hBytes _ hNew).symm.trans (hZero _)
        rw [Nat.add_sub_cancel' (by omega)] at hHere
        show s.buddyChunk.byteAt pos = s.localChunk.byteAt pos
        rcases hPartly.above pos with hHole | hEqual
        · rw [hHole, hHere]
        · exact hEqual
    · show s.offset + data.length ≤ s.localChunk.length
      have hCount : s.maxCount ≠ 0 := fun hCount => hOffset (h.nothing hCount)
      omega

theorem Inv.sendData (hSome : s.localChunk.pread s.maxCount s.offset ≠ []) :
    Inv { s with
      buddyChunk := processIncoming
        (s.resyncMsg (s.localChunk.pread s.maxCount s.offset) flags) s.buddyChunk
      resyncMsgFlags := (s.resyncMsg (s.localChunk.pread s.maxCount s.offset) flags).flags
      offset := (s.resyncMsg (s.localChunk.pread s.maxCount s.offset) flags).offset +
        (s.localChunk.pread s.maxCount s.offset).length
      finished := decide ((s.localChunk.pread s.maxCount s.offset).length ≠ s.maxCount) } := by
  have hLength := length_pread s.localChunk s.offset s.maxCount
  have hPos := length_pos_iff.mpr hSome
  have hCount : s.maxCount ≠ 0 := by omega
  have hMsg : s.resyncMsg (s.localChunk.pread s.maxCount s.offset) flags =
      ⟨s.localChunk.pread s.maxCount s.offset, s.offset, flags⟩ := by
    unfold resyncMsg
    rw [if_neg (c := s.localChunk.length < s.offset) (by omega),
      if_neg (c := s.offset ≠ 0 ∧ _) fun hEnd => hSome hEnd.2, ite_self]
  rw [hMsg]
  have hCopied := Copied.processIncoming
    ⟨s.localChunk.pread s.maxCount s.offset, s.offset, flags⟩ s.buddyChunk
    (hData.trans (h.noData hCount)) (hFlags.trans (h.trunc hRunning)) hSome
  obtain ⟨hBelow, hAbove, hGe, hLe⟩ := Partly.copied (h.partly hRunning) hCopied
  generalize processIncoming ⟨s.localChunk.pread s.maxCount s.offset, s.offset, flags⟩
    s.buddyChunk = buddyChunk at *
  generalize s.localChunk.pread s.maxCount s.offset = data at *
  refine ⟨fun hDone => ?_, fun _ => hFlags.trans (h.trunc hRunning),
    fun _ => hData.trans (h.noData hCount), fun hNone => absurd hNone hCount, fun _ _ => ?_⟩
  · have hShort : data.length ≠ s.maxCount := of_decide_eq_true hDone
    show buddyChunk = s.localChunk
    refine eq_of_below (by omega) fun pos hpos => hBelow pos (by omega)
  · exact ⟨hBelow, hAbove, show buddyChunk.length ≤ s.localChunk.length by omega,
      Or.inl (show s.offset + data.length ≤ s.localChunk.length by omega)⟩

theorem Inv.sendEnd (hNil : s.localChunk.pread s.maxCount s.offset = []) :
    Inv { s with
      buddyChunk := processIncoming (s.resyncMsg [] flags) s.buddyChunk
      resyncMsgFlags := (s.resyncMsg [] flags).flags
      offset := (s.resyncMsg [] flags).offset + ([] : List UInt8).length
      finished := decide (([] : List UInt8).length ≠ s.maxCount) } := by
  have hLength := length_pread s.localChunk s.offset s.maxCount
  rw [hNil, length_nil] at hLength
  by_cases hCount : s.maxCount = 0
  · have hOffset := h.nothing hCount
    have hMsg : s.resyncMsg [] flags = ⟨[], 0, flags⟩ := by
      unfold resyncMsg
      rw [hOffset, if_neg (c := s.localChunk.length < 0) (by omega),
        if_neg (c := (0 : Nat) ≠ 0 ∧ _) (by simp), ite_self]
    rw [hMsg]
    refine ⟨fun hDone => ?_, fun _ => hFlags.trans (h.trunc hRunning),
      fun hSome => absurd hCount hSome, fun _ => rfl, fun _ hNew => absurd rfl hNew⟩
    exact absurd hCount.symm (of_decide_eq_true hDone)
  · have hData' := hData.trans (h.noData hCount)
    rw [Partly.sendEnd (h.partly hRunning) (by omega) hData']
    have hDone : decide (([] : List UInt8).length ≠ s.maxCount) = true :=
      decide_eq_true (Ne.symm hCount)
    refine ⟨fun _ => rfl, fun hNot => ?_, fun _ => (resyncMsg_noData _ _).trans hData',
      fun hNone => absurd hNone hCount, fun hNot => ?_⟩
    · exact absurd (hDone.symm.trans hNot) (by simp)
    · exact absurd (hDone.symm.trans hNot) (by simp)

end

theorem Inv.iteration (h : s.Inv) (hRunning : s.finished = false) : s.iteration.Inv := by
  unfold ChunkResync.iteration
  dsimp only
  obtain ⟨dataFound, hFound⟩ : ∃ dataFound, dataFound = (findData
      (s.localChunk.pread s.maxCount s.offset).length
      (s.localChunk.pread s.maxCount s.offset) false).1 := ⟨_, rfl⟩
  rw [← hFound]
  split_ifs with hSkip
  · obtain ⟨hOffset, -, hFull, hNone⟩ := hSkip
    exact h.skip hRunning rfl rfl hOffset hFull
      (getD_of_findData (le_rfl) (hFound.symm.trans hNone))
  · by_cases hNil : s.localChunk.pread s.maxCount s.offset = []
    · simp only [hNil]
      exact h.sendEnd hRunning rfl rfl hNil
    · exact h.sendData hRunning rfl rfl hNil

theorem Partly.modify (h : s.Partly) (op : ChunkOp) :
    Partly { s with localChunk := op.apply s.localChunk, buddyChunk := op.apply s.buddyChunk } := by
  cases op with
  | write data offset =>
    have hBytes := fun (chunk : Chunk) pos => byteAt_pwrite chunk data offset pos
    have hLengths : (s.buddyChunk.pwrite data offset).length ≤
          (s.localChunk.pwrite data offset).length ∧
        (s.offset ≤ (s.localChunk.pwrite data offset).length ∨
          (s.buddyChunk.pwrite data offset).length =
            (s.localChunk.pwrite data offset).length) := by
      have hLe := h.length_le
      have hShrunk := h.shrunk
      by_cases hData : data = []
      · rw [hData]
        exact ⟨hLe, hShrunk⟩
      · rw [length_pwrite _ _ _ hData, length_pwrite _ _ _ hData]
        omega
    refine ⟨fun pos hpos => ?_, fun pos => ?_, hLengths.1, hLengths.2⟩
    · show (s.buddyChunk.pwrite data offset).byteAt pos =
        (s.localChunk.pwrite data offset).byteAt pos
      rw [hBytes, hBytes, h.below pos hpos]
    · show (s.buddyChunk.pwrite data offset).byteAt pos = 0 ∨
        (s.buddyChunk.pwrite data offset).byteAt pos = (s.localChunk.pwrite data offset).byteAt pos
      rw [hBytes, hBytes]
      split_ifs
      · exact Or.inr rfl
      · exact h.above pos
  | truncate length =>
    have hBytes := fun (chunk : Chunk) pos => byteAt_ftruncate chunk pos length
    have hLength := fun chunk : Chunk => length_ftruncate chunk length
    refine ⟨fun pos hpos => ?_, fun pos => ?_, ?_, Or.inr ?_⟩
    · show (s.buddyChunk.ftruncate length).byteAt pos = (s.localChunk.ftruncate length).byteAt pos
      rw [hBytes, hBytes, h.below pos hpos]
    · show (s.buddyChunk.ftruncate length).byteAt pos = 0 ∨
        (s.buddyChunk.ftruncate length).byteAt pos = (s.localChunk.ftruncate length).byteAt pos
      rw [hBytes, hBytes]
      split_ifs
      · exact h.above pos
      · exact Or.inl rfl
    · show (s.buddyChunk.ftruncate length).length ≤ (s.localChunk.ftruncate length).length
      exact le_of_eq ((hLength _).trans (hLength _).symm)
    · show (s.buddyChunk.ftruncate length).length = (s.localChunk.ftruncate length).length
      rw [hLength, hLength]

theorem Inv.step (h : s.Inv) (op : Option ChunkOp) : (s.step op).Inv := by
  cases op with
  | none =>
    unfold ChunkResync.step
    split_ifs with hDone
    · exact h
    · exact h.iteration (by simpa using hDone)
  | some op =>
    refine ⟨fun hDone => ?_, h.trunc, h.noData, h.nothing, fun hRunning hOffset => ?_⟩
    · exact congrArg op.apply (h.finished hDone)
    · exact (h.partly hRunning hOffset).modify op

theorem Inv.start (syncBlockSize : Nat) (onlyAttribs : Bool) (localChunk buddyChunk : Chunk) :
    (start syncBlockSize onlyAttribs localChunk buddyChunk).Inv := by
  refine ⟨fun hDone => ?_, fun _ => rfl, fun hCount => ?_, fun _ => rfl,
    fun _ hNew => absurd rfl hNew⟩
  · cases hDone
  · cases onlyAttribs with
    | false => rfl
    | true => exact absurd rfl hCount

/-! ## The end of the resync -/

theorem iteration_progress (hCount : s.maxCount ≠ 0) (hRunning : s.finished = false) :
    s.iteration.finished = true ∨ s.iteration.finished = false ∧
      s.iteration.maxCount = s.maxCount ∧ s.iteration.localChunk = s.localChunk ∧
      s.iteration.offset = s.offset + s.maxCount ∧ s.iteration.offset ≤ s.localChunk.length := by
  have hLength := length_pread s.localChunk s.offset s.maxCount
  by_cases hFull : (s.localChunk.pread s.maxCount s.offset).length = s.maxCount
  · right
    have hMsg : ∀ flags, (s.resyncMsg (s.localChunk.pread s.maxCount s.offset) flags).offset =
        s.offset := by
      intro flags
      unfold resyncMsg
      rw [if_neg]
      rintro (hNil | hShort)
      · rw [hNil] at hFull
        exact hCount hFull.symm
      · omega
    unfold iteration
    dsimp only
    split_ifs
    · dsimp only
      exact ⟨hRunning, rfl, rfl, by rw [hFull], by omega⟩
    · dsimp only
      rw [hMsg]
      exact ⟨decide_eq_false (not_not.mpr hFull), rfl, rfl, by rw [hFull], by omega⟩
  · left
    unfold iteration
    dsimp only
    rw [if_neg fun hSkip => hFull hSkip.2.2.1]
    exact decide_eq_true hFull

/-- The loop ends if no other request comes in between. -/
theorem exists_finished (hCount : s.maxCount ≠ 0) :
    ∃ k, (after step s (replicate k none)).finished = true := by
  generalize hRest : s.localChunk.length - s.offset = rest
  induction rest using Nat.strongRecOn generalizing s with
  | ind rest ih =>
    cases hRunning : s.finished with
    | true => exact ⟨0, hRunning⟩
    | false =>
      have hStep : s.step none = s.iteration := by
        unfold step
        rw [hRunning, if_neg (by simp)]
      rcases iteration_progress hCount hRunning with hDone |
          ⟨-, hMax, hLocal, hOffset, hBound⟩
      · exact ⟨1, by rw [replicate_one, after_cons, hStep]; exact hDone⟩
      · obtain ⟨k, hk⟩ := ih (s.iteration.localChunk.length - s.iteration.offset)
          (by rw [hLocal]; omega) (hMax ▸ hCount) rfl
        exact ⟨k + 1, by rw [replicate_succ, after_cons, hStep]; exact hk⟩

theorem exists_finished_twoBlocks :
    ∃ k, (after step (start 4 false [1, 2, 3, 4, 5] []) (replicate k none)).finished = true :=
  exists_finished (by decide)

/-- When the resync has finished, whatever modifications came before, between and after its
iterations, the chunks are equal. -/
theorem eq_of_finished (syncBlockSize : Nat) (onlyAttribs : Bool) (localChunk buddyChunk : Chunk)
    (ops : List (Option ChunkOp))
    (hFinished : (Run.after ChunkResync.step
      (start syncBlockSize onlyAttribs localChunk buddyChunk) ops).finished = true) :
    (Run.after ChunkResync.step (start syncBlockSize onlyAttribs localChunk buddyChunk)
        ops).buddyChunk =
      (Run.after ChunkResync.step (start syncBlockSize onlyAttribs localChunk buddyChunk)
        ops).localChunk := by
  have hAll : EveryStep step (fun _ _ => True)
      (start syncBlockSize onlyAttribs localChunk buddyChunk) ops :=
    everyStep_of_forall _ fun _ _ _ => trivial
  have hInv := after_invariant step (I := Inv) (fun s op hs _ => hs.step op)
    (Inv.start syncBlockSize onlyAttribs localChunk buddyChunk) hAll
  exact hInv.finished hFinished

theorem eq_of_finished_shrunk :
    let ops := [some (.write [1, 2, 3, 0, 0, 6] 0), none, some (.truncate 2), some (.write [5] 7)]
    (after step (start 4096 false [9] [8, 8, 8, 8, 8, 8, 8, 8, 8, 8])
        ops).buddyChunk =
      (after step (start 4096 false [9] [8, 8, 8, 8, 8, 8, 8, 8, 8, 8]) ops).localChunk :=
  eq_of_finished 4096 false [9] [8, 8, 8, 8, 8, 8, 8, 8, 8, 8] _ (by decide)

end ChunkResync

end Fhgfs.Resync
