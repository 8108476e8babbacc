import Fhgfs.Client.CacheBuffer

/-!
# The file behind a buffer

A buffered write is a write that the servers have not got yet. The view of an inode is the file
with the write in its buffer applied, and it is what the calls are specified by: a flush leaves
the view alone, also if the servers stored some part of the buffer at its offset, and a write
changes the view as it would change a file without any buffer.
-/

namespace Fhgfs.Client

open SparseFile Option

variable (file : SparseFile UInt8)

/-- A write to a file, or an append to it. -/
def applyWrite (data : List UInt8) (offset : Option Nat) : SparseFile UInt8 :=
  file.pwrite data (offset.getD file.length)

variable (inode : CachedInode)

/-- The file with the buffered write applied. -/
def CachedInode.view : SparseFile UInt8 :=
  match inode.cacheBuffer with
  | .WRITE buf _ fileOffset => applyWrite inode.file buf fileOffset
  | _ => inode.file

theorem applyWrite_goesOn (buf data : List UInt8) (fileOffset : Option Nat) :
    applyWrite (applyWrite file buf fileOffset) data (fileOffset.map (· + buf.length)) =
      applyWrite file (buf ++ data) fileOffset := by
  unfold applyWrite
  cases fileOffset with
  | none =>
    rw [map_none, getD_none, getD_none, length_pwrite_length]
    exact pwrite_pwrite_next _ _ _ _
  | some offset => exact pwrite_pwrite_next _ _ _ _

theorem view_of_none {inode : CachedInode} (h : inode.cacheBuffer = .NONE) :
    inode.view = inode.file := by
  unfold CachedInode.view
  rw [h]

/-! ## Remote writes -/

section

variable (data : List UInt8) (offset : Option Nat)

theorem writefileEx_lt (write : RemoteWrite) :
    (writefileEx file data offset write).1 < data.length ↔ write ≠ .complete := by
  cases write with
  | complete => simp [writefileEx]
  | incomplete writeRes stored =>
    have hShort : min writeRes ((data.length : Int) - 1) < data.length := by omega
    exact ⟨fun _ => nofun, fun _ => hShort⟩

end

/-- The parts of a positioned write that were stored are hidden by the whole write. -/
theorem applyWrite_writefileEx (data : List UInt8) (offset : Nat) (write : RemoteWrite) :
    applyWrite (writefileEx file data (some offset) write).2 data (some offset) =
      applyWrite file data (some offset) := by
  cases write with
  | complete => exact pwrite_pwrite_within _ _ _ (le_rfl) (le_rfl)
  | incomplete writeRes stored => exact pwrite_pwriteSome_within _ _ (le_rfl) (le_rfl)

/-! ## Flushes -/

/-- The outcomes of a flush by which nothing is written twice or given up: an incomplete flush
reports an error or some bytes, and one of an append has stored nothing. -/
def FlushesCleanly (cacheBuffer : CacheBuffer) (flush : RemoteWrite) : Prop :=
  match cacheBuffer, flush with
  | .WRITE buf _ fileOffset, .incomplete writeRes stored =>
    (buf ≠ [] → min writeRes (buf.length - 1) ≠ 0) ∧
      (fileOffset = none → ∀ k < buf.length, stored k = false)
  | _, _ => True

theorem flushesCleanly_complete (cacheBuffer : CacheBuffer) :
    FlushesCleanly cacheBuffer .complete := by
  cases cacheBuffer <;> trivial

theorem flush_incomplete (buf : List UInt8) (bufUsageMaxLen : Nat)
    (fileOffset : Option Nat) (writeRes : Int) (stored : Nat → Bool) :
    flushCacheUnlocked ⟨file, .WRITE buf bufUsageMaxLen fileOffset⟩ false
        (.incomplete writeRes stored) =
      ⟨if min writeRes ((buf.length : Int) - 1) > 0 then FhgfsOpsErr.NOSPACE.code
        else -min writeRes ((buf.length : Int) - 1), [],
        ⟨(writefileEx file buf fileOffset (.incomplete writeRes stored)).2,
          .WRITE buf bufUsageMaxLen fileOffset⟩⟩ :=
  if_pos ((writefileEx_lt file buf fileOffset (.incomplete writeRes stored)).mpr nofun)

theorem flush_complete (discardCacheOnError : Bool) :
    flushCacheUnlocked inode discardCacheOnError .complete =
      ⟨FhgfsOpsErr.SUCCESS.code, [], ⟨inode.view, .NONE⟩⟩ := by
  obtain ⟨file, cacheBuffer⟩ := inode
  cases cacheBuffer with
  | NONE => rfl
  | READ buf fileOffset => rfl
  | WRITE buf bufUsageMaxLen fileOffset =>
    exact if_neg (lt_irrefl (buf.length : Int))

theorem flush_nonneg (flush : RemoteWrite) : 0 ≤ (flushCacheUnlocked inode false flush).retVal := by
  cases flush with
  | complete => exact (congrArg CachedResult.retVal (flush_complete inode false)).ge
  | incomplete writeRes stored =>
    obtain ⟨file, cacheBuffer⟩ := inode
    cases cacheBuffer with
    | NONE => exact le_rfl
    | READ buf fileOffset => exact le_rfl
    | WRITE buf bufUsageMaxLen fileOffset =>
      rw [flush_incomplete]
      dsimp only
      split
      · exact Int.natCast_nonneg _
      · omega

section

variable {inode : CachedInode} {flush : RemoteWrite} (h : FlushesCleanly inode.cacheBuffer flush)
include h

theorem flush_view : (flushCacheUnlocked inode false flush).inode.view = inode.view := by
  cases flush with
  | complete =>
    rw [flush_complete]
    rfl
  | incomplete writeRes stored =>
    obtain ⟨file, cacheBuffer⟩ := inode
    cases cacheBuffer with
    | NONE => rfl
    | READ buf fileOffset => rfl
    | WRITE buf bufUsageMaxLen fileOffset =>
      rw [flush_incomplete]
      cases fileOffset with
      | none =>
        have hNothing : (writefileEx file buf none (.incomplete writeRes stored)).2 = file :=
          pwriteSome_none (h.2 rfl) _ _
        rw [hNothing]
      | some offset => exact applyWrite_writefileEx _ _ _ _

theorem flush_success
    (hSuccess : (flushCacheUnlocked inode false flush).retVal = FhgfsOpsErr.SUCCESS.code) :
    (flushCacheUnlocked inode false flush).inode = ⟨inode.view, .NONE⟩ := by
  cases flush with
  | complete => exact congrArg CachedResult.inode (flush_complete inode false)
  | incomplete writeRes stored =>
    obtain ⟨file, cacheBuffer⟩ := inode
    cases cacheBuffer with
    | NONE => rfl
    | READ buf fileOffset => rfl
    | WRITE buf bufUsageMaxLen fileOffset =>
      rw [flush_incomplete] at hSuccess
      have hCode : (if 0 < min writeRes ((buf.length : Int) - 1) then FhgfsOpsErr.NOSPACE.code
          else -min writeRes ((buf.length : Int) - 1)) = 0 := hSuccess
      have hZero : min writeRes ((buf.length : Int) - 1) = 0 := by
        split at hCode
        · cases hCode
        · omega
      have hSome : buf ≠ [] := by
        rintro rfl
        rw [List.length_nil] at hZero
        omega
      exact absurd hZero (h.1 hSome)

end

/-! ## Writes -/

/-- Everything a call needs from outside goes well. -/
structure CallOutcomes.Complete (outcomes : CallOutcomes) : Prop where
  flush : outcomes.flush = .complete
  write : outcomes.write = .complete
  headRead : outcomes.headRead = .complete
  read : outcomes.read = .complete
  copied : outcomes.copyFailed = false
  newBufCopied : outcomes.newBufCopyFailed = false

/-- Everything goes well, and buffers are to be had. -/
def completeOutcomes : CallOutcomes where
  isFileOpenByMultipleReaders := false
  isFileOpenByMultipleReadersLocked := false
  instantBuf := true
  copyFailed := false
  newBufCopyFailed := false
  flush := .complete
  write := .complete
  headRead := .complete
  read := .complete

theorem completeOutcomes_complete : completeOutcomes.Complete := ⟨rfl, rfl, rfl, rfl, rfl, rfl⟩

/-- A handle that has just been opened. -/
def openedFileInfo : FsFileInfo where
  cacheHits := 3
  allowCaching := true
  lastReadOffset := 0
  lastWriteOffset := 0

/-- What a write that returns a value may make of a file: a full result stands for the whole
write, and any other one for nothing, or for what the servers made of a write through. -/
inductive WriteEffect (data : List UInt8) (offset : Option Nat) (outcomes : CallOutcomes) :
    Int → SparseFile UInt8 → SparseFile UInt8 → Prop
  | full (file : SparseFile UInt8) :
    WriteEffect data offset outcomes data.length file (applyWrite file data offset)
  | nothing {retVal : Int} (file : SparseFile UInt8) (hShort : retVal ≠ data.length)
    (hFailed : ¬outcomes.Complete) : WriteEffect data offset outcomes retVal file file
  | part (file : SparseFile UInt8)
    (hShort : (writefileEx file data offset outcomes.write).1 ≠ data.length)
    (hFailed : ¬outcomes.Complete) :
    WriteEffect data offset outcomes (writefileEx file data offset outcomes.write).1 file
      (writefileEx file data offset outcomes.write).2

theorem WriteEffect.of_complete {data : List UInt8} {offset : Option Nat}
    {outcomes : CallOutcomes} {retVal : Int} {file file' : SparseFile UInt8}
    (h : WriteEffect data offset outcomes retVal file file') (hComplete : outcomes.Complete) :
    retVal = data.length ∧ file' = applyWrite file data offset := by
  cases h with
  | full => exact ⟨rfl, rfl⟩
  | nothing _ _ hFailed | part _ _ hFailed => exact absurd hComplete hFailed

theorem writeThrough_effect (data : List UInt8) (offset : Option Nat) (outcomes : CallOutcomes) :
    WriteEffect data offset outcomes (writefileEx file data offset outcomes.write).1 file
      (writefileEx file data offset outcomes.write).2 := by
  by_cases hWrite : outcomes.write = .complete
  · rw [hWrite]
    exact .full file
  · have hLess := (writefileEx_lt file data offset outcomes.write).mpr hWrite
    exact .part file (ne_of_lt hLess) fun hComplete => hWrite hComplete.write

section Calls

variable {pattern : StripePattern} {bufSize : Nat}

theorem neg_flush_ne_length {inode : CachedInode} {flush : RemoteWrite}
    (h : (flushCacheUnlocked inode false flush).retVal ≠ FhgfsOpsErr.SUCCESS.code)
    (data : List UInt8) : -(flushCacheUnlocked inode false flush).retVal ≠ data.length := by
  have hNonneg := flush_nonneg inode flush
  have hNotZero : (flushCacheUnlocked inode false flush).retVal ≠ 0 := h
  omega

theorem addressFault_ne_length (data : List UInt8) :
    -FhgfsOpsErr.ADDRESSFAULT.code ≠ data.length := by
  have hPositive : 0 < FhgfsOpsErr.ADDRESSFAULT.code := by decide
  omega

theorem writeCacheFlushed_effect {inode : CachedInode} (hNone : inode.cacheBuffer = .NONE)
    (fileInfo : FsFileInfo) (data : List UInt8) (offset : Option Nat) (outcomes : CallOutcomes) :
    WriteEffect data offset outcomes
      (writeCacheFlushed pattern bufSize inode fileInfo data offset outcomes).retVal inode.view
      (writeCacheFlushed pattern bufSize inode fileInfo data offset outcomes).inode.view := by
  have hThrough : WriteEffect data offset outcomes
      (writefileEx inode.file data offset outcomes.write).1 inode.file
      (CachedInode.view
        { inode with file := (writefileEx inode.file data offset outcomes.write).2 }) := by
    rw [view_of_none (by exact hNone)]
    exact writeThrough_effect inode.file data offset outcomes
  rw [view_of_none hNone]
  unfold writeCacheFlushed
  split
  · exact hThrough
  split
  · exact hThrough
  split
  · exact hThrough
  split
  next hFailed =>
    apply WriteEffect.nothing _ (addressFault_ne_length data)
    intro hComplete
    exact nomatch hComplete.newBufCopied.symm.trans hFailed
  next => exact .full inode.file

theorem writeAfterFlush_effect {inode : CachedInode} {outcomes : CallOutcomes}
    (h : FlushesCleanly inode.cacheBuffer outcomes.flush) (fileInfo : FsFileInfo)
    (data : List UInt8) (offset : Option Nat) {result : CachedResult}
    (hFailed : (flushCacheUnlocked inode false outcomes.flush).retVal ≠ FhgfsOpsErr.SUCCESS.code →
      result = ⟨-(flushCacheUnlocked inode false outcomes.flush).retVal, [],
        (flushCacheUnlocked inode false outcomes.flush).inode⟩)
    (hFlushed : (flushCacheUnlocked inode false outcomes.flush).retVal = FhgfsOpsErr.SUCCESS.code →
      result = writeCacheFlushed pattern bufSize
        (flushCacheUnlocked inode false outcomes.flush).inode fileInfo data offset outcomes) :
    WriteEffect data offset outcomes result.retVal inode.view result.inode.view := by
  by_cases hRes : (flushCacheUnlocked inode false outcomes.flush).retVal = FhgfsOpsErr.SUCCESS.code
  · have hEmpty := flush_success h hRes
    rw [hFlushed hRes, hEmpty]
    exact writeCacheFlushed_effect rfl fileInfo data offset outcomes
  rw [hFailed hRes]
  rw [flush_view h]
  apply WriteEffect.nothing _ (neg_flush_ne_length hRes data)
  intro hComplete
  rw [hComplete.flush, flush_complete] at hRes
  exact hRes rfl

/-- The outcomes of a write by which the data are neither lost nor written twice. If the write
has filled the buffer, the data are in it already when the flush fails. -/
def WritesCleanly (inode : CachedInode) (data : List UInt8) (offset : Option Nat)
    (outcomes : CallOutcomes) : Prop :=
  match inode.cacheBuffer with
  | .WRITE buf bufUsageMaxLen fileOffset =>
    if goesOn buf bufUsageMaxLen fileOffset data.length offset then
      outcomes.copyFailed = false → bufUsageMaxLen ≤ (buf ++ data).length →
        outcomes.flush = .complete
    else FlushesCleanly inode.cacheBuffer outcomes.flush
  | _ => True

theorem writesCleanly_of_complete {outcomes : CallOutcomes} (h : outcomes.Complete)
    (inode : CachedInode) (data : List UInt8) (offset : Option Nat) :
    WritesCleanly inode data offset outcomes := by
  unfold WritesCleanly
  rw [h.flush]
  split
  · split
    · exact fun _ _ => rfl
    · exact flushesCleanly_complete _
  · trivial

section

variable {inode : CachedInode}

theorem writeCached_effect {data : List UInt8} {offset : Option Nat}
    {outcomes : CallOutcomes} (h : WritesCleanly inode data offset outcomes)
    (fileInfo : FsFileInfo) :
    WriteEffect data offset outcomes
      (writeCached pattern bufSize inode fileInfo data offset outcomes).1.retVal inode.view
      (writeCached pattern bufSize inode fileInfo data offset outcomes).1.inode.view := by
  obtain ⟨file, cacheBuffer⟩ := inode
  cases cacheBuffer with
  | NONE | READ buf fileOffset => exact writeCacheFlushed_effect rfl _ data offset outcomes
  | WRITE buf bufUsageMaxLen fileOffset =>
    unfold WritesCleanly at h
    unfold writeCached
    dsimp only at h ⊢
    split at h
    next hGoesOn =>
      have hOffset : offset = fileOffset.map (· + buf.length) := (of_decide_eq_true hGoesOn).1
      have hExtended := @WriteEffect.full data offset outcomes (applyWrite file buf fileOffset)
      rw [if_neg (not_not.mpr hGoesOn)]
      split
      next hFailed =>
        apply WriteEffect.nothing _ (addressFault_ne_length data)
        intro hComplete
        exact nomatch hComplete.copied.symm.trans hFailed
      next hCopied =>
      rw [hOffset, applyWrite_goesOn, ← hOffset] at hExtended
      split
      next hFull =>
        rw [h (eq_false_of_ne_true hCopied) (Nat.le_of_sub_eq_zero hFull), flush_complete,
          if_neg (not_not.mpr rfl)]
        exact hExtended
      next => exact hExtended
    next hFlush =>
      rw [if_pos hFlush]
      apply writeAfterFlush_effect h fileInfo.decCacheHits data offset
      · intro hRes
        rw [if_pos hRes]
      · intro hRes
        rw [if_neg (not_not.mpr hRes)]

/-! ## Reads -/

theorem readCacheFlushed_view (hNone : inode.cacheBuffer = .NONE)
    (fileInfo : FsFileInfo) (size offset : Nat) (outcomes : CallOutcomes) :
    (readCacheFlushed pattern bufSize inode fileInfo size offset outcomes).inode.view =
      inode.file := by
  have hView := view_of_none hNone
  unfold readCacheFlushed
  dsimp only
  split
  · exact hView
  split
  · exact hView
  split
  · exact hView
  split
  · rfl
  split
  · rfl
  · rfl

theorem readOverlapping_view {buf : List UInt8} {fileOffset : Nat}
    (hRead : inode.cacheBuffer = .READ buf fileOffset) (fileInfo : FsFileInfo)
    (size offset : Nat) (outcomes : CallOutcomes) :
    (readOverlapping pattern bufSize inode fileInfo buf fileOffset size offset
      outcomes).inode.view = inode.file := by
  have hView : inode.view = inode.file := by
    unfold CachedInode.view
    rw [hRead]
  unfold readOverlapping
  dsimp only
  split
  · rfl
  split
  · exact hView
  split
  · split <;> exact readCacheFlushed_view rfl _ _ _ _
  · exact hView

/-- A read leaves the view of the inode alone, whatever the servers and the caller do. -/
theorem readCached_view {outcomes : CallOutcomes}
    (h : FlushesCleanly inode.cacheBuffer outcomes.flush) (fileInfo : FsFileInfo)
    (size offset : Nat) :
    (readCached pattern bufSize inode fileInfo size offset outcomes).1.inode.view = inode.view := by
  unfold readCached
  split
  · rfl
  obtain ⟨file, cacheBuffer⟩ := inode
  cases cacheBuffer with
  | NONE => exact readCacheFlushed_view rfl _ _ _ _
  | READ buf fileOffset =>
    unfold readCachedLocked
    dsimp only
    split
    · exact readCacheFlushed_view rfl _ _ _ _
    · exact readOverlapping_view rfl _ _ _ _
  | WRITE buf bufUsageMaxLen fileOffset =>
    unfold readCachedLocked
    dsimp only
    split
    next => exact flush_view h
    next hRes =>
      dsimp only
      rw [flush_success h (not_not.mp hRes), readCacheFlushed_view rfl]

end

end Calls

end Fhgfs.Client
