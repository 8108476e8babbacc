import Fhgfs.Client.CacheView
import Fhgfs.Lib.Run

/-!
# The buffer is transparent

If everything goes well, the calls answer as those for a file without any buffer do. What is
read ahead is a piece of the file, because a write throws it away. The memory of a buffer is
never overrun, whatever happens, if it is at least as large as the first piece that is read
ahead.
-/

namespace Fhgfs.Client

open SparseFile List CachedResult

section Calls

variable {pattern : StripePattern} {bufSize : Nat}

/-! ## The memory of a buffer -/

/-- The data fit into a buffer from the store. -/
def CacheBuffer.Fits (bufSize : Nat) : CacheBuffer → Prop
  | .NONE => True
  | .READ buf _ => buf.length ≤ bufSize
  | .WRITE buf bufUsageMaxLen _ => buf.length ≤ bufUsageMaxLen ∧ bufUsageMaxLen ≤ bufSize

variable (inode : CachedInode)

theorem discardCache_fits : inode.discardCache.cacheBuffer.Fits bufSize := trivial

theorem flush_fits {inode : CachedInode} (h : inode.cacheBuffer.Fits bufSize)
    (discardCacheOnError : Bool) (flush : RemoteWrite) :
    (flushCacheUnlocked inode discardCacheOnError flush).inode.cacheBuffer.Fits bufSize := by
  obtain ⟨file, cacheBuffer⟩ := inode
  cases cacheBuffer with
  | NONE => trivial
  | READ buf fileOffset => trivial
  | WRITE buf bufUsageMaxLen fileOffset =>
    unfold flushCacheUnlocked
    dsimp only
    split
    · dsimp only
      split
      · trivial
      · exact h
    · trivial

theorem maxCacheLen_le (offset : Option Nat) : maxCacheLen pattern bufSize offset ≤ bufSize := by
  cases offset with
  | none => exact le_rfl
  | some offset => exact min_le_right _ _

theorem writeCacheFlushed_fits {inode : CachedInode} (h : inode.cacheBuffer.Fits bufSize)
    (fileInfo : FsFileInfo) (data : List UInt8) (offset : Option Nat) (outcomes : CallOutcomes) :
    (writeCacheFlushed pattern bufSize inode fileInfo data offset
      outcomes).inode.cacheBuffer.Fits bufSize := by
  unfold writeCacheFlushed
  split
  · exact h
  split
  · exact h
  next hRoom =>
  split
  · exact h
  split
  · trivial
  · exact ⟨Nat.le_of_not_ge hRoom, maxCacheLen_le offset⟩

theorem length_readfile_le (file : SparseFile UInt8) (size offset : Nat) (read : RemoteRead) :
    (readfile file size offset read).2.length ≤ size := by
  cases read with
  | complete => exact length_pread_le _ _ _
  | failed readRes => exact Nat.zero_le _

theorem readAheadLen_le (hBuf : 65536 ≤ bufSize) (size offset : Nat) :
    readAheadLen pattern bufSize size offset ≤ bufSize := by
  unfold readAheadLen
  split
  · exact hBuf
  · exact maxCacheLen_le _

theorem readCacheFlushed_fits (hBuf : 65536 ≤ bufSize) {inode : CachedInode}
    (h : inode.cacheBuffer.Fits bufSize) (fileInfo : FsFileInfo) (size offset : Nat)
    (outcomes : CallOutcomes) :
    (readCacheFlushed pattern bufSize inode fileInfo size offset
      outcomes).inode.cacheBuffer.Fits bufSize := by
  unfold readCacheFlushed
  dsimp only
  split
  · exact h
  split
  · exact h
  split
  · exact h
  split
  · trivial
  split
  · trivial
  · exact (length_readfile_le _ _ _ _).trans (readAheadLen_le hBuf size offset)

theorem writeCached_fits {inode : CachedInode} (h : inode.cacheBuffer.Fits bufSize)
    (fileInfo : FsFileInfo) (data : List UInt8) (offset : Option Nat) (outcomes : CallOutcomes) :
    (writeCached pattern bufSize inode fileInfo data offset
      outcomes).1.inode.cacheBuffer.Fits bufSize := by
  obtain ⟨file, cacheBuffer⟩ := inode
  cases cacheBuffer with
  | NONE => exact writeCacheFlushed_fits h _ _ _ _
  | READ buf fileOffset => exact writeCacheFlushed_fits (discardCache_fits _) _ _ _ _
  | WRITE buf bufUsageMaxLen fileOffset =>
    unfold writeCached
    dsimp only
    split
    · split
      · exact flush_fits h _ _
      · exact writeCacheFlushed_fits (flush_fits h _ _) _ _ _ _
    next hGoesOn =>
      have hRoom : data.length ≤ bufUsageMaxLen - buf.length :=
        (of_decide_eq_true (not_not.mp hGoesOn)).2
      have hExtended :
          (CacheBuffer.WRITE (buf ++ data) bufUsageMaxLen fileOffset).Fits bufSize := by
        constructor
        · have hBefore := h.1
          rw [length_append]
          omega
        · exact h.2
      split
      · exact h
      split
      · split <;> exact @flush_fits bufSize ⟨file, _⟩ hExtended _ _
      · exact hExtended

section

variable (hBuf : 65536 ≤ bufSize) {inode : CachedInode} (h : inode.cacheBuffer.Fits bufSize)
include hBuf h

theorem readOverlapping_fits (fileInfo : FsFileInfo) (buf : List UInt8)
    (fileOffset size offset : Nat) (outcomes : CallOutcomes) :
    (readOverlapping pattern bufSize inode fileInfo buf fileOffset size offset
      outcomes).inode.cacheBuffer.Fits bufSize := by
  unfold readOverlapping
  dsimp only
  split
  · trivial
  split
  · exact h
  split
  · split <;> exact readCacheFlushed_fits hBuf (discardCache_fits _) _ _ _ _
  · exact h

theorem readCached_fits (fileInfo : FsFileInfo) (size offset : Nat) (outcomes : CallOutcomes) :
    (readCached pattern bufSize inode fileInfo size offset
      outcomes).1.inode.cacheBuffer.Fits bufSize := by
  have hFlushed := flush_fits h false outcomes.flush
  unfold readCached readCachedLocked
  split
  · exact h
  split
  · exact readCacheFlushed_fits hBuf h _ _ _ _
  · dsimp only
    split
    · exact hFlushed
    · exact readCacheFlushed_fits hBuf hFlushed _ _ _ _
  · split
    · dsimp only
      split
      · exact hFlushed
      · exact readCacheFlushed_fits hBuf hFlushed _ _ _ _
    · exact readOverlapping_fits hBuf h _ _ _ _ _ _

theorem perform_fits (call : CachedCall) :
    (call.perform pattern bufSize inode).inode.cacheBuffer.Fits bufSize := by
  cases call with
  | writeCached fileInfo data offset outcomes => exact writeCached_fits h _ _ _ _
  | readCached fileInfo size offset outcomes => exact readCached_fits hBuf h _ _ _ _
  | flushCache discardCacheOnError flush => exact flush_fits h _ _

end

/-! ## What is read ahead -/

/-- The data of a read buffer are a piece of the file. -/
def ReadAhead : Prop :=
  match inode.cacheBuffer with
  | .READ buf fileOffset => ∃ count, buf = inode.file.pread count fileOffset
  | _ => True

/-- A read has got the bytes of a file, and says how many there were. -/
structure CachedResult.ReadFrom (result : CachedResult) (file : SparseFile UInt8)
    (size offset : Nat) : Prop where
  data : result.data = file.pread size offset
  retVal : result.retVal = result.data.length
  readAhead : ReadAhead result.inode

theorem readAhead_of_none {inode : CachedInode} (h : inode.cacheBuffer = .NONE) :
    ReadAhead inode := by
  unfold ReadAhead
  rw [h]
  trivial

theorem le_readAheadLen {size offset : Nat}
    (h : ¬size ≥ maxCacheLen pattern bufSize (some offset)) :
    size ≤ readAheadLen pattern bufSize size offset := by
  unfold readAheadLen
  split <;> omega

theorem readCacheFlushed_complete {inode : CachedInode} (hNone : inode.cacheBuffer = .NONE)
    {outcomes : CallOutcomes} (hComplete : outcomes.Complete) (fileInfo : FsFileInfo)
    (size offset : Nat) :
    (readCacheFlushed pattern bufSize inode fileInfo size offset outcomes).ReadFrom inode.file
      size offset := by
  have hDirect : ReadFrom
      ⟨(readfile inode.file size offset outcomes.read).1,
        (readfile inode.file size offset outcomes.read).2, inode⟩ inode.file size offset := by
    rw [hComplete.read]
    exact ⟨rfl, rfl, readAhead_of_none hNone⟩
  unfold readCacheFlushed
  split
  · exact hDirect
  split
  · exact hDirect
  next hSmall =>
  have hPart := @take_drop_pread _ inode.file offset
    (readAheadLen pattern bufSize size offset) 0 size
    ((zero_add size).le.trans (le_readAheadLen hSmall))
  rw [drop_zero, add_zero] at hPart
  rw [hComplete.read, hComplete.newBufCopied]
  split
  · exact ⟨rfl, rfl, readAhead_of_none hNone⟩
  unfold readfile
  dsimp only
  split
  next hEnd =>
    have hNothing : inode.file.pread (readAheadLen pattern bufSize size offset) offset = [] :=
      eq_nil_of_length_eq_zero (by omega)
    rw [hNothing, take_nil] at hPart
    rw [hNothing]
    exact ⟨hPart, rfl, trivial⟩
  · rw [if_neg Bool.false_ne_true]
    refine ⟨hPart, ?_, _, rfl⟩
    dsimp only
    rw [length_take]
    omega

theorem readHead_complete (fileOffset offset : Nat) :
    readHead inode fileOffset offset .complete =
      (↑(inode.file.pread (fileOffset - offset) offset).length,
        inode.file.pread (fileOffset - offset) offset) := by
  unfold readHead
  split
  · rfl
  next hNotBefore =>
    rw [Nat.sub_eq_zero_of_le (Nat.le_of_not_lt hNotBefore)]
    rfl

section

variable {inode : CachedInode}

/-- The three parts of a read that overlaps with the buffer lie side by side. -/
theorem readOverlapping_complete {fileOffset count : Nat}
    (hRead : inode.cacheBuffer = .READ (inode.file.pread count fileOffset) fileOffset)
    {size offset : Nat}
    (hAfter : ¬fileOffset + (inode.file.pread count fileOffset).length < offset + 1)
    (hBefore : ¬fileOffset + 1 > offset + size) {outcomes : CallOutcomes}
    (hComplete : outcomes.Complete) (fileInfo : FsFileInfo) :
    (readOverlapping pattern bufSize inode fileInfo (inode.file.pread count fileOffset) fileOffset
      size offset outcomes).ReadFrom inode.file size offset := by
  have hAhead : ReadAhead inode := by
    unfold ReadAhead
    rw [hRead]
    exact ⟨count, rfl⟩
  have hLength := length_pread inode.file fileOffset count
  generalize hBuf : inode.file.pread count fileOffset = buf at hAfter hLength ⊢
  unfold readOverlapping
  rw [hComplete.headRead, readHead_complete, hComplete.copied]
  dsimp only
  split
  next hShort =>
    have hNotAll : (inode.file.pread (fileOffset - offset) offset).length ≠
        fileOffset - offset := by omega
    have hSize : size = fileOffset - offset + (size - (fileOffset - offset)) := by omega
    refine ⟨?_, rfl, trivial⟩
    rw [hSize, pread_of_short _ hNotAll]
  next hHead =>
  rw [if_neg Bool.false_ne_true]
  have hHeadLength := length_pread inode.file offset (fileOffset - offset)
  generalize hCopySize :
    min (fileOffset + buf.length) (offset + size) - (fileOffset + (offset - fileOffset)) = copySize
  have hCopied : inode.file.pread (fileOffset - offset) offset ++
        (buf.drop (offset - fileOffset)).take copySize =
      inode.file.pread (fileOffset - offset + copySize) offset := by
    rw [← hBuf, take_drop_pread _ _ (by omega), pread_add]
    congr 2
    omega
  have hCopiedLength := length_pread inode.file offset (fileOffset - offset + copySize)
  have hCopiedAll : (inode.file.pread (fileOffset - offset + copySize) offset).length =
      fileOffset - offset + copySize := by omega
  rw [hCopied]
  split
  next hBehind =>
    have hRest := @readCacheFlushed_complete pattern bufSize inode.discardCache rfl outcomes
      hComplete fileInfo
      (offset + size - (fileOffset + buf.length)) (fileOffset + buf.length)
    have hSize : size =
        fileOffset - offset + copySize + (offset + size - (fileOffset + buf.length)) := by omega
    have hNext : fileOffset + buf.length = offset + (fileOffset - offset + copySize) := by omega
    rw [if_neg (by rw [hRest.retVal]; omega)]
    refine ⟨?_, ?_, hRest.readAhead⟩
    · have hAll := pread_add inode.file offset (fileOffset - offset + copySize)
        (offset + size - (fileOffset + buf.length))
      rw [← hSize, ← hNext] at hAll
      rw [hRest.data]
      exact hAll.symm
    · dsimp only
      rw [hRest.retVal, length_append, hCopiedAll]
      omega
  next hInside =>
    have hSize : size = fileOffset - offset + copySize := by omega
    refine ⟨?_, ?_, hAhead⟩
    · dsimp only
      rw [← hSize]
    · dsimp only
      rw [hCopiedAll, ← hSize]

theorem readCached_complete (hAhead : ReadAhead inode)
    {outcomes : CallOutcomes} (hComplete : outcomes.Complete) (fileInfo : FsFileInfo)
    (size offset : Nat) :
    (readCached pattern bufSize inode fileInfo size offset outcomes).1.ReadFrom inode.view size
      offset := by
  unfold readCached
  split
  next hFast =>
    rw [hComplete.read, view_of_none hFast.2]
    exact ⟨rfl, rfl, hAhead⟩
  next =>
    obtain ⟨file, cacheBuffer⟩ := inode
    cases cacheBuffer with
    | NONE => exact readCacheFlushed_complete rfl hComplete _ size offset
    | WRITE buf bufUsageMaxLen fileOffset =>
      unfold readCachedLocked
      dsimp only
      rw [hComplete.flush, flush_complete, if_neg (not_not.mpr rfl)]
      exact readCacheFlushed_complete rfl hComplete _ size offset
    | READ buf fileOffset =>
      obtain ⟨count, hPiece⟩ : ∃ count, buf = file.pread count fileOffset := hAhead
      subst hPiece
      unfold readCachedLocked
      dsimp only
      split
      next => exact readCacheFlushed_complete rfl hComplete _ size offset
      next hOverlap =>
        obtain ⟨hAfter, hBefore⟩ := not_or.mp hOverlap
        exact @readOverlapping_complete pattern bufSize
          ⟨file, .READ (file.pread count fileOffset) fileOffset⟩ fileOffset count rfl size offset
          hAfter hBefore outcomes hComplete _

theorem writeCacheFlushed_readAhead (hNone : inode.cacheBuffer = .NONE)
    (fileInfo : FsFileInfo) (data : List UInt8) (offset : Option Nat) (outcomes : CallOutcomes) :
    ReadAhead (writeCacheFlushed pattern bufSize inode fileInfo data offset outcomes).inode := by
  unfold writeCacheFlushed
  split
  · exact readAhead_of_none hNone
  split
  · exact readAhead_of_none hNone
  split
  · exact readAhead_of_none hNone
  split
  · exact readAhead_of_none rfl
  · trivial

end

theorem writeCached_readAhead {outcomes : CallOutcomes}
    (hComplete : outcomes.Complete) (fileInfo : FsFileInfo) (data : List UInt8)
    (offset : Option Nat) :
    ReadAhead (writeCached pattern bufSize inode fileInfo data offset outcomes).1.inode := by
  obtain ⟨file, cacheBuffer⟩ := inode
  cases cacheBuffer with
  | NONE | READ buf fileOffset => exact writeCacheFlushed_readAhead rfl _ _ _ _
  | WRITE buf bufUsageMaxLen fileOffset =>
    unfold writeCached
    rw [hComplete.flush, hComplete.copied]
    dsimp only
    split
    · rw [flush_complete, if_neg (not_not.mpr rfl)]
      exact writeCacheFlushed_readAhead rfl _ _ _ _
    rw [if_neg Bool.false_ne_true]
    split
    · rw [flush_complete, if_neg (not_not.mpr rfl)]
      exact readAhead_of_none rfl
    · trivial

/-! ## Runs -/

namespace CachedCall

/-- Everything goes well in a call. -/
def Complete : CachedCall → Prop
  | writeCached _ _ _ outcomes => outcomes.Complete
  | readCached _ _ _ outcomes => outcomes.Complete
  | flushCache _ flush => flush = .complete

/-- What a call makes of a file without any buffer. -/
def applied (file : SparseFile UInt8) : CachedCall → SparseFile UInt8
  | writeCached _ data offset _ => applyWrite file data offset
  | readCached _ _ _ _ => file
  | flushCache _ _ => file

/-- A call has given the answer for a file without any buffer. -/
def AnsweredFrom (file : SparseFile UInt8) (result : CachedResult) : CachedCall → Prop
  | writeCached _ data _ _ => result.retVal = data.length
  | readCached _ size offset _ =>
    result.data = file.pread size offset ∧ result.retVal = (file.pread size offset).length
  | flushCache _ _ => result.retVal = FhgfsOpsErr.SUCCESS.code

end CachedCall

/-- An inode, beside the file that the same calls would have made without any buffer. -/
structure Compared where
  inode : CachedInode
  uncached : SparseFile UInt8

def performBoth (pattern : StripePattern) (bufSize : Nat) (s : Compared) (call : CachedCall) :
    Compared :=
  ⟨(call.perform pattern bufSize s.inode).inode, call.applied s.uncached⟩

/-- The inode stands for the file. -/
structure StandsFor (bufSize : Nat) (s : Compared) : Prop where
  view : s.inode.view = s.uncached
  readAhead : ReadAhead s.inode
  fits : s.inode.cacheBuffer.Fits bufSize

theorem perform_answered {s : Compared} (h : StandsFor bufSize s) {call : CachedCall}
    (hComplete : call.Complete) :
    call.AnsweredFrom s.uncached (call.perform pattern bufSize s.inode) := by
  rw [← h.view]
  cases call with
  | writeCached fileInfo data offset outcomes =>
    have hClean := writesCleanly_of_complete hComplete s.inode data offset
    exact ((writeCached_effect hClean fileInfo).of_complete hComplete).1
  | readCached fileInfo size offset outcomes =>
    have hRead := @readCached_complete pattern bufSize s.inode h.readAhead outcomes hComplete
      fileInfo size offset
    exact ⟨hRead.data, hRead.data ▸ hRead.retVal⟩
  | flushCache discardCacheOnError flush =>
    obtain rfl : flush = .complete := hComplete
    exact congrArg retVal (flush_complete _ _)

theorem performBoth_standsFor (hBuf : 65536 ≤ bufSize) (s : Compared) (call : CachedCall)
    (h : StandsFor bufSize s) (hComplete : call.Complete) :
    StandsFor bufSize (performBoth pattern bufSize s call) := by
  have hFits := @perform_fits pattern bufSize hBuf s.inode h.fits call
  cases call with
  | writeCached fileInfo data offset outcomes =>
    have hClean := writesCleanly_of_complete hComplete s.inode data offset
    have hEffect := @writeCached_effect pattern bufSize s.inode data offset outcomes hClean fileInfo
    have hView := (hEffect.of_complete hComplete).2
    rw [h.view] at hView
    exact ⟨hView, writeCached_readAhead _ hComplete _ _ _, hFits⟩
  | readCached fileInfo size offset outcomes =>
    have hRead := @readCached_complete pattern bufSize s.inode h.readAhead outcomes hComplete
      fileInfo size offset
    have hClean : FlushesCleanly s.inode.cacheBuffer outcomes.flush :=
      CallOutcomes.Complete.flush hComplete ▸ flushesCleanly_complete _
    exact ⟨(readCached_view hClean _ _ _).trans h.view, hRead.readAhead, hFits⟩
  | flushCache discardCacheOnError flush =>
    obtain rfl : flush = .complete := hComplete
    have hInode := congrArg inode (flush_complete s.inode discardCacheOnError)
    refine ⟨?_, ?_, hFits⟩
    · exact (congrArg CachedInode.view hInode).trans h.view
    · apply readAhead_of_none
      exact congrArg CachedInode.cacheBuffer hInode

theorem after_uncached (calls : List CachedCall) (s : Compared) :
    (Run.after (performBoth pattern bufSize) s calls).uncached =
      calls.foldl CachedCall.applied s.uncached := by
  induction calls generalizing s with
  | nil => rfl
  | cons call calls ih => exact ih _

/-- Every call is answered as for the file that the calls before it have made, no buffer is
overrun, and a flush in the end leaves that file with the servers. -/
theorem buffer_transparent (pattern : StripePattern) {bufSize : Nat} (hBuf : 65536 ≤ bufSize)
    (file : SparseFile UInt8) {calls : List CachedCall}
    (hComplete : ∀ call ∈ calls, call.Complete) (discardCacheOnError : Bool) :
    Run.EveryStep (performBoth pattern bufSize)
        (fun s call => call.AnsweredFrom s.uncached (call.perform pattern bufSize s.inode))
        ⟨⟨file, .NONE⟩, file⟩ calls ∧
      Run.Throughout (performBoth pattern bufSize)
        (fun s => s.inode.cacheBuffer.Fits bufSize) ⟨⟨file, .NONE⟩, file⟩ calls ∧
      flushCacheUnlocked (Run.after (performBoth pattern bufSize) ⟨⟨file, .NONE⟩, file⟩ calls).inode
          discardCacheOnError .complete =
        ⟨FhgfsOpsErr.SUCCESS.code, [], ⟨calls.foldl CachedCall.applied file, .NONE⟩⟩ := by
  have hStart : StandsFor bufSize ⟨⟨file, .NONE⟩, file⟩ := ⟨rfl, trivial, trivial⟩
  have hSteps := Run.everyStep_of_forall (performBoth pattern bufSize)
    (C := fun _ call => call.Complete) (s := ⟨⟨file, .NONE⟩, file⟩) fun _ => hComplete
  have hStep := @performBoth_standsFor pattern bufSize hBuf
  refine ⟨?_, ?_, ?_⟩
  · exact Run.everyStep_imp _ hStep (fun s call h => perform_answered h) hStart hSteps
  · exact Run.throughout_of_invariant _ (fun s h => h.fits) hStep hStart hSteps
  · rw [flush_complete, (Run.after_invariant _ hStep hStart hSteps).view, after_uncached]

/-- An append that is buffered, and a read that has to wait for its flush. -/
def appendThenRead : List CachedCall :=
  [.writeCached openedFileInfo [1, 2] none completeOutcomes,
    .readCached openedFileInfo 4 1 completeOutcomes]

theorem buffer_transparent_appendThenRead :
    flushCacheUnlocked (Run.after (performBoth ⟨65536, .raid0 [1], 1, 1⟩ 65536)
        ⟨⟨[7], .NONE⟩, [7]⟩ appendThenRead).inode false .complete =
      ⟨FhgfsOpsErr.SUCCESS.code, [], ⟨[7, 1, 2], .NONE⟩⟩ := by
  have hComplete : ∀ call ∈ appendThenRead, call.Complete := by
    simp only [appendThenRead, forall_mem_cons]
    exact ⟨completeOutcomes_complete, completeOutcomes_complete, forall_mem_nil _⟩
  have hFile : appendThenRead.foldl CachedCall.applied [7] = [7, 1, 2] := by decide
  rw [← hFile]
  exact (buffer_transparent ⟨65536, .raid0 [1], 1, 1⟩ (le_rfl) [7] hComplete false).2.2

end Calls

end Fhgfs.Client
