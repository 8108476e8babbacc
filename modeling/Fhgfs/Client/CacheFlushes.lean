import Fhgfs.Client.CacheView
import Fhgfs.Lib.Run

/-!
# Flushes that fail

A buffer that could not be flushed is kept and flushed again as a whole. For a positioned write
this does no harm. What it does to the calls of a run is said by their results: a write that
returned its full size counts once, and another one does not count, but for the bytes of it that
the servers stored if it was written through.

There are three exceptions. The flush of an append that has stored a part of the buffer stores
that part again, at the new end of the file. A write that fills the buffer returns the error of
the flush, and its data stay in the buffer. A flush of which the servers report no byte and no
error counts as a success.
-/

namespace Fhgfs.Client

open Run SparseFile List

section Calls

variable (pattern : StripePattern) (bufSize : Nat)

namespace CachedCall

/-- A flush that keeps a buffer that could not be written. -/
def KeepsOnError : CachedCall → Prop
  | writeCached _ _ _ _ => True
  | readCached _ _ _ _ => True
  | flushCache discardCacheOnError _ => discardCacheOnError = false

def Clean (inode : CachedInode) : CachedCall → Prop
  | writeCached _ data offset outcomes => WritesCleanly inode data offset outcomes
  | readCached _ _ _ outcomes => FlushesCleanly inode.cacheBuffer outcomes.flush
  | flushCache _ flush => FlushesCleanly inode.cacheBuffer flush

/-- What a call with a result may make of the file. -/
def Effect (retVal : Int) (file file' : SparseFile UInt8) : CachedCall → Prop
  | writeCached _ data offset outcomes => WriteEffect data offset outcomes retVal file file'
  | readCached _ _ _ _ => file' = file
  | flushCache _ _ => file' = file

end CachedCall

def performNext (inode : CachedInode) (call : CachedCall) : CachedInode :=
  (call.perform pattern bufSize inode).inode

/-- A run of calls makes the one file of the other. -/
def AppliedInOrder : CachedInode → List CachedCall → SparseFile UInt8 → SparseFile UInt8 → Prop :=
  Along (performNext pattern bufSize) fun inode call =>
    call.Effect (call.perform pattern bufSize inode).retVal

variable {pattern bufSize}

theorem perform_effect {inode : CachedInode} {call : CachedCall} (hKeep : call.KeepsOnError)
    (hClean : call.Clean inode) :
    call.Effect (call.perform pattern bufSize inode).retVal inode.view
      (performNext pattern bufSize inode call).view := by
  cases call with
  | writeCached fileInfo data offset outcomes => exact writeCached_effect hClean fileInfo
  | readCached fileInfo size offset outcomes => exact readCached_view hClean fileInfo size offset
  | flushCache discardCacheOnError flush =>
    obtain rfl : discardCacheOnError = false := hKeep
    exact flush_view hClean

/-- After a flush that succeeds the file has gone through what the results of the calls say. -/
theorem flush_appliesInOrder (pattern : StripePattern) (bufSize : Nat) (file : SparseFile UInt8)
    {calls : List CachedCall} (hKeep : ∀ call ∈ calls, call.KeepsOnError)
    (hClean : EveryStep (performNext pattern bufSize) (fun inode call => call.Clean inode)
      ⟨file, .NONE⟩ calls)
    {flush : RemoteWrite}
    (hLast : FlushesCleanly (after (performNext pattern bufSize) ⟨file, .NONE⟩ calls).cacheBuffer
      flush)
    (hSuccess : (flushCacheUnlocked (after (performNext pattern bufSize) ⟨file, .NONE⟩ calls)
      false flush).retVal = FhgfsOpsErr.SUCCESS.code) :
    AppliedInOrder pattern bufSize ⟨file, .NONE⟩ calls file
      (flushCacheUnlocked (after (performNext pattern bufSize) ⟨file, .NONE⟩ calls) false
        flush).inode.file := by
  rw [flush_success hLast hSuccess]
  have hSteps := everyStep_and _ (everyStep_of_forall (performNext pattern bufSize)
    (C := fun _ call => call.KeepsOnError) fun _ => hKeep) hClean
  exact along_view _ CachedInode.view (fun inode call h => perform_effect h.1 h.2) hSteps

end Calls

def nothingStored : Nat → Bool := fun _ => false

def bufferedAppend : CachedCall := .writeCached openedFileInfo [1, 2] none completeOutcomes

def flushedTwice : List CachedCall :=
  [bufferedAppend, .flushCache false (.incomplete (-3) nothingStored)]

theorem flush_appliesInOrder_flushedTwice :
    AppliedInOrder ⟨65536, .raid0 [1], 1, 1⟩ 65536 ⟨[7], .NONE⟩ flushedTwice [7] [7, 1, 2] := by
  have hKeep : ∀ call ∈ flushedTwice, call.KeepsOnError := by
    simp only [flushedTwice, forall_mem_cons]
    exact ⟨trivial, rfl, forall_mem_nil _⟩
  have hClean : EveryStep (performNext ⟨65536, .raid0 [1], 1, 1⟩ 65536)
      (fun inode call => call.Clean inode) ⟨[7], .NONE⟩ flushedTwice :=
    ⟨trivial, ⟨fun _ => by decide, fun _ _ _ => rfl⟩, trivial⟩
  exact flush_appliesInOrder ⟨65536, .raid0 [1], 1, 1⟩ 65536 [7] hKeep hClean
    (flushesCleanly_complete _) rfl

/-! ## Runs that lose or repeat data -/

section Runs

variable (pattern : StripePattern) (bufSize : Nat)

/-- The file after the writes that returned their full size. -/
def appliedOnce : CachedInode → List CachedCall → SparseFile UInt8 → SparseFile UInt8
  | _, [], file => file
  | inode, call :: calls, file =>
    let result := call.perform pattern bufSize inode
    match call with
    | .writeCached _ data offset _ =>
      appliedOnce result.inode calls
        (if result.retVal = data.length then applyWrite file data offset else file)
    | _ => appliedOnce result.inode calls file

/-- If the flush in the end succeeds, the file has exactly the writes that returned their full
size. -/
def ExactlyOnce (calls : List CachedCall) (flush : RemoteWrite) : Prop :=
  let flushed := flushCacheUnlocked (after (performNext pattern bufSize) ⟨[], .NONE⟩ calls) false
    flush
  flushed.retVal = FhgfsOpsErr.SUCCESS.code →
    flushed.inode.file = appliedOnce pattern bufSize ⟨[], .NONE⟩ calls []

end Runs

/-- A write through of which the servers store two of four bytes. -/
def shortWriteThrough : List CachedCall :=
  [.writeCached { openedFileInfo with allowCaching := false } [1, 2, 3, 4] (some 0)
    { completeOutcomes with write := .incomplete 2 (· < 2) }]

/-- A buffer that ends with the chunk, the flush of which fails when it is full. -/
def filledBuffer : List CachedCall :=
  [.writeCached openedFileInfo [1] (some 65534) completeOutcomes,
    .writeCached openedFileInfo [2] (some 65535)
      { completeOutcomes with flush := .incomplete (-3) nothingStored }]

theorem filledBuffer_after :
    after (performNext ⟨65536, .raid0 [1], 1, 1⟩ 65536) ⟨[], .NONE⟩ filledBuffer =
      ⟨[], .WRITE [1, 2] 2 (some 65534)⟩ :=
  rfl

theorem not_exactlyOnce_filledBuffer :
    ¬ExactlyOnce ⟨65536, .raid0 [1], 1, 1⟩ 65536 filledBuffer .complete := by
  unfold ExactlyOnce
  rw [filledBuffer_after, flush_complete]
  intro h
  have hFiles : pwrite ([] : SparseFile UInt8) [1, 2] 65534 =
      pwrite ([] : SparseFile UInt8) [1] 65534 := h rfl
  have hLengths := congrArg length hFiles
  rw [length_pwrite _ _ _ (cons_ne_nil _ _),
    length_pwrite _ _ _ (cons_ne_nil _ _)] at hLengths
  exact absurd hLengths (by decide)

/-- The four ways in which the file may differ from the writes that returned their full size. -/
theorem not_exactlyOnce :
    ¬ExactlyOnce ⟨65536, .raid0 [1], 1, 1⟩ 65536 shortWriteThrough .complete ∧
      ¬ExactlyOnce ⟨65536, .raid0 [1], 1, 1⟩ 65536
        [bufferedAppend, .flushCache false (.incomplete 1 (· < 1))] .complete ∧
      ¬ExactlyOnce ⟨65536, .raid0 [1], 1, 1⟩ 65536 filledBuffer .complete ∧
      ¬ExactlyOnce ⟨65536, .raid0 [1], 1, 1⟩ 65536 [bufferedAppend]
        (.incomplete 0 nothingStored) := by
  refine ⟨?_, ?_, not_exactlyOnce_filledBuffer, ?_⟩
  · intro h
    exact absurd (h rfl) (by decide)
  · intro h
    exact absurd (h rfl) (by decide)
  · intro h
    exact absurd (h rfl) (by decide)

end Fhgfs.Client
