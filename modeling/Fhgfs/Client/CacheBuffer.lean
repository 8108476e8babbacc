import Fhgfs.Client.RequestPieces
import Fhgfs.Lib.SparseFile

/-!
# Buffered reads and writes

`writeCached`, `readCached` and `flushCache` of the client for one inode, with the buffer of the
inode and the file on the servers. An offset is `none` for an append, where the source has -1.

What comes from outside is an argument of a call: what the servers made of it, whether a buffer
could be had, whether the memory of the caller could be copied, and which other processes have
the file open. The calls for memory mappings, the locks of the inode and the store for the
asynchronous flush are left out.
-/

namespace Fhgfs.Client

/-- The buffer of an inode, with a constructor for each `FileBufferType`. `buf` is the part of
the memory that is in use. -/
inductive CacheBuffer
  | NONE
  | READ (buf : List UInt8) (fileOffset : Nat)
  | WRITE (buf : List UInt8) (bufUsageMaxLen : Nat) (fileOffset : Option Nat)
deriving DecidableEq

/-- An inode of the client, and the file on the servers. -/
structure CachedInode where
  file : SparseFile UInt8
  cacheBuffer : CacheBuffer
deriving DecidableEq

/-! ## File handles -/

structure FsFileInfo where
  cacheHits : Int
  allowCaching : Bool
  lastReadOffset : Int
  lastWriteOffset : Int
deriving DecidableEq

def CACHE_HITS_THRESHOLD : Int := 5

def CACHE_MISS_THRESHOLD : Int := -5

def CACHE_SLOWSTART_READLEN : Nat := 64 * 1024

namespace FsFileInfo

def incCacheHits (fileInfo : FsFileInfo) : FsFileInfo :=
  if fileInfo.cacheHits < CACHE_HITS_THRESHOLD then
    { fileInfo with cacheHits := fileInfo.cacheHits + 1 }
  else fileInfo

def decCacheHits (fileInfo : FsFileInfo) : FsFileInfo :=
  if fileInfo.cacheHits > CACHE_MISS_THRESHOLD then
    { fileInfo with cacheHits := fileInfo.cacheHits - 1 }
  else fileInfo

end FsFileInfo

/-! ## Remote operations -/

/-- What the servers made of a write. One that is not complete has any result below its size, and
any of its bytes may have been stored. -/
inductive RemoteWrite
  | complete
  | incomplete (writeRes : Int) (stored : Nat → Bool)

/-- What the servers made of a read. -/
inductive RemoteRead
  | complete
  | failed (readRes : Int)

/-- An append is a write to the size that the servers give under the append lock. -/
def writefileEx (file : SparseFile UInt8) (data : List UInt8) (offset : Option Nat) :
    RemoteWrite → Int × SparseFile UInt8
  | .complete => (data.length, file.pwrite data (offset.getD file.length))
  | .incomplete writeRes stored =>
    (min writeRes (data.length - 1),
      SparseFile.pwriteSome stored file data (offset.getD file.length))

def readfile (file : SparseFile UInt8) (size offset : Nat) : RemoteRead → Int × List UInt8
  | .complete => ((file.pread size offset).length, file.pread size offset)
  | .failed readRes => (min readRes (-1), [])

/-- What a call gets from outside. The second look at the readers of the file is taken under the
exclusive lock, and a call that has copied from the buffer of the inode may get a new one. -/
structure CallOutcomes where
  isFileOpenByMultipleReaders : Bool
  isFileOpenByMultipleReadersLocked : Bool
  instantBuf : Bool
  copyFailed : Bool
  newBufCopyFailed : Bool
  flush : RemoteWrite
  write : RemoteWrite
  headRead : RemoteRead
  read : RemoteRead

/-- What a call returns, with the bytes that a read has left in the memory of the caller. -/
structure CachedResult where
  retVal : Int
  data : List UInt8
  inode : CachedInode

/-! ## The calls -/

def CachedInode.discardCache (inode : CachedInode) : CachedInode :=
  { inode with cacheBuffer := .NONE }

/-- A buffer that could not be written is kept, unless it is to be discarded. -/
def flushCacheUnlocked (inode : CachedInode) (discardCacheOnError : Bool) (flush : RemoteWrite) :
    CachedResult :=
  match inode.cacheBuffer with
  | .NONE => ⟨FhgfsOpsErr.SUCCESS.code, [], inode⟩
  | .READ _ _ => ⟨FhgfsOpsErr.SUCCESS.code, [], inode.discardCache⟩
  | .WRITE buf _ fileOffset =>
    let writeRes := (writefileEx inode.file buf fileOffset flush).1
    let written := { inode with file := (writefileEx inode.file buf fileOffset flush).2 }
    if writeRes < buf.length then
      ⟨if writeRes > 0 then FhgfsOpsErr.NOSPACE.code else -writeRes, [],
        if discardCacheOnError then written.discardCache else written⟩
    else ⟨FhgfsOpsErr.SUCCESS.code, [], written.discardCache⟩

section Calls

variable (pattern : StripePattern) (bufSize : Nat)

def currentChunkSize (offset : Nat) : Nat :=
  (pattern.getChunkEnd (Int64.ofNat offset) - Int64.ofNat offset + 1).toUInt64.toNat

/-- `maxCacheLen`: a buffer does not cross the end of a chunk, except for appends. -/
def maxCacheLen : Option Nat → Nat
  | none => bufSize
  | some offset => min (currentChunkSize pattern offset) bufSize

variable (inode : CachedInode)

variable (fileInfo : FsFileInfo)

/-- A write without a buffer that could be extended. -/
def writeCacheFlushed (data : List UInt8)
    (offset : Option Nat) (outcomes : CallOutcomes) : CachedResult :=
  let written := writefileEx inode.file data offset outcomes.write
  let writeThrough : CachedResult := ⟨written.1, [], { inode with file := written.2 }⟩
  if ¬fileInfo.allowCaching ∨ offset ≠ none ∧ fileInfo.cacheHits ≤ 0 then writeThrough
  else if data.length ≥ maxCacheLen pattern bufSize offset then writeThrough
  else if ¬outcomes.instantBuf then writeThrough
  else if outcomes.newBufCopyFailed then
    ⟨-FhgfsOpsErr.ADDRESSFAULT.code, [], inode.discardCache⟩
  else
    ⟨data.length, [],
      { inode with cacheBuffer := .WRITE data (maxCacheLen pattern bufSize offset) offset }⟩

/-- How much is read into a new buffer: less at the begin of a file if the read is small. -/
def readAheadLen (size offset : Nat) : Nat :=
  if offset = 0 ∧ size < CACHE_SLOWSTART_READLEN then CACHE_SLOWSTART_READLEN
  else maxCacheLen pattern bufSize (some offset)

def readCacheFlushed (size offset : Nat) (outcomes : CallOutcomes) : CachedResult :=
  let direct := readfile inode.file size offset outcomes.read
  let readDirect : CachedResult := ⟨direct.1, direct.2, inode⟩
  if ¬fileInfo.allowCaching ∨ fileInfo.cacheHits ≤ 0 ∨
      outcomes.isFileOpenByMultipleReadersLocked then readDirect
  else if size ≥ maxCacheLen pattern bufSize (some offset) then readDirect
  else if ¬outcomes.instantBuf then readDirect
  else
    let ahead :=
      readfile inode.file (readAheadLen pattern bufSize size offset) offset outcomes.read
    if ahead.1 ≤ 0 then ⟨ahead.1, [], inode.discardCache⟩
    else if outcomes.newBufCopyFailed then
      ⟨-FhgfsOpsErr.ADDRESSFAULT.code, [], inode.discardCache⟩
    else
      ⟨min size ahead.1, ahead.2.take size, { inode with cacheBuffer := .READ ahead.2 offset }⟩

/-- Whether a write goes on where the data in the buffer end, and there is room for it. -/
def goesOn (buf : List UInt8) (bufUsageMaxLen : Nat) (fileOffset : Option Nat) (size : Nat)
    (offset : Option Nat) : Bool :=
  offset = fileOffset.map (· + buf.length) ∧ size ≤ bufUsageMaxLen - buf.length

/-- The hits of a handle if the inode has no buffer: a write counts as a hit if it would have
fallen into a buffer at the last offset. -/
def guessWriteHit : Option Nat → FsFileInfo
  | none => fileInfo.incCacheHits
  | some offset =>
    if fileInfo.lastWriteOffset ≤ offset ∧ offset ≤ fileInfo.lastWriteOffset + bufSize - 1 then
      fileInfo.incCacheHits
    else fileInfo.decCacheHits

def guessReadHit (size offset : Nat) : FsFileInfo :=
  if fileInfo.lastReadOffset + bufSize - 1 ≥ offset ∧
      fileInfo.lastReadOffset ≤ (offset + size : Int) - 1 then
    fileInfo.incCacheHits
  else fileInfo.decCacheHits

def writeCached (data : List UInt8)
    (offset : Option Nat) (outcomes : CallOutcomes) : CachedResult × FsFileInfo :=
  match inode.cacheBuffer with
  | .NONE =>
    let fileInfo := guessWriteHit bufSize fileInfo offset
    (writeCacheFlushed pattern bufSize inode fileInfo data offset outcomes, fileInfo)
  | .READ _ _ =>
    let fileInfo := fileInfo.decCacheHits
    (writeCacheFlushed pattern bufSize inode.discardCache fileInfo data offset outcomes, fileInfo)
  | .WRITE buf bufUsageMaxLen fileOffset =>
    if ¬goesOn buf bufUsageMaxLen fileOffset data.length offset then
      let fileInfo := fileInfo.decCacheHits
      let flushed := flushCacheUnlocked inode false outcomes.flush
      if flushed.retVal ≠ FhgfsOpsErr.SUCCESS.code then
        (⟨-flushed.retVal, [], flushed.inode⟩, fileInfo)
      else (writeCacheFlushed pattern bufSize flushed.inode fileInfo data offset outcomes, fileInfo)
    else
      let fileInfo := fileInfo.incCacheHits
      if outcomes.copyFailed then (⟨-FhgfsOpsErr.ADDRESSFAULT.code, [], inode⟩, fileInfo)
      else
        let extended :=
          { inode with cacheBuffer := .WRITE (buf ++ data) bufUsageMaxLen fileOffset }
        if bufUsageMaxLen - (buf ++ data).length = 0 then
          let flushed := flushCacheUnlocked extended false outcomes.flush
          if flushed.retVal ≠ FhgfsOpsErr.SUCCESS.code then
            (⟨-flushed.retVal, [], flushed.inode⟩, fileInfo)
          else (⟨data.length, [], flushed.inode⟩, fileInfo)
        else (⟨data.length, [], extended⟩, fileInfo)

/-- What is read from the servers if a read begins before the data in the buffer. -/
def readHead (fileOffset offset : Nat) (headRead : RemoteRead) : Int × List UInt8 :=
  if offset < fileOffset then readfile inode.file (fileOffset - offset) offset headRead
  else (0, [])

/-- A read that overlaps with the data that were read ahead: what lies before them is read from
the servers, and what lies behind them as well. -/
def readOverlapping (buf : List UInt8)
    (fileOffset size offset : Nat) (outcomes : CallOutcomes) : CachedResult :=
  -- both differences are 0 if they were negative
  let remoteReadSize := fileOffset - offset
  let cacheCopyOffset := offset - fileOffset
  let head := readHead inode fileOffset offset outcomes.headRead
  if offset < fileOffset ∧ head.1 < remoteReadSize then ⟨head.1, head.2, inode.discardCache⟩
  else
    let cacheCopySize :=
      min (fileOffset + buf.length) (offset + size) - (fileOffset + cacheCopyOffset)
    let copied := head.2 ++ (buf.drop cacheCopyOffset).take cacheCopySize
    if outcomes.copyFailed then ⟨-FhgfsOpsErr.ADDRESSFAULT.code, head.2, inode⟩
    else if offset + size > fileOffset + buf.length then
      let remainder :=
        readCacheFlushed pattern bufSize inode.discardCache fileInfo
          (offset + size - (fileOffset + buf.length)) (fileOffset + buf.length) outcomes
      if remainder.retVal < 0 then
        ⟨remainder.retVal, copied ++ remainder.data, remainder.inode⟩
      else
        ⟨remoteReadSize + cacheCopySize + remainder.retVal, copied ++ remainder.data,
          remainder.inode⟩
    else ⟨size, copied, inode⟩

/-- The part of `readCached` under the exclusive lock. -/
def readCachedLocked (size offset : Nat) (outcomes : CallOutcomes) : CachedResult × FsFileInfo :=
  match inode.cacheBuffer with
  | .NONE =>
    let fileInfo := guessReadHit bufSize fileInfo size offset
    (readCacheFlushed pattern bufSize inode fileInfo size offset outcomes, fileInfo)
  | .WRITE _ _ _ =>
    let fileInfo := fileInfo.decCacheHits
    let flushed := flushCacheUnlocked inode false outcomes.flush
    if flushed.retVal ≠ FhgfsOpsErr.SUCCESS.code then
      (⟨-flushed.retVal, [], flushed.inode⟩, fileInfo)
    else (readCacheFlushed pattern bufSize flushed.inode fileInfo size offset outcomes, fileInfo)
  | .READ buf fileOffset =>
    if fileOffset + buf.length < offset + 1 ∨ fileOffset + 1 > offset + size then
      let fileInfo := fileInfo.decCacheHits
      let flushed := flushCacheUnlocked inode false outcomes.flush
      if flushed.retVal ≠ FhgfsOpsErr.SUCCESS.code then
        (⟨-flushed.retVal, [], flushed.inode⟩, fileInfo)
      else (readCacheFlushed pattern bufSize flushed.inode fileInfo size offset outcomes, fileInfo)
    else
      let fileInfo := fileInfo.incCacheHits
      (readOverlapping pattern bufSize inode fileInfo buf fileOffset size offset outcomes, fileInfo)

def readCached (size offset : Nat) (outcomes : CallOutcomes) : CachedResult × FsFileInfo :=
  if (outcomes.isFileOpenByMultipleReaders ∨ ¬fileInfo.allowCaching) ∧
      inode.cacheBuffer = .NONE then
    let direct := readfile inode.file size offset outcomes.read
    (⟨direct.1, direct.2, inode⟩, fileInfo)
  else readCachedLocked pattern bufSize inode fileInfo size offset outcomes

/-- A call for the inode, through any file handle. -/
inductive CachedCall
  | writeCached (fileInfo : FsFileInfo) (data : List UInt8) (offset : Option Nat)
    (outcomes : CallOutcomes)
  | readCached (fileInfo : FsFileInfo) (size offset : Nat) (outcomes : CallOutcomes)
  | flushCache (discardCacheOnError : Bool) (flush : RemoteWrite)

def CachedCall.perform : CachedCall → CachedResult
  | .writeCached fileInfo data offset outcomes =>
    (Client.writeCached pattern bufSize inode fileInfo data offset outcomes).1
  | .readCached fileInfo size offset outcomes =>
    (Client.readCached pattern bufSize inode fileInfo size offset outcomes).1
  | .flushCache discardCacheOnError flush => flushCacheUnlocked inode discardCacheOnError flush

end Calls

end Fhgfs.Client
