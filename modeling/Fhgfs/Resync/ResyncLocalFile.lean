import Fhgfs.Lib.SparseFile

/-!
# Resync of a chunk

`doResync` copies a chunk to the buddy target block by block, and `ResyncLocalFileMsgEx` writes
the blocks there. Neither side moves zeros in its sparse blocks. All system calls and messages
succeed, and a write is complete.
-/

namespace Fhgfs.Resync

abbrev Chunk := SparseFile UInt8

def RESYNCER_SPARSE_BLOCK_SIZE : Nat := 4096

def isSparse (block : List UInt8) : Bool := block.all fun byte => decide (byte = 0)

/-- The flags of the message header: `RESYNCLOCALFILEMSG_FLAG_NODATA`, `_FLAG_TRUNC` and
`_CHECK_SPARSE`. -/
structure ResyncMsgFlags where
  noData : Bool
  trunc : Bool
  checkSparse : Bool
deriving DecidableEq

/-- The count is the length of the data. -/
structure ResyncLocalFileMsg where
  dataBuf : List UInt8
  offset : Nat
  flags : ResyncMsgFlags

/-! ## Receiver -/

/-- The loop over the sparse blocks of the buffer. It ends with the buffer, after as many
`steps` as there are blocks. -/
def doWriteSparse : Nat → Chunk → List UInt8 → Nat → Chunk
  | 0, fd, _, _ => fd
  | steps + 1, fd, buf, offset =>
    let block := buf.take RESYNCER_SPARSE_BLOCK_SIZE
    let rest := buf.drop RESYNCER_SPARSE_BLOCK_SIZE
    let written :=
      if isSparse block then
        if rest = [] then fd.ftruncate (offset + block.length) else fd
      else fd.pwrite block offset
    if rest = [] then written else doWriteSparse steps written rest (offset + block.length)

/-- What `processIncoming` makes of the chunk. A message for offset 0 opens it with `O_TRUNC`. -/
def processIncoming (msg : ResyncLocalFileMsg) (chunk : Chunk) : Chunk :=
  let fd : Chunk := if msg.offset = 0 ∧ msg.flags.noData = false then [] else chunk
  if msg.flags.noData then fd
  else
    let written :=
      if msg.flags.checkSparse then
        doWriteSparse (msg.dataBuf.length + 1) fd msg.dataBuf msg.offset
      else fd.pwrite msg.dataBuf msg.offset
    if msg.flags.trunc then written.ftruncate (msg.offset + msg.dataBuf.length) else written

/-! ## Sender -/

/-- The inner loop over the sparse blocks of the buffer: whether there is data, and whether a
sparse block follows it. The loop stops at such a block. -/
def findData : Nat → List UInt8 → Bool → Bool × Bool
  | 0, _, dataFound => (dataFound, false)
  | steps + 1, data, dataFound =>
    if data = [] then (dataFound, false)
    else if isSparse (data.take RESYNCER_SPARSE_BLOCK_SIZE) then
      if dataFound then (true, true)
      else findData steps (data.drop RESYNCER_SPARSE_BLOCK_SIZE) false
    else findData steps (data.drop RESYNCER_SPARSE_BLOCK_SIZE) true

/-- The chunks of both targets, and `doResync` between two iterations. -/
structure ChunkResync where
  maxCount : Nat
  localChunk : Chunk
  buddyChunk : Chunk
  offset : Nat
  resyncMsgFlags : ResyncMsgFlags
  finished : Bool

namespace ChunkResync

/-- The start of `doResync`. `onlyAttribs` syncs no data. -/
def start (syncBlockSize : Nat) (onlyAttribs : Bool) (localChunk buddyChunk : Chunk) :
    ChunkResync where
  maxCount := if onlyAttribs then 0 else syncBlockSize
  localChunk := localChunk
  buddyChunk := buddyChunk
  offset := 0
  resyncMsgFlags := ⟨onlyAttribs, false, false⟩
  finished := false

/-- The message of an iteration that read `data`. In the last iteration, `fstat` shows whether
someone truncated the chunk below the offset. -/
def resyncMsg (s : ChunkResync) (data : List UInt8) (flags : ResyncMsgFlags) : ResyncLocalFileMsg :=
  if data = [] ∨ data.length < s.maxCount then
    if s.localChunk.length < s.offset then ⟨data, s.localChunk.length, flags⟩
    else if s.offset ≠ 0 ∧ data = [] then ⟨data, s.offset, { flags with trunc := true }⟩
    else ⟨data, s.offset, flags⟩
  else ⟨data, s.offset, flags⟩

def iteration (s : ChunkResync) : ChunkResync :=
  let data := s.localChunk.pread s.maxCount s.offset
  let (dataFound, sparseBehind) := findData data.length data false
  let flags := { s.resyncMsgFlags with
    checkSparse := s.resyncMsgFlags.checkSparse || sparseBehind }
  if s.offset ≠ 0 ∧ data ≠ [] ∧ data.length = s.maxCount ∧ dataFound = false then
    { s with resyncMsgFlags := flags, offset := s.offset + data.length }
  else
    let flags := { flags with
      checkSparse := flags.checkSparse || (decide (data ≠ []) && !dataFound) }
    let msg := s.resyncMsg data flags
    { s with
      buddyChunk := processIncoming msg s.buddyChunk
      resyncMsgFlags := msg.flags
      offset := msg.offset + data.length
      finished := decide (data.length ≠ s.maxCount) }

end ChunkResync

/-- A modification of a mirrored chunk. -/
inductive ChunkOp where
  | write (data : List UInt8) (offset : Nat)
  | truncate (length : Nat)
deriving DecidableEq

def ChunkOp.apply : ChunkOp → Chunk → Chunk
  | .write data offset, chunk => chunk.pwrite data offset
  | .truncate length, chunk => chunk.ftruncate length

def ChunkResync.step (s : ChunkResync) : Option ChunkOp → ChunkResync
  | none => if s.finished then s else s.iteration
  | some op =>
    { s with localChunk := op.apply s.localChunk, buddyChunk := op.apply s.buddyChunk }

end Fhgfs.Resync
