import Fhgfs.Lib.SparseFile
import Fhgfs.Nodes.TargetStateStore

/-!
# Writes to a mirrored chunk

`WriteLocalFileMsgEx` on the primary: the data comes from the client block by block, goes on to
the secondary and is written to the local chunk. The results of the system calls and of the
operations on both sockets are parameters, numbered in the order of the calls.
-/

namespace Fhgfs.Mirror

open Nodes (CombinedTargetState)

abbrev Chunk := SparseFile UInt8

def WRITEMSG_MIRROR_RETRIES_NUM : Nat := 1

/-- The system errors that `fhgfsErrFromSysErr` tells apart. -/
inductive SysErr
  | ENOSPC
  | EFBIG
  | other
deriving DecidableEq

def fhgfsErrFromSysErr : SysErr → FhgfsOpsErr
  | .ENOSPC => .NOSPACE
  | .EFBIG => .TOOBIG
  | .other => .INTERNAL

/-- The conversion to the 32 bits of `FhgfsOpsErr`. -/
def toOpsErr (res : Int) : Int := res.bmod (2 ^ 32)

/-- A write to a mirrored file of the primary, and what its steps result in. A `recvT` gets at
least one byte, and so does a `pwrite` without an error; the numbers say how many more they get.
`response` is what the secondary answers, if a valid response comes. -/
structure WriteLocalFile where
  offset : Nat
  data : List UInt8
  buddyMirrorForward : Bool
  bufLen : Nat
  isDirectIO : Bool
  tuneFileWriteSize : Nat
  serverCrashed : Bool
  quotaExceeded : Bool
  openRes : FhgfsOpsErr
  hasSecondary : Bool
  secondaryState : Option CombinedTargetState
  referenceErr : FhgfsOpsErr
  acquireStreamSocket : Nat → Bool
  send : Nat → Bool
  recvExactT : Nat → Bool
  recvT : Nat → Option Nat
  pwrite : Nat → Except SysErr Nat
  response : Option Int

/-- A connection to the secondary: the message that was sent on it and the data behind it. -/
structure MirrorSock where
  offset : Nat
  count : Nat
  sent : List UInt8
deriving DecidableEq

/-- `buddyNeedsResync` says that `setBuddyNeedsResync` was called. The counters are those of the
operations on both sockets and of the local writes. -/
structure WriteState where
  chunk : Chunk
  mirrorToSock : Option MirrorSock
  mirrorRetriesLeft : Nat
  buddyNeedsResync : Bool
  mirrorOps : Nat
  recvs : Nat
  pwrites : Nat

namespace WriteLocalFile

variable (msg : WriteLocalFile)

def count : Nat := msg.data.length

/-- The data of the client that is left, up to a length. -/
def received (toBeReceived length : Nat) : List UInt8 :=
  (msg.data.drop (msg.count - toBeReceived)).take length

/-! ## The secondary -/

variable (s : WriteState)

/-- A new connection with a new message. A failure leaves no connection. -/
def connect (offset toBeMirrored : Nat) : Bool × WriteState :=
  if msg.acquireStreamSocket s.mirrorOps then
    if msg.send (s.mirrorOps + 1) then
      (true, { s with
        mirrorToSock := some ⟨offset, toBeMirrored, []⟩, mirrorOps := s.mirrorOps + 2 })
    else (false, { s with mirrorToSock := none, mirrorOps := s.mirrorOps + 2 })
  else (false, { s with mirrorToSock := none, mirrorOps := s.mirrorOps + 1 })

/-- The retry loop of `prepareMirroring`, with the retries that are left. -/
def prepareLoop : Nat → WriteState → FhgfsOpsErr × WriteState
  | retries, s =>
    let (connected, s) := msg.connect s msg.offset msg.count
    if connected then (.SUCCESS, s)
    else
      match retries with
      | 0 => (.COMMUNICATION, s)
      | retries + 1 => prepareLoop retries { s with mirrorRetriesLeft := retries }

def prepareMirroring : FhgfsOpsErr × WriteState :=
  if msg.buddyMirrorForward then
    if msg.hasSecondary then
      match msg.secondaryState with
      | none => (.COMMUNICATION, s)
      | some state =>
        if state.reachabilityState = .OFFLINE then
          (.SUCCESS, { s with buddyNeedsResync := true })
        else if (state.reachabilityState ≠ .ONLINE ∨ state.consistencyState ≠ .GOOD) ∧
            state.consistencyState ≠ .NEEDS_RESYNC then
          (.COMMUNICATION, s)
        else if msg.referenceErr ≠ .SUCCESS then (msg.referenceErr, s)
        else msg.prepareLoop s.mirrorRetriesLeft s
    else (.UNKNOWNTARGET, s)
  else (.SUCCESS, s)

/-- Data on the connection. A failure leaves no connection. -/
def sendData (buf : List UInt8) : Bool × WriteState :=
  if msg.send s.mirrorOps then
    (true, { s with
      mirrorToSock := s.mirrorToSock.map fun sock => { sock with sent := sock.sent ++ buf }
      mirrorOps := s.mirrorOps + 1 })
  else (false, { s with mirrorToSock := none, mirrorOps := s.mirrorOps + 1 })

def retryLoop (buf : List UInt8) (offset toBeMirrored : Nat) : Nat → WriteState → Bool × WriteState
  | 0, s => (false, s)
  | retries + 1, s =>
    let (connected, s) := msg.connect { s with mirrorRetriesLeft := retries } offset toBeMirrored
    if connected then
      let (sent, s) := msg.sendData s buf
      if sent then (true, s) else retryLoop buf offset toBeMirrored retries s
    else retryLoop buf offset toBeMirrored retries s

/-- Without a connection there is nothing to do: the mirroring is off, or has failed. A retry is
possible at the start of the data only. -/
def sendToMirror (buf : List UInt8) (offset toBeMirrored : Nat) : Bool × WriteState :=
  match s.mirrorToSock with
  | none => (true, s)
  | some _ =>
    let (sent, s) := msg.sendData s buf
    if sent then (true, s)
    else if toBeMirrored ≠ msg.count then (false, s)
    else msg.retryLoop buf offset toBeMirrored s.mirrorRetriesLeft s

/-- The result as the number of an error. An error of the secondary comes as a negative number. -/
def finishMirroring : Int × WriteState :=
  match s.mirrorToSock with
  | none => (FhgfsOpsErr.SUCCESS.code, s)
  | some _ =>
    match msg.response with
    | none => (FhgfsOpsErr.COMMUNICATION.code, s)
    | some mirrorWriteRes =>
      if mirrorWriteRes = msg.count then (FhgfsOpsErr.SUCCESS.code, s)
      else if 0 ≤ mirrorWriteRes then (FhgfsOpsErr.NOSPACE.code, s)
      else if mirrorWriteRes = -FhgfsOpsErr.UNKNOWNTARGET.code then
        (FhgfsOpsErr.SUCCESS.code, { s with buddyNeedsResync := true })
      else (toOpsErr (-mirrorWriteRes), s)

/-! ## The local chunk -/

/-- The loop of `doWrite` over what is left of the buffer, with the sum of the bytes so far. -/
def doWrite : Nat → WriteState → List UInt8 → Nat → Nat → Except SysErr Nat × WriteState
  | 0, s, _, _, sumWriteRes => (.ok sumWriteRes, s)
  | steps + 1, s, buf, offset, sumWriteRes =>
    match msg.pwrite s.pwrites with
    | .error err =>
      (if 0 < sumWriteRes then .ok sumWriteRes else .error err,
        { s with pwrites := s.pwrites + 1 })
    | .ok more =>
      let writeRes := min (more + 1) buf.length
      let s := { s with
        chunk := s.chunk.pwrite (buf.take writeRes) offset, pwrites := s.pwrites + 1 }
      if writeRes = buf.length then (.ok (sumWriteRes + writeRes), s)
      else doWrite steps s (buf.drop writeRes) (offset + writeRes) (sumWriteRes + writeRes)

/-! ## The request -/

/-- The loop of `incrementalRecvPadding`. `false` is an exception of the client's socket, or a
buffer of no length, with which the loop never ends. -/
def incrementalRecvPadding (padLen : Nat) : Nat → Nat → WriteState → Bool × WriteState
  | 0, toBeReceived, s => (decide (toBeReceived = 0), s)
  | steps + 1, toBeReceived, s =>
    if toBeReceived = 0 then (true, s)
    else
      match msg.recvT s.recvs with
      | none => (false, s)
      | some more =>
        let recvRes := min (more + 1) (min toBeReceived msg.bufLen)
        let (_, s) := msg.sendToMirror { s with recvs := s.recvs + 1 }
          (msg.received toBeReceived recvRes) (msg.offset + padLen - toBeReceived) toBeReceived
        incrementalRecvPadding padLen steps (toBeReceived - recvRes) s

/-- How the loop over the blocks ends, before the padding. -/
inductive BlocksRes
  | clientError
  | mirrorError
  | writeError (err : SysErr)
  | shortWrite (bytes : Nat)
  | written
deriving DecidableEq

def exactStaticRecvSize : Nat :=
  if msg.isDirectIO then msg.bufLen else min msg.bufLen msg.tuneFileWriteSize

/-- The loop of `incrementalRecvAndWriteStateful`, with what is to be received as padding. A loop
that never ends, with blocks of no length, is no answer as well. -/
def writeBlocks : Nat → Nat → Nat → WriteState → BlocksRes × Nat × WriteState
  | 0, toBeReceived, _, s => (.clientError, toBeReceived, s)
  | steps + 1, toBeReceived, writeOffset, s =>
    if msg.recvExactT s.recvs then
      let recvRes := min msg.exactStaticRecvSize toBeReceived
      let buf := msg.received toBeReceived recvRes
      let (mirrored, s) := msg.sendToMirror { s with recvs := s.recvs + 1 } buf writeOffset
        toBeReceived
      if mirrored then
        match msg.doWrite buf.length s buf writeOffset 0 with
        | (.error err, s) => (.writeError err, toBeReceived - recvRes, s)
        | (.ok writeRes, s) =>
          let toBeReceived := toBeReceived - recvRes
          if writeRes ≠ recvRes then
            (.shortWrite (msg.count - toBeReceived - (recvRes - writeRes)), toBeReceived, s)
          else if toBeReceived = 0 then (.written, toBeReceived, s)
          else writeBlocks steps toBeReceived (writeOffset + writeRes) s
      -- the bytes of the block were received, but they are not subtracted here
      else (.mirrorError, toBeReceived, s)
    else (.clientError, toBeReceived, s)

/-- The number of bytes or a negative error, `none` for an exception of the client's socket. -/
def incrementalRecvAndWriteStateful : Option Int × WriteState :=
  let (res, padLen, s) := msg.writeBlocks msg.count msg.count msg.offset s
  let (padded, s') := msg.incrementalRecvPadding padLen padLen padLen s
  match res with
  | .clientError => (none, s)
  | .written => (some msg.count, s)
  | .mirrorError => (if padded then some (-FhgfsOpsErr.COMMUNICATION.code) else none, s')
  | .writeError err => (if padded then some (-(fhgfsErrFromSysErr err).code) else none, s')
  | .shortWrite bytes => (if padded then some bytes else none, s')

/-- The end of `processIncoming` after a result: a local error is not overwritten by one of the
mirroring, but a session that was lost in a crash overwrites all. -/
def cleanup (writeClientRes : Int) (s : WriteState) : Option Int × WriteState :=
  let (finishMirroringRes, s) := msg.finishMirroring s
  (some (if msg.serverCrashed then -FhgfsOpsErr.STORAGE_SRV_CRASHED.code
    else if 0 < writeClientRes ∧ finishMirroringRes ≠ FhgfsOpsErr.SUCCESS.code then
      -finishMirroringRes
    else writeClientRes), s)

def refuse (err : FhgfsOpsErr) (s : WriteState) : Option Int × WriteState :=
  let (padded, s) := msg.incrementalRecvPadding msg.count msg.count msg.count s
  if padded then msg.cleanup (-err.code) s else (none, (msg.finishMirroring s).2)

def start (chunk : Chunk) : WriteState :=
  ⟨chunk, none, WRITEMSG_MIRROR_RETRIES_NUM, false, 0, 0, 0⟩

/-- The answer to the client, `none` without one. -/
def processIncoming (chunk : Chunk) : Option Int × WriteState :=
  if msg.quotaExceeded then msg.refuse .DQUOT (start chunk)
  else if msg.openRes ≠ .SUCCESS then msg.refuse msg.openRes (start chunk)
  else
    let (prepMirrorRes, s) := msg.prepareMirroring (start chunk)
    if prepMirrorRes ≠ .SUCCESS then msg.refuse prepMirrorRes s
    else
      match msg.incrementalRecvAndWriteStateful s with
      | (none, s) => (none, (msg.finishMirroring s).2)
      | (some writeLocalRes, s) => msg.cleanup writeLocalRes s

/-- The secondary has said that it wrote all the data of this request. -/
def Confirmed : Prop :=
  s.mirrorToSock = some ⟨msg.offset, msg.count, msg.data⟩ ∧ msg.response = some (msg.count : Int)

/-- What an answer of `n` bytes promises. -/
structure Durable (n : Nat) (s : WriteState) : Prop where
  le_count : n ≤ msg.count
  bytes : ∀ i < n, s.chunk.byteAt (msg.offset + i) = msg.data.getD i 0
  length : msg.offset + n ≤ s.chunk.length
  mirrored : msg.Confirmed s ∨ s.buddyNeedsResync = true

def Acknowledged (chunk : Chunk) : Prop :=
  ∀ n : Nat, 0 < n → (msg.processIncoming chunk).1 = some (n : Int) →
    msg.Durable n (msg.processIncoming chunk).2

end WriteLocalFile

end Fhgfs.Mirror
