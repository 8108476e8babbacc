import Fhgfs.Lib.ExclusiveLocks
import Fhgfs.Mirror.TruncLocalFile

/-!
# Changes of a chunk under its lock

While the secondary is resynced, a change of a mirrored chunk holds the lock of the chunk in
`ChunkLockStore`. `TruncLocalFileMsgEx`, `UnlinkLocalFileMsgEx` and `SetLocalAttrMsgEx` lock it
in `forwardToSecondary`, which reports that in `outChunkLocked`, and unlock it before the
response. `WriteLocalFileMsgEx` locks and unlocks it in `processIncoming`.
-/

namespace Fhgfs.Mirror

open Nodes (TargetConsistencyState TargetReachabilityState)

abbrev ChunkKey := UInt16 × String

abbrev ChunkLockEvent := LockEvent ChunkKey

/-- What the three messages have in common, and what their steps result in. `targetID` is the
target that was selected, if `hasTarget`. The last two say whether a `GenericResponseMsg` and the
response can be sent. -/
structure MirroredRequest where
  targetID : UInt16
  entryID : String
  isBuddyMirror : Bool
  isBuddyMirrorSecond : Bool
  hasTarget : Bool
  targetFD : Option TargetConsistencyState
  isBuddyResyncInProgress : Bool
  attempts : List Attempt
  outTargetReachabilityState : TargetReachabilityState
  sendGenericResponse : Bool
  sendResponse : Bool

/-- `res` is the result of `forwardToSecondary`, `none` for a `SocketException`. -/
structure Forwarded where
  res : Option FhgfsOpsErr
  outChunkLocked : Bool
  buddyNeedsResync : Bool
  locks : List ChunkLockEvent

/-- How a request ended: its answer, `none` without a response of its type, what was changed, and
what it did with the locks. -/
structure Handled (σ : Type) where
  answer : Option FhgfsOpsErr
  changed : σ
  buddyNeedsResync : Bool
  locks : List ChunkLockEvent

namespace MirroredRequest

variable {σ : Type} (msg : MirroredRequest)

def chunkKey : ChunkKey := (msg.targetID, msg.entryID)

def lockChunk (chunkLocked : Bool) : List ChunkLockEvent :=
  if chunkLocked then [.lock msg.chunkKey] else []

def unlockChunk (chunkLocked : Bool) : List ChunkLockEvent :=
  if chunkLocked then [.unlock msg.chunkKey] else []

/-- There is no result while the request waits for the secondary. -/
def forwardToSecondary : Option Forwarded :=
  if msg.isBuddyMirror = false ∨ msg.isBuddyMirrorSecond = true then
    some ⟨some .SUCCESS, false, false, []⟩
  else
    let outChunkLocked := msg.isBuddyResyncInProgress
    let locks := msg.lockChunk outChunkLocked
    match requestResponseTarget msg.attempts 0 msg.outTargetReachabilityState with
    | none => none
    | some (.error commRes, state) =>
      if commRes = .COMMUNICATION ∧ state = .OFFLINE then
        some ⟨some .SUCCESS, outChunkLocked, true, locks⟩
      else
        -- the chunk is unlocked before the generic response
        some ⟨if msg.sendGenericResponse then some .COMMUNICATION else none, false, false,
          locks ++ msg.unlockChunk outChunkLocked⟩
    | some (.ok secondaryRes, _) =>
      if secondaryRes = .UNKNOWNTARGET then some ⟨some .SUCCESS, outChunkLocked, true, locks⟩
      else some ⟨some secondaryRes, outChunkLocked, false, locks⟩

def respond (clientErrRes : FhgfsOpsErr) (changed : σ) (forwarded : Forwarded) : Handled σ where
  answer := if msg.sendResponse then some clientErrRes else none
  changed := changed
  buddyNeedsResync := forwarded.buddyNeedsResync
  locks := forwarded.locks ++ msg.unlockChunk forwarded.outChunkLocked

/-- From `skip_response` on, or out of the function with an exception. -/
def skipResponse (changed : σ) (forwarded : Forwarded) : Handled σ :=
  ⟨none, changed, forwarded.buddyNeedsResync, forwarded.locks⟩

/-- Before `forwardToSecondary` nothing is locked. -/
def notForwarded : Forwarded := ⟨none, false, false, []⟩

/-- The request, with what it is to change and how. -/
def processIncoming (change : σ → FhgfsOpsErr × σ) (unchanged : σ) : Option (Handled σ) :=
  if msg.isBuddyMirror ∧ msg.hasTarget = false then
    some (msg.respond .UNKNOWNTARGET unchanged notForwarded)
  else
    match msg.targetFD with
    | none =>
      if msg.isBuddyMirror then some (skipResponse unchanged notForwarded)
      else some (msg.respond .UNKNOWNTARGET unchanged notForwarded)
    | some consistencyState =>
      if consistencyState ≠ .GOOD ∧ msg.isBuddyMirror ∧ msg.isBuddyMirrorSecond = false then
        some (skipResponse unchanged notForwarded)
      else
        match msg.forwardToSecondary with
        | none => none
        | some forwarded =>
          match forwarded.res with
          | none => some (skipResponse unchanged forwarded)
          | some .SUCCESS =>
            some (msg.respond (change unchanged).1 (change unchanged).2 forwarded)
          -- meant for a communication that failed; the chunk may still be locked
          | some .COMMUNICATION => some (skipResponse unchanged forwarded)
          | some err => some (msg.respond err unchanged forwarded)

end MirroredRequest

/-! ## The three messages -/

structure TruncLocalFileMsg extends MirroredRequest, TruncLocalFile

namespace TruncLocalFileMsg

variable (msg : TruncLocalFileMsg)

def changeChunk (chunk : Option Chunk) : FhgfsOpsErr × Option Chunk :=
  let (clientErrRes, chunk) := msg.truncFile chunk
  (if clientErrRes = .PATHNOTEXISTS ∧ msg.filesize = 0 then .SUCCESS else clientErrRes, chunk)

def processIncoming (chunk : Option Chunk) : Option (Handled (Option Chunk)) :=
  msg.toMirroredRequest.processIncoming msg.changeChunk chunk

end TruncLocalFileMsg

/-- `unlinkat` is the error of the call, if it fails and not because there is no such file. -/
structure UnlinkLocalFileMsg extends MirroredRequest where
  unlinkat : Option SysErr

namespace UnlinkLocalFileMsg

variable (msg : UnlinkLocalFileMsg)

def changeChunk (chunk : Option Chunk) : FhgfsOpsErr × Option Chunk :=
  match msg.unlinkat with
  | some _ => (.INTERNAL, chunk)
  | none => (.SUCCESS, none)

def processIncoming (chunk : Option Chunk) : Option (Handled (Option Chunk)) :=
  msg.toMirroredRequest.processIncoming msg.changeChunk chunk

end UnlinkLocalFileMsg

/-- The attributes of a chunk file that can be set. -/
structure ChunkAttribs where
  modificationTimeSecs : Int
  lastAccessTimeSecs : Int
  userID : UInt32
  groupID : UInt32

/-- The attributes are `some` where their bit in `validAttribs` is set. `utimensat` and
`fchownat` are the errors of the calls, if they fail and not because there is no such file. -/
structure SetLocalAttrMsg extends MirroredRequest where
  modificationTimeSecs : Option Int
  lastAccessTimeSecs : Option Int
  userID : Option UInt32
  groupID : Option UInt32
  useQuota : Bool
  utimensat : Option SysErr
  fchownat : Option SysErr

namespace SetLocalAttrMsg

variable (msg : SetLocalAttrMsg)

/-- Another conversion than the one of the writes. -/
def fhgfsErrFromSysErr : SysErr → FhgfsOpsErr
  | .ENOSPC => .NOSPACE
  | _ => .INTERNAL

def changeTimes (attribs : Option ChunkAttribs) : FhgfsOpsErr × Option ChunkAttribs :=
  if msg.modificationTimeSecs.isSome ∨ msg.lastAccessTimeSecs.isSome then
    match msg.utimensat with
    | some err => (fhgfsErrFromSysErr err, attribs)
    | none => (.SUCCESS, attribs.map fun attribs => { attribs with
        modificationTimeSecs := msg.modificationTimeSecs.getD attribs.modificationTimeSecs
        lastAccessTimeSecs := msg.lastAccessTimeSecs.getD attribs.lastAccessTimeSecs })
  else (.SUCCESS, attribs)

/-- An error of the times is kept unless there is another one. -/
def changeOwner (clientErrRes : FhgfsOpsErr) (attribs : Option ChunkAttribs) :
    FhgfsOpsErr × Option ChunkAttribs :=
  if msg.useQuota ∧ (msg.userID.isSome ∨ msg.groupID.isSome) then
    match msg.fchownat with
    | some err => (fhgfsErrFromSysErr err, attribs)
    | none => (clientErrRes, attribs.map fun attribs => { attribs with
        userID := msg.userID.getD attribs.userID, groupID := msg.groupID.getD attribs.groupID })
  else (clientErrRes, attribs)

def changeAttribs (attribs : Option ChunkAttribs) : FhgfsOpsErr × Option ChunkAttribs :=
  let (clientErrRes, attribs) := msg.changeTimes attribs
  msg.changeOwner clientErrRes attribs

def processIncoming (attribs : Option ChunkAttribs) : Option (Handled (Option ChunkAttribs)) :=
  msg.toMirroredRequest.processIncoming msg.changeAttribs attribs

end SetLocalAttrMsg

/-! ## Writes -/

structure WriteLocalFileMsg extends WriteLocalFile where
  targetID : UInt16
  fileID : String
  isMirrorSession : Bool
  isBuddyResyncInProgress : Bool

namespace WriteLocalFileMsg

variable (msg : WriteLocalFileMsg)

/-- An error before the writing, `none` for a `SocketException`. -/
def refuseWrite (err : FhgfsOpsErr) (s : WriteState) : Option Int × WriteState :=
  let (padded, s) := msg.incrementalRecvPadding msg.count msg.count msg.count s
  (if padded then some (-err.code) else none, s)

/-- The body of the `try` once the chunk is locked. -/
def writeChunk (s : WriteState) : Option Int × WriteState :=
  if msg.openRes ≠ .SUCCESS then msg.refuseWrite msg.openRes s
  else
    let (prepMirrorRes, s) := msg.prepareMirroring s
    if prepMirrorRes ≠ .SUCCESS then msg.refuseWrite prepMirrorRes s
    else msg.incrementalRecvAndWriteStateful s

/-- The end of the request with a result, or the handler of the exceptions. -/
def endWrite : Option Int × WriteState → Option Int × WriteState
  | (none, s) => (none, (msg.finishMirroring s).2)
  | (some writeClientRes, s) => msg.cleanup writeClientRes s

/-- The answer to the client, and the locks: both ends unlock the chunk. -/
def processIncoming (chunk : Chunk) : (Option Int × WriteState) × List ChunkLockEvent :=
  let s := WriteLocalFile.start chunk
  if msg.quotaExceeded then
    match msg.refuseWrite .DQUOT s with
    -- outside of the `try`
    | (none, s) => ((none, s), [])
    | (some writeClientRes, s) => (msg.cleanup writeClientRes s, [])
  else
    let chunkLocked := msg.isMirrorSession && msg.isBuddyResyncInProgress
    let locks := if chunkLocked then [.lock (msg.targetID, msg.fileID)] else []
    let unlocks := if chunkLocked then [.unlock (msg.targetID, msg.fileID)] else []
    (msg.endWrite (msg.writeChunk s), locks ++ unlocks)

end WriteLocalFileMsg

end Fhgfs.Mirror
