import Fhgfs.Common.StorageDefinitions

/-!
# Reading and writing a vector of pages

`rwChunkPageVec` sends a vector of pages to a storage server, or reads it from there, and ends
the pages: a page that is not ended stays locked. The communication kit walks over the vector with
the iterator of the vector, and so does the caller after a communication error.

What comes from outside is an argument, one record for each attempt: whether a connection could be
had, and what was sent and received. The bytes of the pages, the socket and the node reference are
left out, and so are the logs. `reported` is not in the source: it is what the server has said
about the request in the current attempt.
-/

namespace Fhgfs.Client

/-! ## Page vectors -/

/-- A page, by its place in the vector, and its used bytes. -/
structure FhgfsPage where
  index : Nat
  length : Nat
deriving DecidableEq

/-- The last page need not be full. -/
structure FhgfsChunkPageVec where
  pageSize : Nat
  size : Nat
  lastPageUsedDataSize : Nat
  size_pos : 0 < size
  used_pos : 0 < lastPageUsedDataSize
  used_le : lastPageUsedDataSize ≤ pageSize

namespace FhgfsChunkPageVec

variable (vec : FhgfsChunkPageVec)

def pageLength (index : Nat) : Nat :=
  if index + 1 = vec.size then vec.lastPageUsedDataSize else vec.pageSize

def page (index : Nat) : FhgfsPage := ⟨index, vec.pageLength index⟩

def pages : List FhgfsPage := (List.range vec.size).map vec.page

def getDataSize : Nat := (vec.size - 1) * vec.pageSize + vec.lastPageUsedDataSize

/-- The bytes of the pages that the iterator has before it. -/
def getRemainingDataSize (pageIter : List FhgfsPage) : Nat :=
  (pageIter.length - 1) * vec.pageSize + vec.lastPageUsedDataSize

end FhgfsChunkPageVec

/-- How a page is ended. The release of a page that could not be read has no result. -/
inductive PageEnd
  | endWritePage (writeRes : Int)
  | endReadPage (readRes : Int)
  | unmapUnlockRelease
deriving DecidableEq

def EIO : Int := 5

def EAGAIN : Int := 11

def ENOMEM : Int := 12

def EINVAL : Int := 22

def EREMOTEIO : Int := 121

/-! ## Outcomes -/

/-- Why the node of a target cannot be referenced. -/
inductive ResolveErr
  | UNKNOWNTARGET
  | UNKNOWNNODE
deriving DecidableEq

def ResolveErr.code : ResolveErr → Int
  | .UNKNOWNTARGET => FhgfsOpsErr.UNKNOWNTARGET.code
  | .UNKNOWNNODE => FhgfsOpsErr.UNKNOWNNODE.code

/-- What becomes of the data of a page that are sent. Less than the whole page is a failure. -/
inductive SendRes
  | sent
  | badAddress
  | failed
deriving DecidableEq

structure WriteOutcomes where
  resolveErr : Option ResolveErr
  isConnected : Bool
  isHeaderSent : Bool
  sendDataPartRes : Nat → SendRes
  response : Option Int

inductive RecvErr
  | badAddress
  | timedOut
  | other
deriving DecidableEq

/-- A length info of the server, and the page of the announced data, if any, that cannot be
received. -/
structure ReadPart where
  lengthInfo : Int
  missing : Option (Nat × RecvErr)
deriving DecidableEq

/-- Behind the last part no further length info can be received. -/
structure ReadOutcomes where
  resolveErr : Option ResolveErr
  isConnected : Bool
  isSignalPending : Bool
  parts : List ReadPart
deriving DecidableEq

/-! ## The communication kit -/

/-- `pageIter` are the pages that the iterator of the vector has before it. -/
structure FhgfsCommKitVec where
  pageIter : List FhgfsPage
  reqLen : Nat
  numSuccessPages : Nat
  nodeResult : Int
  reported : Option Int
  pageEnds : List (Nat × PageEnd)
deriving DecidableEq

namespace FhgfsCommKitVec

variable (comm : FhgfsCommKitVec)

/-- The socket exception stage, which is the same for reads and writes. -/
def stageSOCKETEXCEPTION : FhgfsCommKitVec :=
  if comm.nodeResult ≥ 0 then { comm with nodeResult := -FhgfsOpsErr.COMMUNICATION.code }
  else comm

/-! ### Reading -/

def recvErrResult : RecvErr → Int
  | .badAddress => -FhgfsOpsErr.ADDRESSFAULT.code
  | .timedOut => -FhgfsOpsErr.COMMUNICATION.code
  | .other => -FhgfsOpsErr.INTERNAL.code

def handleReadError (err : RecvErr) : FhgfsCommKitVec :=
  stageSOCKETEXCEPTION { comm with nodeResult := recvErrResult err }

/-- How the receiving of a part ends. -/
inductive PartEnd
  | complete
  | noMorePages
  | error (err : RecvErr)
deriving DecidableEq

structure ReceivedPages where
  ending : PartEnd
  numSuccessPages : Nat
  pageIter : List FhgfsPage
deriving DecidableEq

/-- The loop over the pages of a part. `missing` counts from the current page. -/
def recvPages (serverSize : Nat) : Nat → Option (Nat × RecvErr) → List FhgfsPage → ReceivedPages
  | _, _, [] => ⟨.noMorePages, 0, []⟩
  | _, some (0, err), _ :: pageIter => ⟨.error err, 0, pageIter⟩
  | receiveSum, missing, page :: pageIter =>
    let requestLength := min page.length (serverSize - receiveSum)
    if requestLength < page.length ∧ receiveSum + requestLength < serverSize then
      ⟨.error .other, 0, pageIter⟩
    else if receiveSum + requestLength < serverSize then
      let next := recvPages serverSize (receiveSum + requestLength)
        (missing.map fun (k, err) => (k - 1, err)) pageIter
      { next with numSuccessPages := next.numSuccessPages + 1 }
    else ⟨.complete, 1, pageIter⟩

/-- The receive data stage, and whether the next length info is to be received. -/
def readfileStageRECVDATA (serverSize : Nat)
    (missing : Option (Nat × RecvErr)) : Bool × FhgfsCommKitVec :=
  let received := recvPages serverSize 0 missing comm.pageIter
  let comm := { comm with
    pageIter := received.pageIter
    numSuccessPages := comm.numSuccessPages + received.numSuccessPages }
  match received.ending with
  | .complete => (true, { comm with nodeResult := comm.nodeResult + serverSize })
  | .noMorePages =>
    (false, stageSOCKETEXCEPTION { comm with nodeResult := -FhgfsOpsErr.INTERNAL.code })
  | .error err => (false, handleReadError comm err)

/-- The server has announced more data of the request. -/
def addReported (lengthInfo : Int) : FhgfsCommKitVec :=
  { comm with reported := some (comm.reported.getD 0 + lengthInfo) }

/-- The receive header stage, with the loop that enters it again after a complete part. -/
def readfileStageRECVHEADER : List ReadPart → FhgfsCommKitVec → FhgfsCommKitVec
  | [], comm => stageSOCKETEXCEPTION comm
  | part :: parts, comm =>
    if part.lengthInfo < 0 then
      stageSOCKETEXCEPTION { comm with nodeResult := part.lengthInfo }
    else if part.lengthInfo = 0 then comm.addReported 0
    else if part.lengthInfo > comm.reqLen then
      stageSOCKETEXCEPTION (comm.addReported part.lengthInfo)
    else
      let next :=
        (comm.addReported part.lengthInfo).readfileStageRECVDATA part.lengthInfo.toNat part.missing
      if next.1 then readfileStageRECVHEADER parts next.2 else next.2

section Stages

variable (vec : FhgfsChunkPageVec)

def readfileStagePREPARE (outcomes : ReadOutcomes) (comm : FhgfsCommKitVec) : FhgfsCommKitVec :=
  let comm := { comm with
    reqLen := vec.getRemainingDataSize comm.pageIter
    nodeResult := -FhgfsOpsErr.COMMUNICATION.code
    reported := none }
  match outcomes.resolveErr with
  | some err => { comm with nodeResult := -err.code }
  | none =>
    if ¬outcomes.isConnected then
      if outcomes.isSignalPending then { comm with nodeResult := FhgfsOpsErr.INTERRUPTED.code }
      else comm
    -- the header stage is also entered if the request could not be sent
    else readfileStageRECVHEADER outcomes.parts { comm with nodeResult := 0 }

/-- The pages of which data were received. There is a result left if they were too few. -/
def endReadPages : Nat → Int → List FhgfsPage → List (Nat × PageEnd) × Int × List FhgfsPage
  | 0, readRes, pageIter => ([], readRes, pageIter)
  | _ + 1, readRes, [] => ([], readRes, [])
  | numSuccessPages + 1, readRes, page :: pageIter =>
    if readRes > 0 then
      let next := endReadPages numSuccessPages (readRes - vec.pageSize) pageIter
      ((page.index, .endReadPage readRes) :: next.1, next.2)
    else ([], readRes, page :: pageIter)

def readfileStageHandlePages (comm : FhgfsCommKitVec) : FhgfsCommKitVec :=
  if comm.nodeResult = -FhgfsOpsErr.COMMUNICATION.code ∨
      comm.nodeResult = -FhgfsOpsErr.AGAIN.code then comm
  else
    let ended := endReadPages vec comm.numSuccessPages comm.nodeResult vec.pages
    let nodeResult :=
      if ended.2.1 > 0 then -FhgfsOpsErr.INTERNAL.code else comm.nodeResult
    let pageReadRes := if nodeResult ≥ 0 then nodeResult else -1
    { comm with
      nodeResult := nodeResult
      pageIter := []
      pageEnds := comm.pageEnds ++ ended.1 ++
        ended.2.2.map fun page => (page.index, .endReadPage pageReadRes) }

/-! ### Writing -/

def sendPages (sendDataPartRes : Nat → SendRes) : List FhgfsPage → SendRes × List FhgfsPage
  | [] => (.sent, [])
  | page :: pageIter =>
    if sendDataPartRes page.index = .sent then sendPages sendDataPartRes pageIter
    else (sendDataPartRes page.index, pageIter)

def writefileStageRECV (response : Option Int) (comm : FhgfsCommKitVec) : FhgfsCommKitVec :=
  match response with
  | none => stageSOCKETEXCEPTION comm
  | some writeRespValue =>
    { comm with nodeResult := writeRespValue, reported := some writeRespValue }

variable (outcomes : WriteOutcomes)

def writefileStageSENDDATA (comm : FhgfsCommKitVec) : FhgfsCommKitVec :=
  let sent := sendPages outcomes.sendDataPartRes comm.pageIter
  let comm := { comm with pageIter := sent.2 }
  match sent.1 with
  | .sent => writefileStageRECV outcomes.response comm
  | .badAddress =>
    stageSOCKETEXCEPTION { comm with nodeResult := -FhgfsOpsErr.ADDRESSFAULT.code }
  | .failed => stageSOCKETEXCEPTION comm

def writefileStageSENDHEADER (comm : FhgfsCommKitVec) : FhgfsCommKitVec :=
  if outcomes.isHeaderSent then writefileStageSENDDATA outcomes comm
  else stageSOCKETEXCEPTION comm

def writefileStagePREPARE (comm : FhgfsCommKitVec) : FhgfsCommKitVec :=
  let comm := { comm with
    nodeResult := -FhgfsOpsErr.COMMUNICATION.code
    reported := none }
  match outcomes.resolveErr with
  | some err => { comm with nodeResult := -err.code }
  | none => if outcomes.isConnected then writefileStageSENDHEADER outcomes comm else comm

/-- A page is written if the server has written any of its bytes. -/
def endWrittenPages (firstUnhandledPage : Option FhgfsPage) :
    Int → List FhgfsPage → List (Nat × PageEnd)
  | _, [] => []
  | remainingServerWriteRes, page :: pageIter =>
    let writeRes := if remainingServerWriteRes > 0 then (page.length : Int) else - EREMOTEIO
    let remaining :=
      if remainingServerWriteRes > 0 then remainingServerWriteRes - page.length
      else remainingServerWriteRes
    let writeRes := if firstUnhandledPage = some page ∧ remaining > 0 then - EIO else writeRes
    (page.index, .endWritePage writeRes) :: endWrittenPages firstUnhandledPage remaining pageIter

def writefileStageHandlePages (comm : FhgfsCommKitVec) : FhgfsCommKitVec :=
  if comm.nodeResult = -FhgfsOpsErr.AGAIN.code ∨
      comm.nodeResult = -FhgfsOpsErr.COMMUNICATION.code then comm
  else { comm with
    pageIter := []
    pageEnds := comm.pageEnds ++ endWrittenPages comm.pageIter.head? comm.nodeResult vec.pages }

/-! ### Attempts -/

/-- The attempts of a call, and whether a signal was pending after each of them. The loop goes on
with the next one after a communication error, and there is no result if it has not ended with
the last one. -/
def communicateLoop {α : Type} (communicate : α → FhgfsCommKitVec → FhgfsCommKitVec)
    (maxRetries : Nat) : Nat → FhgfsCommKitVec → List (α × Bool) → Option (Int × FhgfsCommKitVec)
  | _, _, [] => none
  | retries, comm, (outcomes, isSignalPending) :: attempts =>
    let comm := communicate outcomes { comm with pageIter := vec.pages }
    let retVal := comm.nodeResult
    if retVal = -FhgfsOpsErr.AGAIN.code ∨ retVal = -FhgfsOpsErr.COMMUNICATION.code then
      let retries := if retVal = -FhgfsOpsErr.AGAIN.code then 0 else retries + 1
      if retries ≤ maxRetries ∧ ¬isSignalPending then
        communicateLoop communicate maxRetries retries comm attempts
      else some (-FhgfsOpsErr.COMMUNICATION.code, comm)
    else some (retVal, comm)

def assignRWfileState : FhgfsCommKitVec where
  pageIter := vec.pages
  reqLen := 0
  numSuccessPages := 0
  nodeResult := -FhgfsOpsErr.INTERNAL.code
  reported := none
  pageEnds := []

end Stages

end FhgfsCommKitVec

open FhgfsCommKitVec

/-- The attempts of a call, with its direction. -/
inductive RWAttempts
  | read (attempts : List (ReadOutcomes × Bool))
  | write (attempts : List (WriteOutcomes × Bool))

def rwFileCommunicate (vec : FhgfsChunkPageVec) (maxRetries : Nat) :
    RWAttempts → FhgfsCommKitVec → Option (Int × FhgfsCommKitVec)
  | .read attempts, comm =>
    (communicateLoop vec (readfileStagePREPARE vec) maxRetries 0 comm attempts).map
      fun (retVal, comm) => (retVal, readfileStageHandlePages vec comm)
  | .write attempts, comm =>
    (communicateLoop vec writefileStagePREPARE maxRetries 0 comm attempts).map
      fun (retVal, comm) => (retVal, writefileStageHandlePages vec comm)

/-- `iterateAllHandleWritePages` and `iterateAllHandleReadErr`: the remaining pages are ended. -/
def iterateAllHandlePages (attempts : RWAttempts) (comm : FhgfsCommKitVec) : FhgfsCommKitVec :=
  let pageEnd :=
    match attempts with
    | .read _ => .unmapUnlockRelease
    | .write _ => .endWritePage (-EAGAIN)
  { comm with
    pageIter := []
    pageEnds := comm.pageEnds ++ comm.pageIter.map fun page => (page.index, pageEnd) }

/-- There is no result if the attempts do not suffice. `chunkPages` is the bound for the size of
a vector, and `hasMsgBuf` says whether the buffer for the messages could be had. -/
def rwChunkPageVec (vec : FhgfsChunkPageVec) (chunkPages : Nat) (hasMsgBuf : Bool)
    (maxRetries : Nat) (attempts : RWAttempts) : Option (Int × FhgfsCommKitVec) :=
  if vec.size > chunkPages then
    some (-EINVAL, iterateAllHandlePages attempts (assignRWfileState vec))
  else if ¬hasMsgBuf then
    some (-ENOMEM, iterateAllHandlePages attempts (assignRWfileState vec))
  else
    (rwFileCommunicate vec maxRetries attempts (assignRWfileState vec)).map fun (retVal, comm) =>
      (retVal, if retVal = -FhgfsOpsErr.COMMUNICATION.code then iterateAllHandlePages attempts comm
        else comm)

end Fhgfs.Client
