import Fhgfs.Client.CommKitCommon
import Fhgfs.Common.Serialization

/-!
# Writing to several storage servers

The stages of `FhgfsOpsCommKit_writefileV2bCommunicate`. They share almost everything with those of
a read, but a write keeps the iterator it began with, and also tries again when a server asks for
that.
-/

namespace Fhgfs.Client

inductive WritefileStage
  | PREPARE
  | SENDHEADER
  | SENDDATA
  | RECV
  | SOCKETEXCEPTION
  | SOCKETINVALIDATE
  | CLEANUP
  | RETRYWAIT
  | DONE
deriving DecidableEq

/-- What a write has of its own is `initialData`. -/
abbrev WritefileState := RWfileState WritefileStage IovIter

def assignWritefileState (data : IovIter) (offset : Int64) (targetID : UInt16)
    (useBuddyMirrorSecond : Bool) : WritefileState where
  stage := .PREPARE
  transmitted := 0
  toBeTransmitted := 0
  pollSocksIndex := 0
  data := ⟨0, 0⟩
  offset := offset
  targetID := targetID
  useBuddyMirrorSecond := useBuddyMirrorSecond
  node := none
  sock := none
  nodeResult := -FhgfsOpsErr.INTERNAL.code
  expectedNodeResult := data.count
  own := data

/-- A write of a part of a chunk file. -/
structure WriteWork where
  data : IovIter
  offset : Int64
  targetID : UInt16
  useBuddyMirrorSecond : Bool

def WriteWork.assign (w : WriteWork) : WritefileState :=
  assignWritefileState w.data w.offset w.targetID w.useBuddyMirrorSecond

/-- Why `send` took no more data. -/
inductive SendEnd
  | wouldBlock
  | addressFault
  | failed
deriving DecidableEq

inductive SendPartResult
  | success
  | addressFault
  | communication
deriving DecidableEq

/-- `WriteLocalFileMsg_sendDataPartInstant`, for the number of bytes that `send` takes. Nothing to
send counts as an error. -/
def sendDataPartInstant (sent : Nat) (sendEnd : SendEnd) (data : IovIter) (transmitted : Nat) :
    SendPartResult × IovIter × Nat :=
  let bytes := min sent data.count
  let result : SendPartResult :=
    if data.count = 0 then .communication
    else if bytes = data.count then .success
    else
      match sendEnd with
      | .wouldBlock => .success
      | .addressFault => .addressFault
      | .failed => .communication
  (result, data.advance bytes, transmitted + bytes)

/-- What comes as a response: none, one of another kind, or the result of the server. -/
inductive WriteResponse
  | failed
  | invalid
  | value (writeRespValue : Int64)
deriving DecidableEq

/-- The outcomes of the stages. -/
structure WriteInput where
  prepare : PrepareInput
  sendRes : Int
  sent : Nat
  sendEnd : SendEnd
  response : WriteResponse
  signalPending : Bool

namespace WritefileState

variable (h : RWfileStatesHelper) (s : WritefileState)

/-! ## Stages -/

variable (i : WriteInput)

def stagePREPARE : Bool × RWfileStatesHelper × WritefileState :=
  match prepare i.prepare h { s with data := s.own } with
  | (.cleanup, h, s) => (false, h, { s with stage := .CLEANUP })
  | (.unconnectable, h, s) => (false, h, s)
  | (.connected, h, s) => (true, h, { s with stage := .SENDHEADER })

def stageSENDHEADER : RWfileStatesHelper × WritefileState :=
  if i.sendRes ≤ 0 then (h, { s with stage := .SOCKETEXCEPTION })
  else
    h.addStateSockToPollSocks { s with
      transmitted := 0
      toBeTransmitted := s.data.count
      stage := .SENDDATA }

/-- The state is cancelled after a time-out or waits if there is no event. -/
def isDataAvailable : Bool × RWfileStatesHelper × WritefileState :=
  if h.pollTimedOut then
    (false, h, { s with nodeResult := -FhgfsOpsErr.COMMUNICATION.code, stage := .SOCKETINVALIDATE })
  else if !(h.pollSocks s.pollSocksIndex).revents then (false, h.addStateSockToPollSocks s)
  else (true, h, s)

def stageSENDDATA : RWfileStatesHelper × WritefileState :=
  match isDataAvailable h s with
  | (false, h, s) => (h, s)
  | (true, h, s) =>
    match sendDataPartInstant i.sent i.sendEnd s.data s.transmitted with
    | (.addressFault, data, transmitted) =>
      (h, { s with
        data := data
        transmitted := transmitted
        nodeResult := -FhgfsOpsErr.ADDRESSFAULT.code
        stage := .SOCKETINVALIDATE })
    | (.communication, data, transmitted) =>
      (h, { s with data := data, transmitted := transmitted, stage := .SOCKETEXCEPTION })
    | (.success, data, transmitted) =>
      h.addStateSockToPollSocks { s with
        data := data
        transmitted := transmitted
        stage := if s.toBeTransmitted = transmitted then .RECV else .SENDDATA }

def stageRECV : RWfileStatesHelper × WritefileState :=
  match isDataAvailable h s with
  | (false, h, s) => (h, s)
  | (true, h, s) =>
    match i.response with
    | .failed => (h, { s with stage := .SOCKETEXCEPTION })
    | .invalid => (h, { s with stage := .SOCKETINVALIDATE })
    | .value writeRespValue =>
      (h.releaseStreamSocket s.sock,
        { s with nodeResult := writeRespValue.toInt, stage := .CLEANUP })

def stageSOCKETEXCEPTION : WritefileState :=
  { s with nodeResult := -FhgfsOpsErr.COMMUNICATION.code, stage := .SOCKETINVALIDATE }

def stageSOCKETINVALIDATE : RWfileStatesHelper × WritefileState :=
  (h.invalidateStreamSocket s.sock, { s with stage := .CLEANUP })

def stageCLEANUP : RWfileStatesHelper × WritefileState :=
  let cleaned := if s.node.isSome then h.releaseNode s else (h, s)
  let h := cleaned.1
  let s := cleaned.2
  if s.nodeResult = -FhgfsOpsErr.COMMUNICATION.code ∨ s.nodeResult = -FhgfsOpsErr.AGAIN.code then
    if i.signalPending then
      ({ h with numDone := h.numDone + 1 },
        { s with nodeResult := -FhgfsOpsErr.INTERRUPTED.code, stage := .DONE })
    else if h.hasRetriesLeft then
      ({ h with numRetryWaiters := h.numRetryWaiters + 1 }, { s with stage := .RETRYWAIT })
    else ({ h with numDone := h.numDone + 1 }, { s with stage := .DONE })
  else ({ h with numDone := h.numDone + 1 }, { s with stage := .DONE })

end WritefileState

open WritefileState in
def writeStep (i : WriteInput) (h : RWfileStatesHelper) (s : WritefileState) :
    RWfileStatesHelper × WritefileState :=
  match s.stage with
  | .PREPARE =>
    match stagePREPARE h s i with
    | (false, h, s) => (h, s)
    | (true, h, s) => stageSENDHEADER h s i
  | .SENDHEADER => stageSENDHEADER h s i
  | .SENDDATA => stageSENDDATA h s i
  | .RECV => stageRECV h s i
  | .SOCKETEXCEPTION =>
    let invalidated := stageSOCKETINVALIDATE h (stageSOCKETEXCEPTION s)
    stageCLEANUP invalidated.1 invalidated.2 i
  | .SOCKETINVALIDATE =>
    let invalidated := stageSOCKETINVALIDATE h s
    stageCLEANUP invalidated.1 invalidated.2 i
  | .CLEANUP => stageCLEANUP h s i
  | .RETRYWAIT => (h, s)
  | .DONE => (h, s)

def writeRetryChoice (i : RetryInput) (isBuddyMirror : Bool) (s : WritefileState) : RetryChoice :=
  let t := retryTargets i isBuddyMirror s
  if t.bothOffline then .cancel
  else if isBuddyMirror && RetryTargets.notGood t.targetState then .waitForState
  else if s.nodeResult = -FhgfsOpsErr.AGAIN.code then .waitForState
  else .normal

def writeStartRetry (i : RetryInput) (h : RWfileStatesHelper) (states : List WritefileState) :
    RWfileStatesHelper × List WritefileState :=
  startRetry .RETRYWAIT .PREPARE .DONE (writeRetryChoice i h.isBuddyMirror) h states

/-- A round of the loop of `FhgfsOpsCommKit_writefileV2bCommunicate`. -/
def writefileV2bCommunicate (c : RWfileStatesHelper × List WritefileState)
    (i : RoundInput WriteInput) : RWfileStatesHelper × List WritefileState :=
  round writeStep writeStartRetry c i

end Fhgfs.Client

/-!
## Reading from several storage servers

The stages of `FhgfsOpsCommKit_readfileV2bCommunicate`. A state in `RECVHEADER` or `RECVDATA` has a
connection on which the reply of the server comes in. The reply has pieces of data that follow
their lengths, and ends with a length of zero or an error.
-/

namespace Fhgfs.Client

open Wire

inductive ReadfileStage
  | PREPARE
  | SEND
  | RECVHEADER
  | RECVDATA
  | SOCKETEXCEPTION
  | SOCKETINVALIDATE
  | CLEANUP
  | RETRYWAIT
  | DONE
deriving DecidableEq

/-- The buffer of the caller, and the bytes of the reply that were not received yet. -/
structure ReadLink where
  memory : Nat → UInt8
  incoming : List UInt8

abbrev ReadfileState := RWfileState ReadfileStage ReadLink

def assignReadfileState (data : IovIter) (offset : Int64) (targetID : UInt16)
    (useBuddyMirrorSecond : Bool) (memory : Nat → UInt8) : ReadfileState where
  stage := .PREPARE
  transmitted := 0
  toBeTransmitted := 0
  pollSocksIndex := 0
  data := data
  offset := offset
  targetID := targetID
  useBuddyMirrorSecond := useBuddyMirrorSecond
  node := none
  sock := none
  nodeResult := -FhgfsOpsErr.INTERNAL.code
  expectedNodeResult := data.count
  own := ⟨memory, []⟩

/-- What `recvT` gives: some bytes, but never more than there are or than were asked for. -/
inductive RecvResult
  | addressFault
  | failed
  | received (bytes : Nat)
deriving DecidableEq

/-- The outcomes of the stages. `serve` has the reply for an offset and a count. -/
structure ReadInput where
  prepare : PrepareInput
  sendRes : Int
  serve : Int64 → Nat → List UInt8
  headerFailed : Bool
  recvRes : RecvResult
  signalPending : Bool

def deserializeLengthInfo (bytes : List UInt8) : Int :=
  (UInt64.ofNat (ofLeBytes bytes)).toInt64.toInt

def storeBytes (memory : Nat → UInt8) (pos : Nat) (bytes : List UInt8) : Nat → UInt8 := fun p =>
  if pos ≤ p ∧ p < pos + bytes.length then bytes.getD (p - pos) 0 else memory p

namespace ReadfileState

variable (h : RWfileStatesHelper) (s : ReadfileState)

def nextLengthInfo : Int := deserializeLengthInfo (s.own.incoming.take 8)

def receiveHeader : ReadfileState :=
  let rest : ReadLink := ⟨s.own.memory, s.own.incoming.drop 8⟩
  if nextLengthInfo s ≤ 0 then
    { s with
      nodeResult := if nextLengthInfo s < 0 then nextLengthInfo s else s.transmitted
      stage := .CLEANUP
      own := rest }
  else if nextLengthInfo s > s.data.count then
    { s with
      nodeResult := -FhgfsOpsErr.INTERNAL.code
      stage := .SOCKETINVALIDATE
      own := rest }
  else
    { s with
      toBeTransmitted := s.toBeTransmitted + (nextLengthInfo s).toNat
      stage := .RECVDATA
      own := rest }

def missingLength : Nat := min s.data.count (s.toBeTransmitted - s.transmitted)

def receiveData (bytes : Nat) : ReadfileState :=
  { s with
    transmitted := s.transmitted + bytes
    data := s.data.advance bytes
    stage := if s.toBeTransmitted = s.transmitted + bytes then .RECVHEADER else .RECVDATA
    own := {
      memory := storeBytes s.own.memory s.data.iovOffset (s.own.incoming.take bytes)
      incoming := s.own.incoming.drop bytes } }

/-! ## Stages -/

variable (i : ReadInput)

def stagePREPARE : Bool × RWfileStatesHelper × ReadfileState :=
  match prepare i.prepare h s with
  | (.cleanup, h, s) => (false, h, { s with stage := .CLEANUP })
  | (.unconnectable, h, s) => (false, h, s)
  | (.connected, h, s) => (true, h, { s with stage := .SEND })

def stageSEND : RWfileStatesHelper × ReadfileState :=
  if i.sendRes ≤ 0 then (h, { s with stage := .SOCKETEXCEPTION })
  else
    h.addStateSockToPollSocks { s with
      stage := .RECVHEADER
      transmitted := 0
      toBeTransmitted := 0
      own := { s.own with incoming := i.serve s.offset s.data.count } }

/-- Whether there are data. If not, the state is cancelled after a time-out or waits. -/
def isDataAvailable : Bool × RWfileStatesHelper × ReadfileState :=
  if h.pollTimedOut then
    (false, h, { s with nodeResult := -FhgfsOpsErr.COMMUNICATION.code, stage := .SOCKETINVALIDATE })
  else if !(h.pollSocks s.pollSocksIndex).revents then (false, h.addStateSockToPollSocks s)
  else (true, h, s)

def stageRECVHEADER : RWfileStatesHelper × ReadfileState :=
  match isDataAvailable h s with
  | (false, h, s) => (h, s)
  | (true, h, s) =>
    if i.headerFailed ∨ s.own.incoming.length < 8 then (h, { s with stage := .SOCKETEXCEPTION })
    else if nextLengthInfo s ≤ 0 then (h.releaseStreamSocket s.sock, receiveHeader s)
    else (h, receiveHeader s)

def stageRECVDATA : RWfileStatesHelper × ReadfileState :=
  match isDataAvailable h s with
  | (false, h, s) => (h, s)
  | (true, h, s) =>
    match i.recvRes with
    | .addressFault =>
      (h, { s with nodeResult := -FhgfsOpsErr.ADDRESSFAULT.code, stage := .SOCKETINVALIDATE })
    | .failed => (h, { s with stage := .SOCKETEXCEPTION })
    | .received bytes =>
      let recvRes := min bytes (min (missingLength s) s.own.incoming.length)
      if recvRes = 0 then (h, { s with stage := .SOCKETEXCEPTION })
      else h.addStateSockToPollSocks (receiveData s recvRes)

def stageSOCKETEXCEPTION : ReadfileState :=
  { s with nodeResult := -FhgfsOpsErr.COMMUNICATION.code, stage := .SOCKETINVALIDATE }

def stageSOCKETINVALIDATE : RWfileStatesHelper × ReadfileState :=
  (h.invalidateStreamSocket s.sock, { s with stage := .CLEANUP })

def stageCLEANUP : RWfileStatesHelper × ReadfileState :=
  let cleaned := if s.node.isSome then h.releaseNode s else (h, s)
  let h := cleaned.1
  let s := cleaned.2
  if s.nodeResult = -FhgfsOpsErr.COMMUNICATION.code then
    if i.signalPending then
      ({ h with numDone := h.numDone + 1 },
        { s with nodeResult := -FhgfsOpsErr.INTERRUPTED.code, stage := .DONE })
    else if h.hasRetriesLeft then
      ({ h with numRetryWaiters := h.numRetryWaiters + 1 }, { s with stage := .RETRYWAIT })
    else ({ h with numDone := h.numDone + 1 }, { s with stage := .DONE })
  else ({ h with numDone := h.numDone + 1 }, { s with stage := .DONE })

end ReadfileState

open ReadfileState in
def readStep (i : ReadInput) (h : RWfileStatesHelper) (s : ReadfileState) :
    RWfileStatesHelper × ReadfileState :=
  match s.stage with
  | .PREPARE =>
    match stagePREPARE h s i with
    | (false, h, s) => (h, s)
    | (true, h, s) => stageSEND h s i
  | .SEND => stageSEND h s i
  | .RECVHEADER =>
    let received := stageRECVHEADER h s i
    if received.2.stage = .RECVDATA then stageRECVDATA received.1 received.2 i else received
  | .RECVDATA => stageRECVDATA h s i
  | .SOCKETEXCEPTION =>
    let invalidated := stageSOCKETINVALIDATE h (stageSOCKETEXCEPTION s)
    stageCLEANUP invalidated.1 invalidated.2 i
  | .SOCKETINVALIDATE =>
    let invalidated := stageSOCKETINVALIDATE h s
    stageCLEANUP invalidated.1 invalidated.2 i
  | .CLEANUP => stageCLEANUP h s i
  | .RETRYWAIT => (h, s)
  | .DONE => (h, s)

/-- A target that is not good is left for a buddy that is. -/
def readRetryChoice (i : RetryInput) (isBuddyMirror : Bool) (s : ReadfileState) : RetryChoice :=
  let t := retryTargets i isBuddyMirror s
  if t.bothOffline then .cancel
  else if (!t.getTargetStateRes || RetryTargets.notGood t.targetState) &&
      (t.getBuddyTargetStateRes && !RetryTargets.notGood t.buddyTargetState) then .switchToBuddy
  else if isBuddyMirror && RetryTargets.notGood t.targetState then .waitForState
  else .normal

def readStartRetry (i : RetryInput) (h : RWfileStatesHelper) (states : List ReadfileState) :
    RWfileStatesHelper × List ReadfileState :=
  startRetry .RETRYWAIT .PREPARE .DONE (readRetryChoice i h.isBuddyMirror) h states

/-- A round of the loop of `FhgfsOpsCommKit_readfileV2bCommunicate`. -/
def readfileV2bCommunicate (c : RWfileStatesHelper × List ReadfileState)
    (i : RoundInput ReadInput) : RWfileStatesHelper × List ReadfileState :=
  round readStep readStartRetry c i

end Fhgfs.Client
