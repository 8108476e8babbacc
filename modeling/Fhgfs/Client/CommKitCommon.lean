import Fhgfs.Lib.Holdings
import Fhgfs.Nodes.TargetStateStore

/-!
# Communication with several storage servers

What the reading and the writing communication kit share: the state of one piece of work, the
counters and poll slots of all of them, the connections and node references that are taken from
the pools, and the preparation of a connection.

The pools are ledgers here. A connection or a node reference is known by the number of its
taking, so that one that is given back twice, or not at all, shows.
-/

namespace Fhgfs.Client

open Nodes

/-- An iterator over the buffer of the caller: the bytes it has passed, and those that are left. -/
structure IovIter where
  iovOffset : Nat
  count : Nat
deriving DecidableEq

namespace IovIter

def advance (iter : IovIter) (bytes : Nat) : IovIter :=
  ⟨iter.iovOffset + bytes, iter.count - bytes⟩

def truncate (iter : IovIter) (count : Nat) : IovIter :=
  if iter.count > count then { iter with count := count } else iter

end IovIter

structure PollSocketEx where
  sock : Option Nat
  revents : Bool
deriving DecidableEq

/-- The data of all states. The logging flags are left out. -/
structure RWfileStatesHelper where
  isBuddyMirror : Bool
  connRetriesEnabled : Bool
  maxNumRetries : Nat
  numRetryWaiters : Nat
  numDone : Nat
  numAcquiredConns : Int
  numUnconnectable : Nat
  pollTimedOut : Bool
  pollSocks : Nat → PollSocketEx
  numPollSocks : Nat
  currentRetryNum : Nat
  socks : Loans
  nodes : Loans

/-- The state of one piece of work, for the stages of a read or of a write. `own` is what only the
one or the other has. -/
structure RWfileState (σ δ : Type) where
  stage : σ
  transmitted : Nat
  toBeTransmitted : Nat
  pollSocksIndex : Nat
  data : IovIter
  offset : Int64
  targetID : UInt16
  useBuddyMirrorSecond : Bool
  node : Option Nat
  sock : Option Nat
  nodeResult : Int
  expectedNodeResult : Int
  own : δ

namespace RWfileStatesHelper

variable {σ δ : Type}

/-- The beginning of a communication, with the poll slots of the caller. -/
def start (isBuddyMirror connRetriesEnabled : Bool) (maxNumRetries : Nat)
    (pollSocks : Nat → PollSocketEx) : RWfileStatesHelper where
  isBuddyMirror := isBuddyMirror
  connRetriesEnabled := connRetriesEnabled
  maxNumRetries := maxNumRetries
  numRetryWaiters := 0
  numDone := 0
  numAcquiredConns := 0
  numUnconnectable := 0
  pollTimedOut := false
  pollSocks := pollSocks
  numPollSocks := 0
  currentRetryNum := 0
  socks := .empty
  nodes := .empty

def releaseStreamSocket (h : RWfileStatesHelper) (sock : Option Nat) : RWfileStatesHelper :=
  { h with
    socks := h.socks.giveBack sock
    numAcquiredConns := h.numAcquiredConns - 1 }

def invalidateStreamSocket (h : RWfileStatesHelper) (sock : Option Nat) : RWfileStatesHelper :=
  { h with
    socks := h.socks.giveBack sock
    numAcquiredConns := h.numAcquiredConns - 1 }

/-- `AddStateSockToPollSocks`. The slot is overwritten. -/
def addStateSockToPollSocks (h : RWfileStatesHelper) (s : RWfileState σ δ) :
    RWfileStatesHelper × RWfileState σ δ :=
  ({ h with
      pollSocks := Function.update h.pollSocks h.numPollSocks ⟨s.sock, false⟩
      numPollSocks := h.numPollSocks + 1 },
    { s with pollSocksIndex := h.numPollSocks })

/-- `NodeStoreEx_releaseNode`, which sets the pointer to NULL. -/
def releaseNode (h : RWfileStatesHelper) (s : RWfileState σ δ) :
    RWfileStatesHelper × RWfileState σ δ :=
  ({ h with nodes := h.nodes.giveBack s.node }, { s with node := none })

def hasRetriesLeft (h : RWfileStatesHelper) : Bool :=
  h.connRetriesEnabled && (h.maxNumRetries == 0 || decide (h.currentRetryNum < h.maxNumRetries))

end RWfileStatesHelper

/-! ## The preparation -/

/-- What the stores of the client say during a preparation, and whether there is a connection. -/
structure PrepareInput where
  getTargetID : UInt16 → Bool → UInt16
  getState : UInt16 → Option CombinedTargetState
  getNodeID : UInt16 → UInt16
  isKnownNode : UInt16 → Bool
  acquireStreamSocketEx : Bool → Bool
  msgLength : Nat

inductive Prepared
  | cleanup
  | unconnectable
  | connected
deriving DecidableEq

section Prepare

variable {σ δ : Type}

def unusableTargetState (isBuddyMirror : Bool) : Option CombinedTargetState → Bool
  | none => true
  | some targetState =>
    targetState.reachabilityState == .OFFLINE ||
      isBuddyMirror && targetState.consistencyState != TargetConsistencyState.GOOD

/-- The target of the connection. The given ID may be that of a buddy group. -/
def nodeReferenceTargetID (i : PrepareInput) (isBuddyMirror : Bool) (s : RWfileState σ δ) :
    UInt16 :=
  if isBuddyMirror then i.getTargetID s.targetID s.useBuddyMirrorSecond else s.targetID

def prepare (i : PrepareInput) (h : RWfileStatesHelper) (s : RWfileState σ δ) :
    Prepared × RWfileStatesHelper × RWfileState σ δ :=
  let allowWaitForConn := decide (h.numAcquiredConns = 0)
  let target := nodeReferenceTargetID i h.isBuddyMirror s
  let s := { s with sock := none, nodeResult := -FhgfsOpsErr.COMMUNICATION.code }
  if h.isBuddyMirror ∧ target = 0 then
    (.cleanup, h, { s with nodeResult := -FhgfsOpsErr.UNKNOWNTARGET.code })
  else if unusableTargetState h.isBuddyMirror (i.getState target) then
    (.cleanup, h, s)
  else if i.getNodeID target = 0 then
    (.cleanup, h, { s with node := none, nodeResult := -FhgfsOpsErr.UNKNOWNTARGET.code })
  else if !i.isKnownNode (i.getNodeID target) then
    (.cleanup, h, { s with node := none, nodeResult := -FhgfsOpsErr.UNKNOWNNODE.code })
  else
    let s := { s with node := some h.nodes.taken }
    let h := { h with nodes := h.nodes.take }
    if !i.acquireStreamSocketEx allowWaitForConn then
      if allowWaitForConn then (.cleanup, h, s)
      else
        let released := h.releaseNode s
        (.unconnectable, { released.1 with numUnconnectable := h.numUnconnectable + 1 }, released.2)
    else
      (.connected,
        { h with
          socks := h.socks.take
          numAcquiredConns := h.numAcquiredConns + 1 },
        { s with
          sock := some h.socks.taken
          transmitted := 0
          toBeTransmitted := i.msgLength })

end Prepare

/-! ## The poll -/

/-- The result of `poll`, and the slots with events. -/
structure PollInput where
  pollRes : Int
  revents : Nat → Bool

/-- The wait is without a time-out if some state is ready to do something. -/
def pollStateSocks (i : PollInput) (numStates : Nat) (h : RWfileStatesHelper) :
    RWfileStatesHelper :=
  let numWaiters := h.numPollSocks + h.numRetryWaiters + h.numDone + h.numUnconnectable
  let waits := !decide (numWaiters < numStates)
  let h := { h with
    pollSocks := fun slot => { h.pollSocks slot with
      revents := (h.pollSocks slot).revents || decide (slot < h.numPollSocks) && i.revents slot } }
  if waits ∧ i.pollRes ≤ 0 ∨ i.pollRes < 0 then { h with pollTimedOut := true } else h

/-! ## The start of a retry -/

/-- What the target state store has for the state of a retry. The state of a target that is not
found is what was in memory. -/
structure RetryInput where
  getTargetID : UInt16 → Bool → UInt16
  getState : UInt16 → Bool × CombinedTargetState

/-- What becomes of a state that waits for a retry. -/
inductive RetryChoice
  | cancel
  | switchToBuddy
  | waitForState
  | normal
deriving DecidableEq

/-- The states of the target and its buddy, and whether they are known. -/
structure RetryTargets where
  isSameTarget : Bool
  getTargetStateRes : Bool
  targetState : CombinedTargetState
  getBuddyTargetStateRes : Bool
  buddyTargetState : CombinedTargetState
deriving DecidableEq

namespace RetryTargets

/-- No more retries when both buddies are offline. -/
def bothOffline (t : RetryTargets) : Bool :=
  !t.getTargetStateRes && (!t.isSameTarget && !t.getBuddyTargetStateRes) ||
    t.targetState.reachabilityState == .OFFLINE && t.buddyTargetState.reachabilityState == .OFFLINE

def notGood (state : CombinedTargetState) : Bool :=
  state.reachabilityState != .ONLINE || state.consistencyState != TargetConsistencyState.GOOD

end RetryTargets

section Retry

variable {σ δ : Type}

def retryTargets (i : RetryInput) (isBuddyMirror : Bool) (s : RWfileState σ δ) : RetryTargets :=
  let targetID :=
    if isBuddyMirror then i.getTargetID s.targetID s.useBuddyMirrorSecond else s.targetID
  let buddyTargetID :=
    if isBuddyMirror then i.getTargetID s.targetID (!s.useBuddyMirrorSecond) else s.targetID
  let target := i.getState targetID
  let buddy := if targetID = buddyTargetID then (true, target.2) else i.getState buddyTargetID
  ⟨decide (targetID = buddyTargetID), target.1, target.2, buddy.1, buddy.2⟩

/-- The loop over the states that wait. It ends early at a state that is cancelled. The results
are whether retries are cancelled, and whether they are reset. -/
def retryLoop (retryWait prepare : σ) [DecidableEq σ] (choice : RWfileState σ δ → RetryChoice) :
    List (RWfileState σ δ) → Bool → Bool × Bool × List (RWfileState σ δ)
  | [], resetRetries => (false, resetRetries, [])
  | s :: states, resetRetries =>
    if s.stage = retryWait then
      match choice s with
      | .cancel => (true, resetRetries, s :: states)
      | .switchToBuddy =>
        let rest := retryLoop retryWait prepare choice states true
        (rest.1, rest.2.1, { s with
          useBuddyMirrorSecond := !s.useBuddyMirrorSecond
          stage := prepare } :: rest.2.2)
      | .waitForState =>
        let rest := retryLoop retryWait prepare choice states true
        (rest.1, rest.2.1, { s with stage := prepare } :: rest.2.2)
      | .normal =>
        let rest := retryLoop retryWait prepare choice states resetRetries
        (rest.1, rest.2.1, { s with stage := prepare } :: rest.2.2)
    else
      let rest := retryLoop retryWait prepare choice states resetRetries
      (rest.1, rest.2.1, s :: rest.2.2)

def cancelLoop (retryWait prepare done : σ) [DecidableEq σ] :
    List (RWfileState σ δ) → Nat → Nat × List (RWfileState σ δ)
  | [], numDone => (numDone, [])
  | s :: states, numDone =>
    if s.stage ≠ retryWait ∧ s.stage ≠ prepare then
      let rest := cancelLoop retryWait prepare done states numDone
      (rest.1, s :: rest.2)
    else
      let rest := cancelLoop retryWait prepare done states (numDone + 1)
      (rest.1, { s with stage := done } :: rest.2)

def startRetry (retryWait prepare done : σ) [DecidableEq σ]
    (choice : RWfileState σ δ → RetryChoice) (h : RWfileStatesHelper)
    (states : List (RWfileState σ δ)) : RWfileStatesHelper × List (RWfileState σ δ) :=
  let h := { h with numRetryWaiters := 0, pollTimedOut := false }
  let retried := retryLoop retryWait prepare choice states false
  if retried.1 then
    let cancelled := cancelLoop retryWait prepare done retried.2.2 h.numDone
    ({ h with numDone := cancelled.1 }, cancelled.2)
  else if retried.2.1 then ({ h with currentRetryNum := 0 }, retried.2.2)
  else ({ h with currentRetryNum := h.currentRetryNum + 1 }, retried.2.2)

end Retry

/-! ## The rounds -/

/-- The outcomes of a round: for each state, of the poll, and for a retry. -/
structure RoundInput (ι : Type) where
  stages : Nat → ι
  poll : PollInput
  retry : RetryInput

section Rounds

variable {σ δ ι : Type}

/-- Each state, beginning with number `k`, does something. -/
def statesLoop (step : ι → RWfileStatesHelper → RWfileState σ δ →
      RWfileStatesHelper × RWfileState σ δ) (i : Nat → ι) :
    Nat → RWfileStatesHelper → List (RWfileState σ δ) → RWfileStatesHelper × List (RWfileState σ δ)
  | _, h, [] => (h, [])
  | k, h, s :: states =>
    let stepped := step (i k) h s
    let rest := statesLoop step i (k + 1) stepped.1 states
    (rest.1, stepped.2 :: rest.2)

def roundBeforePoll (step : ι → RWfileStatesHelper → RWfileState σ δ →
      RWfileStatesHelper × RWfileState σ δ) (i : RoundInput ι)
    (c : RWfileStatesHelper × List (RWfileState σ δ)) :
    RWfileStatesHelper × List (RWfileState σ δ) :=
  statesLoop step i.stages 0 { c.1 with numUnconnectable := 0, numPollSocks := 0 } c.2

def round (step : ι → RWfileStatesHelper → RWfileState σ δ →
      RWfileStatesHelper × RWfileState σ δ)
    (start : RetryInput → RWfileStatesHelper → List (RWfileState σ δ) →
      RWfileStatesHelper × List (RWfileState σ δ))
    (c : RWfileStatesHelper × List (RWfileState σ δ)) (i : RoundInput ι) :
    RWfileStatesHelper × List (RWfileState σ δ) :=
  let c := roundBeforePoll step i c
  if c.1.numPollSocks ≠ 0 then (pollStateSocks i.poll c.2.length c.1, c.2)
  else if c.1.numRetryWaiters ≠ 0 ∧ c.1.numDone + c.1.numRetryWaiters = c.2.length then
    start i.retry c.1 c.2
  else c

end Rounds

end Fhgfs.Client
