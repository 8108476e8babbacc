import Fhgfs.Nodes.TargetStateStore

/-!
# Mirrored requests and a resync job

One buddy group on the server of its primary: the workers that process mirrored writes and
truncates, and `BuddyResyncJob`. A step is one access to what they share: the chunks of both
targets, the chunk locks, the marker, the flag of the job and the states of the targets.

Requests are numbered in the order they come in, and a chunk is the list of the requests that
modified it. The job copies a chunk as a whole here; `ChunkResync` has its blocks.
-/

namespace Fhgfs.Resync

open Nodes (CombinedTargetState)

inductive BuddyResyncJobStatus
  | NOTSTARTED
  | RUNNING
  | SUCCESS
  | INTERRUPTED
  | FAILURE
  | ERRORS
deriving DecidableEq

inductive RequestType
  | write
  | trunc
deriving DecidableEq

/-- How far a request is with `isBuddyResyncInProgress` and the lock of its chunk. -/
inductive ChunkLocking
  | unchecked
  | waiting
  | notLocked
  | locked
deriving DecidableEq

/-- How far a request is with the secondary. It is `off` after a worker set the marker, and
`applied` when the secondary made the modification but its response is not read yet. -/
inductive Mirroring
  | unprepared
  | off
  | sent
  | applied
  | confirmed
  | failed
deriving DecidableEq

/-- A request in the hands of a worker. `localRes` is the result of the local modification. -/
structure Work (κ : Type) where
  type : RequestType
  chunkID : κ
  modification : Nat
  locking : ChunkLocking
  mirror : Mirroring
  localRes : Option Bool
deriving DecidableEq

/-- `waiting` for the workers in `readyWorkers` and the others; `syncing` with the chunks that
are still to be copied and whether a slave had an error. -/
inductive JobPhase (κ W : Type)
  | idle
  | waiting (readyWorkers : Finset W)
  | syncing (candidates : Finset κ) (syncErrors : Bool)
  | succeeded
  | markerRemoved
  | ending
deriving DecidableEq

/-- `syncs` has the chunks that slaves hold the locks of, with what they read. `acked` lists the
requests that were answered with success. `missed` has the chunks that were modified without
the secondary when the job would not copy them any more; the code has no such record. -/
structure BuddyGroup (κ W : Type) where
  chunks : κ → List Nat
  buddyChunks : κ → List Nat
  chunkFiles : Finset κ
  secondaryState : CombinedTargetState
  buddyNeedsResync : Bool
  buddyResyncInProgress : Bool
  lockedChunks : Finset κ
  workers : W → Option (Work κ)
  job : JobPhase κ W
  syncs : List (κ × List Nat)
  status : BuddyResyncJobStatus
  received : Nat
  acked : List (κ × Nat)
  missed : Finset κ

/-- What the secondary answers, or that there is no answer. `requestResponseTarget` tries again
without one, from the look at the state. -/
inductive MirrorResponse
  | SUCCESS
  | UNKNOWNTARGET
  | error
  | retry
deriving DecidableEq

/-- `incCounter` is the work package that the job hands to every worker. `refuse` is an error
before the mirroring, `secondaryModifies` is what the secondary does with a sent request. -/
inductive WorkerStep (κ : Type)
  | incCounter
  | receive (type : RequestType) (chunkID : κ)
  | isBuddyResyncInProgress
  | lockChunk
  | refuse
  | prepareMirroring
  | secondaryModifies
  | finishMirroring (response : MirrorResponse)
  | modify (success : Bool)
  | respond
deriving DecidableEq

inductive JobStep (κ : Type)
  | setResyncInProgress
  | startSlaves
  | lockChunk (chunkID : κ)
  | syncChunk (chunkID : κ) (success : Bool)
  | fail (status : BuddyResyncJobStatus)
  | succeed
  | removeMarker
  | informBuddy
  | clearResyncInProgress
deriving DecidableEq

inductive GroupStep (κ W : Type)
  | worker (w : W) (op : WorkerStep κ)
  | job (op : JobStep κ)
  | secondaryState (state : CombinedTargetState)
deriving DecidableEq

namespace Work

variable {κ : Type} (work : Work κ)

/-- The flag was read, and the lock of the chunk is held if it was set. -/
def lockingDone : Bool :=
  decide (work.locking = .notLocked ∨ work.locking = .locked)

/-- Whether the local modification is next: a truncate waits for the secondary. -/
def mayModify : Bool :=
  decide (work.localRes = none) &&
    match work.type with
    | .write => decide (work.mirror = .off ∨ work.mirror = .sent ∨ work.mirror = .applied)
    | .trunc => decide (work.mirror = .off ∨ work.mirror = .confirmed)

def done : Bool :=
  decide (work.mirror = .failed ∨
    (work.mirror = .off ∨ work.mirror = .confirmed) ∧ work.localRes ≠ none)

end Work

namespace BuddyGroup

variable {κ W : Type} [DecidableEq κ] [DecidableEq W] [Fintype W]

def start (state : CombinedTargetState) : BuddyGroup κ W where
  chunks := fun _ => []
  buddyChunks := fun _ => []
  chunkFiles := ∅
  secondaryState := state
  buddyNeedsResync := false
  buddyResyncInProgress := false
  lockedChunks := ∅
  workers := fun _ => none
  job := .idle
  syncs := []
  status := .NOTSTARTED
  received := 0
  acked := []
  missed := ∅

variable (s : BuddyGroup κ W)

variable (w : W)

def setWork (work : Work κ) : BuddyGroup κ W :=
  { s with workers := Function.update s.workers w (some work) }

/-- The record of a modification without the secondary: the job still copies its candidates, and
one that is not `syncing` yet will find the chunk. -/
def recordMissed (chunkID : κ) : Finset κ :=
  match s.job with
  | .syncing candidates _ =>
    if chunkID ∈ candidates then s.missed else insert chunkID s.missed
  | .succeeded => insert chunkID s.missed
  | _ => s.missed

/-! ## Workers -/

def prepareMirroring (work : Work κ) : BuddyGroup κ W :=
  if s.secondaryState.reachabilityState = .OFFLINE then
    { s.setWork w { work with mirror := .off } with buddyNeedsResync := true }
  else if (s.secondaryState.reachabilityState ≠ .ONLINE ∨
      s.secondaryState.consistencyState ≠ .GOOD) ∧
      s.secondaryState.consistencyState ≠ .NEEDS_RESYNC then
    s.setWork w { work with mirror := .failed }
  else s.setWork w { work with mirror := .sent }

/-- A write reads the response after its local writes, a truncate before. -/
def finishMirroring (work : Work κ) :
    MirrorResponse → BuddyGroup κ W
  | .SUCCESS =>
    if work.mirror = .applied ∧ (work.type = .write → work.localRes ≠ none) then
      s.setWork w { work with mirror := .confirmed }
    else s
  | .UNKNOWNTARGET =>
    if work.mirror = .sent ∧ (work.type = .write → work.localRes ≠ none) then
      { s.setWork w { work with mirror := .off } with
        buddyNeedsResync := true
        missed := if work.localRes = some true then s.recordMissed work.chunkID else s.missed }
    else s
  | .error =>
    if work.mirror = .sent ∨ work.mirror = .applied then
      s.setWork w { work with mirror := .failed }
    else s
  | .retry =>
    if work.type = .trunc ∧ (work.mirror = .sent ∨ work.mirror = .applied) then
      s.setWork w { work with mirror := .unprepared }
    else s

def modify (work : Work κ) (success : Bool) : BuddyGroup κ W :=
  if success then
    { s.setWork w { work with localRes := some true } with
      chunks := Function.update s.chunks work.chunkID
        (s.chunks work.chunkID ++ [work.modification])
      chunkFiles := insert work.chunkID s.chunkFiles
      missed := if work.mirror = .off then s.recordMissed work.chunkID else s.missed }
  else s.setWork w { work with localRes := some false }

/-- The unlock and the response. It is a success if both sides say so. -/
def respond (work : Work κ) : BuddyGroup κ W :=
  { s with
    workers := Function.update s.workers w none
    lockedChunks :=
      if work.locking = .locked then s.lockedChunks.erase work.chunkID else s.lockedChunks
    acked :=
      if work.mirror ≠ .failed ∧ work.localRes = some true then
        s.acked ++ [(work.chunkID, work.modification)]
      else s.acked }

/-- A worker without a request takes the next work package. -/
def idleStep : WorkerStep κ → BuddyGroup κ W
  | .incCounter =>
    match s.job with
    | .waiting readyWorkers => { s with job := .waiting (insert w readyWorkers) }
    | _ => s
  | .receive type chunkID =>
    { s.setWork w ⟨type, chunkID, s.received, .unchecked, .unprepared, none⟩ with
      received := s.received + 1 }
  | _ => s

def workStep (work : Work κ) : WorkerStep κ → BuddyGroup κ W
  | .isBuddyResyncInProgress =>
    if work.locking = .unchecked ∧ work.mirror = .unprepared then
      s.setWork w { work with
        locking := if s.buddyResyncInProgress then .waiting else .notLocked }
    else s
  | .lockChunk =>
    if work.locking = .waiting ∧ work.chunkID ∉ s.lockedChunks then
      { s.setWork w { work with locking := .locked } with
        lockedChunks := insert work.chunkID s.lockedChunks }
    else s
  | .refuse =>
    if work.locking ≠ .waiting ∧ work.mirror = .unprepared then
      s.setWork w { work with mirror := .failed }
    else s
  | .prepareMirroring =>
    if work.lockingDone ∧ work.mirror = .unprepared then s.prepareMirroring w work else s
  | .secondaryModifies =>
    if work.mirror = .sent then
      { s.setWork w { work with mirror := .applied } with
        buddyChunks := Function.update s.buddyChunks work.chunkID
          (s.buddyChunks work.chunkID ++ [work.modification]) }
    else s
  | .finishMirroring response => s.finishMirroring w work response
  | .modify success => if work.mayModify then s.modify w work success else s
  | .respond => if work.done then s.respond w work else s
  | _ => s

/-! ## The job -/

/-- `run`, and its slaves. A slave copies a chunk between its lock and unlock, and gives up when
it sees the secondary offline. The marker goes only after success. -/
def jobStep : JobStep κ → BuddyGroup κ W
  | .setResyncInProgress =>
    match s.job with
    | .idle => { s with
      job := .waiting ∅, status := .RUNNING, buddyResyncInProgress := true, missed := ∅ }
    | _ => s
  | .startSlaves =>
    match s.job with
    | .waiting readyWorkers =>
      if ∀ w, w ∈ readyWorkers then { s with job := .syncing s.chunkFiles false } else s
    | _ => s
  | .lockChunk chunkID =>
    match s.job with
    | .syncing _ _ =>
      if chunkID ∈ s.lockedChunks then s
      else { s with
        lockedChunks := insert chunkID s.lockedChunks
        syncs := s.syncs ++ [(chunkID, s.chunks chunkID)] }
    | _ => s
  | .syncChunk chunkID success =>
    match s.job, s.syncs.lookup chunkID with
    | .syncing candidates syncErrors, some data =>
      let unlocked := { s with
        lockedChunks := s.lockedChunks.erase chunkID
        syncs := s.syncs.filter fun sync => sync.1 ≠ chunkID }
      if success ∧ s.secondaryState.reachabilityState ≠ .OFFLINE then
        { unlocked with
          buddyChunks := Function.update s.buddyChunks chunkID data
          job := .syncing (candidates.erase chunkID) syncErrors
          missed := s.missed.erase chunkID }
      else { unlocked with job := .syncing candidates true }
    | _, _ => s
  | .fail status =>
    match s.job with
    | .waiting _ => { s with job := .ending, status := .FAILURE }
    | .syncing _ syncErrors =>
      if s.syncs = [] ∧ (status = .FAILURE ∨ status = .INTERRUPTED ∨
          status = .ERRORS ∧ syncErrors = true) then
        { s with job := .ending, status := status }
      else s
    | _ => s
  | .succeed =>
    match s.job with
    | .syncing candidates syncErrors =>
      if s.syncs = [] ∧ candidates = ∅ ∧ syncErrors = false then
        { s with job := .succeeded, status := .SUCCESS }
      else s
    | _ => s
  | .removeMarker =>
    match s.job with
    | .succeeded => { s with job := .markerRemoved, buddyNeedsResync := false }
    | _ => s
  | .informBuddy =>
    match s.job with
    | .markerRemoved => { s with job := .ending }
    | _ => s
  | .clearResyncInProgress =>
    match s.job with
    | .ending => { s with job := .idle, buddyResyncInProgress := false }
    | _ => s

def step : GroupStep κ W → BuddyGroup κ W
  | .worker w op =>
    match s.workers w with
    | none => s.idleStep w op
    | some work => s.workStep w work op
  | .job op => s.jobStep op
  | .secondaryState state => { s with secondaryState := state }

/-- The marker is clear, the last job ended with success and no request is in flight. -/
def Settled : Prop :=
  s.buddyNeedsResync = false ∧ s.job = .idle ∧ s.status = .SUCCESS ∧ ∀ w, s.workers w = none

instance (s : BuddyGroup κ W) : Decidable s.Settled := by
  unfold Settled
  infer_instance

/-- Every request answered with success has modified the chunk on both targets. -/
def OnBoth : Prop :=
  ∀ request ∈ s.acked,
    request.2 ∈ s.chunks request.1 ∧ request.2 ∈ s.buddyChunks request.1

instance (s : BuddyGroup κ W) : Decidable s.OnBoth := by
  unfold OnBoth
  infer_instance

end BuddyGroup

end Fhgfs.Resync
