import Fhgfs.Mirror.AcknowledgedWrites
import Fhgfs.Resync.DirSyncSlave

/-!
# The locks of all requests

Writes and the directories of a resync unlock every chunk that they have locked. The other three
changes of a mirrored chunk take the error `COMMUNICATION` in the response of the secondary for a
communication that failed, and end with the chunk locked. That is the only way to keep a lock.
Without it, threads that work on such requests in any order leave no lock behind.
-/

namespace Fhgfs

open Option List Bool
open LockEvent (Balanced balanced_lock_unlock balanced_nil not_balanced_lock)

namespace Mirror

namespace MirroredRequest

variable {σ : Type} {msg : MirroredRequest}

/-- The result in the response of the secondary, if there is one. -/
def secondaryRes (msg : MirroredRequest) : Option FhgfsOpsErr :=
  match requestResponseTarget msg.attempts 0 msg.outTargetReachabilityState with
  | some (.ok secondaryRes, _) => some secondaryRes
  | _ => none

/-- The secondary answers a request of its primary with `COMMUNICATION` during a resync. -/
structure KeepsChunkLocked (msg : MirroredRequest) : Prop where
  isBuddyMirror : msg.isBuddyMirror = true
  isPrimary : msg.isBuddyMirrorSecond = false
  hasTarget : msg.hasTarget = true
  targetFD : msg.targetFD = some .GOOD
  isBuddyResyncInProgress : msg.isBuddyResyncInProgress = true
  secondaryRes : msg.secondaryRes = some .COMMUNICATION

theorem balanced_lockChunk (msg : MirroredRequest) (chunkLocked : Bool) :
    Balanced (msg.lockChunk chunkLocked ++ msg.unlockChunk chunkLocked) := by
  cases chunkLocked with
  | false => exact balanced_nil
  | true => exact balanced_lock_unlock msg.chunkKey

variable {forwarded : Forwarded}

section

variable (h : msg.forwardToSecondary = some forwarded)
include h

/-- What `forwardToSecondary` can do. The lock is kept after every response, and if the secondary
is offline. -/
theorem forwardToSecondary_cases :
    (forwarded.outChunkLocked = false ∧ Balanced forwarded.locks) ∨
      (forwarded.locks = msg.lockChunk forwarded.outChunkLocked ∧
        (forwarded.res = some .SUCCESS ∨ ∃ res, forwarded.res = some res ∧
          msg.secondaryRes = some res ∧ msg.isBuddyMirror = true ∧
          msg.isBuddyMirrorSecond = false ∧
          forwarded.outChunkLocked = msg.isBuddyResyncInProgress)) := by
  unfold forwardToSecondary at h
  by_cases hNothing : msg.isBuddyMirror = false ∨ msg.isBuddyMirrorSecond = true
  · rw [if_pos hNothing] at h
    cases h
    exact .inl ⟨rfl, balanced_nil⟩
  rw [if_neg hNothing] at h
  cases hRequest : requestResponseTarget msg.attempts 0 msg.outTargetReachabilityState with
  | none =>
    rw [hRequest] at h
    cases h
  | some comm =>
    rw [hRequest] at h
    obtain ⟨commRes | res, state⟩ := comm
    · dsimp only at h
      by_cases hOffline : commRes = .COMMUNICATION ∧ state = .OFFLINE
      · rw [if_pos hOffline] at h
        cases h
        exact .inr ⟨rfl, .inl rfl⟩
      · rw [if_neg hOffline] at h
        cases h
        exact .inl ⟨rfl, balanced_lockChunk msg _⟩
    · dsimp only at h
      split_ifs at h with hUnknown
      · cases h
        exact .inr ⟨rfl, .inl rfl⟩
      · cases h
        refine .inr ⟨rfl, .inr ⟨res, rfl, ?_, ?_, ?_, rfl⟩⟩
        · rw [MirroredRequest.secondaryRes, hRequest]
        · exact eq_true_of_not_eq_false fun hNot => hNothing (.inl hNot)
        · exact eq_false_of_ne_true fun hSecond => hNothing (.inr hSecond)

theorem balanced_respond (clientErrRes : FhgfsOpsErr) (changed : σ) :
    Balanced (msg.respond clientErrRes changed forwarded).locks := by
  unfold respond
  rcases forwardToSecondary_cases h with ⟨hUnlocked, hBalanced⟩ | ⟨hLocks, -⟩
  · rw [hUnlocked]
    exact hBalanced.append balanced_nil
  · rw [hLocks]
    exact balanced_lockChunk msg _

theorem balanced_of_throws (hThrows : forwarded.res = none) : Balanced forwarded.locks := by
  rcases forwardToSecondary_cases h with ⟨-, hBalanced⟩ | ⟨-, hRes | ⟨res, hRes, -⟩⟩
  · exact hBalanced
  · rw [hThrows] at hRes
    cases hRes
  · rw [hThrows] at hRes
    cases hRes

/-- With the result `COMMUNICATION` the chunk is not locked, unless the secondary has sent it. -/
theorem balanced_of_communication (hComm : forwarded.res = some .COMMUNICATION)
    (hTarget : msg.isBuddyMirror = true → msg.hasTarget = true)
    (hGood : msg.isBuddyMirror = true → msg.isBuddyMirrorSecond = false → msg.targetFD = some .GOOD)
    (hNot : ¬ msg.KeepsChunkLocked) : Balanced forwarded.locks := by
  rcases forwardToSecondary_cases h with
    ⟨-, hBalanced⟩ | ⟨hLocks, hRes | ⟨res, hRes, hSecondary, hMirror, hPrimary, hLocked⟩⟩
  · exact hBalanced
  · rw [hComm] at hRes
    cases hRes
  rw [hComm] at hRes
  cases hRes
  cases hResync : msg.isBuddyResyncInProgress with
  | true =>
    exact (hNot ⟨hMirror, hPrimary, hTarget hMirror, hGood hMirror hPrimary, hResync,
      hSecondary⟩).elim
  | false =>
    rw [hLocks, hLocked, hResync]
    exact balanced_nil

end

variable {change : σ → FhgfsOpsErr × σ} {unchanged : σ}

theorem balanced_processIncoming (hNot : ¬ msg.KeepsChunkLocked) {handled : Handled σ}
    (h : msg.processIncoming change unchanged = some handled) : Balanced handled.locks := by
  unfold processIncoming at h
  by_cases hNoTarget : msg.isBuddyMirror = true ∧ msg.hasTarget = false
  · rw [if_pos hNoTarget] at h
    cases h
    exact balanced_nil
  rw [if_neg hNoTarget] at h
  cases hFD : msg.targetFD with
  | none =>
    rw [hFD] at h
    split_ifs at h with hMirror
    · cases h
      exact balanced_nil
    · cases h
      exact balanced_nil
  | some consistencyState =>
    rw [hFD] at h
    dsimp only at h
    by_cases hRefuse : consistencyState ≠ .GOOD ∧ msg.isBuddyMirror = true ∧
        msg.isBuddyMirrorSecond = false
    · rw [if_pos hRefuse] at h
      cases h
      exact balanced_nil
    rw [if_neg hRefuse] at h
    cases hForward : msg.forwardToSecondary with
    | none =>
      rw [hForward] at h
      cases h
    | some forwarded =>
      rw [hForward] at h
      dsimp only at h
      split at h
      next hThrows =>
        cases h
        exact balanced_of_throws hForward hThrows
      next hSuccess =>
        cases h
        exact balanced_respond hForward _ _
      next hComm =>
        cases h
        apply balanced_of_communication hForward hComm
        · intro hMirror
          exact eq_true_of_not_eq_false fun hMissing => hNoTarget ⟨hMirror, hMissing⟩
        · intro hMirror hPrimary
          rw [hFD]
          by_contra hBad
          exact hRefuse ⟨fun hGood => hBad (congrArg some hGood), hMirror, hPrimary⟩
        · exact hNot
      next err hNotSuccess hNotComm hErr =>
        cases h
        exact balanced_respond hForward _ _

theorem processIncoming_of_keepsChunkLocked (h : msg.KeepsChunkLocked)
    (change : σ → FhgfsOpsErr × σ) (unchanged : σ) :
    ∃ handled, msg.processIncoming change unchanged = some handled ∧ ¬ Balanced handled.locks := by
  obtain ⟨hMirror, hPrimary, hTarget, hGood, hResync, hSecondary⟩ := h
  have hForward : msg.forwardToSecondary =
      some ⟨some .COMMUNICATION, true, false, msg.lockChunk true⟩ := by
    unfold MirroredRequest.secondaryRes at hSecondary
    split at hSecondary
    next res state hRequest =>
      cases hSecondary
      unfold forwardToSecondary
      rw [if_neg (by simp [hMirror, hPrimary]), hRequest, hResync]
      rfl
    next => cases hSecondary
  refine ⟨skipResponse unchanged ⟨some .COMMUNICATION, true, false, msg.lockChunk true⟩, ?_,
    not_balanced_lock msg.chunkKey⟩
  unfold processIncoming
  rw [if_neg (by simp [hTarget]), hGood]
  dsimp only
  rw [if_neg (by simp), hForward]

theorem balanced_processIncoming_iff :
    (∀ handled, msg.processIncoming change unchanged = some handled → Balanced handled.locks) ↔
      ¬ msg.KeepsChunkLocked := by
  constructor
  · intro h hKeeps
    obtain ⟨handled, hHandled, hNot⟩ := processIncoming_of_keepsChunkLocked hKeeps change unchanged
    exact hNot (h handled hHandled)
  · intro hNot handled h
    exact balanced_processIncoming hNot h

end MirroredRequest

namespace TruncLocalFileMsg

variable {msg : TruncLocalFileMsg}

theorem forwardToSecondary_eq {forwarded : Forwarded} (s : TruncState)
    (h : msg.forwardToSecondary = some forwarded) :
    ∃ res s', msg.toTruncLocalFile.forwardToSecondary s = (res, s') ∧ s'.chunk = s.chunk ∧
      s'.buddyNeedsResync = (s.buddyNeedsResync || forwarded.buddyNeedsResync) ∧
      (res = forwarded.res ∨ res = none ∧ forwarded.res = some .COMMUNICATION) := by
  unfold MirroredRequest.forwardToSecondary at h
  unfold TruncLocalFile.forwardToSecondary
  by_cases hNothing : msg.isBuddyMirror = false ∨ msg.isBuddyMirrorSecond = true
  · rw [if_pos hNothing] at h ⊢
    cases h
    exact ⟨_, _, rfl, rfl, (Bool.or_false _).symm, .inl rfl⟩
  rw [if_neg hNothing] at h ⊢
  cases hRequest : requestResponseTarget msg.attempts 0 msg.outTargetReachabilityState with
  | none =>
    rw [hRequest] at h
    cases h
  | some comm =>
    rw [hRequest] at h
    obtain ⟨commRes | res, state⟩ := comm
    · dsimp only at h ⊢
      by_cases hOffline : commRes = .COMMUNICATION ∧ state = .OFFLINE
      · rw [if_pos hOffline] at h ⊢
        cases h
        exact ⟨_, _, rfl, rfl, (Bool.or_true _).symm, .inl rfl⟩
      rw [if_neg hOffline] at h ⊢
      cases h
      refine ⟨_, _, rfl, rfl, (Bool.or_false _).symm, ?_⟩
      split_ifs
      · exact .inr ⟨rfl, rfl⟩
      · exact .inl rfl
    · dsimp only at h ⊢
      by_cases hUnknown : res = .UNKNOWNTARGET
      · rw [if_pos hUnknown] at h ⊢
        cases h
        exact ⟨_, _, rfl, rfl, (Bool.or_true _).symm, .inl rfl⟩
      · rw [if_neg hUnknown] at h ⊢
        cases h
        exact ⟨_, _, rfl, rfl, (Bool.or_false _).symm, .inl rfl⟩

theorem processIncoming_eq {chunk : Option Chunk} {handled : Handled (Option Chunk)}
    (hSend : msg.sendResponse = true) (h : msg.processIncoming chunk = some handled) :
    (msg.toTruncLocalFile.processIncoming chunk).1 = handled.answer ∧
      (msg.toTruncLocalFile.processIncoming chunk).2.chunk = handled.changed ∧
      (msg.toTruncLocalFile.processIncoming chunk).2.buddyNeedsResync =
        handled.buddyNeedsResync := by
  have hAnswer (err : FhgfsOpsErr) : (if msg.sendResponse then some err else none) = some err :=
    if_pos hSend
  unfold processIncoming MirroredRequest.processIncoming at h
  unfold TruncLocalFile.processIncoming
  dsimp only
  by_cases hNoTarget : msg.isBuddyMirror = true ∧ msg.hasTarget = false
  · rw [if_pos hNoTarget] at h ⊢
    cases h
    exact ⟨(hAnswer _).symm, rfl, rfl⟩
  rw [if_neg hNoTarget] at h ⊢
  cases hFD : msg.targetFD with
  | none =>
    rw [hFD] at h
    split_ifs at h ⊢ with hMirror
    · cases h
      exact ⟨rfl, rfl, rfl⟩
    · cases h
      exact ⟨(hAnswer _).symm, rfl, rfl⟩
  | some consistencyState =>
    rw [hFD] at h
    dsimp only at h ⊢
    by_cases hRefuse : consistencyState ≠ .GOOD ∧ msg.isBuddyMirror = true ∧
        msg.isBuddyMirrorSecond = false
    · rw [if_pos hRefuse] at h ⊢
      cases h
      exact ⟨rfl, rfl, rfl⟩
    rw [if_neg hRefuse] at h ⊢
    cases hForward : msg.forwardToSecondary with
    | none =>
      rw [hForward] at h
      cases h
    | some forwarded =>
      obtain ⟨res, s', hEq, hChunk, hMarker, hRes⟩ :=
        forwardToSecondary_eq ⟨chunk, false, none⟩ hForward
      rw [hForward] at h
      rw [hEq]
      dsimp only at h
      rcases hRes with rfl | ⟨rfl, hComm⟩
      · split at h
        next hThrows =>
          cases h
          rw [hThrows]
          exact ⟨rfl, hChunk, hMarker⟩
        next hSuccess =>
          cases h
          rw [hSuccess]
          dsimp only
          rw [hChunk]
          exact ⟨(hAnswer _).symm, rfl, hMarker⟩
        next hComm =>
          cases h
          rw [hComm]
          exact ⟨rfl, hChunk, hMarker⟩
        next err hNotSuccess hNotComm hErr =>
          cases h
          simp only [hErr]
          exact ⟨(hAnswer _).symm, hChunk, hMarker⟩
      · rw [hComm] at h
        cases h
        exact ⟨rfl, hChunk, hMarker⟩

end TruncLocalFileMsg

namespace WriteLocalFileMsg

variable {msg : WriteLocalFileMsg} {chunk : Chunk}

theorem refuse_eq (err : FhgfsOpsErr) (s : WriteState) :
    msg.refuse err s = msg.endWrite (msg.refuseWrite err s) := by
  unfold WriteLocalFile.refuse refuseWrite
  rcases msg.incrementalRecvPadding msg.count msg.count msg.count s with ⟨_ | _, s'⟩
  · rfl
  · rfl

theorem processIncoming_eq :
    (msg.processIncoming chunk).1 = msg.toWriteLocalFile.processIncoming chunk := by
  unfold processIncoming WriteLocalFile.processIncoming
  by_cases hQuota : msg.quotaExceeded = true
  · rw [if_pos hQuota, if_pos hQuota, refuse_eq]
    rcases hRefuse : msg.refuseWrite .DQUOT (WriteLocalFile.start chunk) with ⟨_ | res, s⟩
    · -- without a connection there is nothing to finish
      rcases hPadding : msg.incrementalRecvPadding msg.count msg.count msg.count
        (WriteLocalFile.start chunk) with ⟨padded, s'⟩
      have hSock := (WriteLocalFile.incrementalRecvPadding_none rfl hPadding).2
      unfold refuseWrite at hRefuse
      rw [hPadding] at hRefuse
      obtain rfl : s' = s := (Prod.mk.inj hRefuse).2
      dsimp only [endWrite]
      rw [WriteLocalFile.finishMirroring, hSock]
    · rfl
  · rw [if_neg hQuota, if_neg hQuota]
    unfold writeChunk
    by_cases hOpen : msg.openRes ≠ .SUCCESS
    · rw [if_pos hOpen, if_pos hOpen, refuse_eq]
    rw [if_neg hOpen, if_neg hOpen]
    rcases msg.prepareMirroring (WriteLocalFile.start chunk) with ⟨prepMirrorRes, s⟩
    dsimp only
    by_cases hPrepare : prepMirrorRes ≠ .SUCCESS
    · rw [if_pos hPrepare, if_pos hPrepare, refuse_eq]
    · rw [if_neg hPrepare, if_neg hPrepare]
      rcases msg.incrementalRecvAndWriteStateful s with ⟨_ | res, s'⟩
      · rfl
      · rfl

theorem balanced_processIncoming : Balanced (msg.processIncoming chunk).2 := by
  unfold processIncoming
  by_cases hQuota : msg.quotaExceeded = true
  · rw [if_pos hQuota]
    split
    · exact balanced_nil
    · exact balanced_nil
  · rw [if_neg hQuota]
    cases msg.isMirrorSession && msg.isBuddyResyncInProgress with
    | false => exact balanced_nil
    | true => exact balanced_lock_unlock (msg.targetID, msg.fileID)

end WriteLocalFileMsg

end Mirror

namespace Resync

open Mirror (ChunkKey ChunkLockEvent MirroredRequest)

/-- What works with the locks of `ChunkLockStore`. -/
inductive ChunkRequest where
  | write (msg : Mirror.WriteLocalFileMsg) (chunk : Mirror.Chunk)
  | trunc (msg : Mirror.TruncLocalFileMsg) (chunk : Option Mirror.Chunk)
  | unlink (msg : Mirror.UnlinkLocalFileMsg) (chunk : Option Mirror.Chunk)
  | setAttr (msg : Mirror.SetLocalAttrMsg) (attribs : Option Mirror.ChunkAttribs)
  | syncDir (dir : DirSync)

namespace ChunkRequest

/-- What the request does with the locks until it returns. -/
def locks : ChunkRequest → Option (List ChunkLockEvent)
  | write msg chunk => some (msg.processIncoming chunk).2
  | trunc msg chunk => (msg.processIncoming chunk).map (·.locks)
  | unlink msg chunk => (msg.processIncoming chunk).map (·.locks)
  | setAttr msg attribs => (msg.processIncoming attribs).map (·.locks)
  | syncDir dir => dir.doSync.map Prod.snd

def KeepsChunkLocked : ChunkRequest → Prop
  | trunc msg _ => msg.toMirroredRequest.KeepsChunkLocked
  | unlink msg _ => msg.toMirroredRequest.KeepsChunkLocked
  | setAttr msg _ => msg.toMirroredRequest.KeepsChunkLocked
  | write _ _ | syncDir _ => False

/-- A request unlocks every chunk that it has locked once, and nothing else, however its steps
end. Only an answer `COMMUNICATION` of the secondary makes an exception. -/
theorem balanced_locks_iff (request : ChunkRequest) :
    (∀ locks, request.locks = some locks → Balanced locks) ↔ ¬ request.KeepsChunkLocked := by
  have hForwarded {σ : Type} {msg : MirroredRequest} {change : σ → FhgfsOpsErr × σ}
      {unchanged : σ} :
      (∀ locks, (msg.processIncoming change unchanged).map (·.locks) = some locks →
        Balanced locks) ↔ ¬ msg.KeepsChunkLocked := by
    have hAll : (∀ handled, msg.processIncoming change unchanged = some handled →
        Balanced handled.locks) ↔ ¬ msg.KeepsChunkLocked :=
      MirroredRequest.balanced_processIncoming_iff
    rw [← hAll]
    constructor
    · intro h handled hHandled
      exact h _ (by rw [hHandled, map_some])
    · intro h locks hLocks
      obtain ⟨handled, hHandled, rfl⟩ := map_eq_some_iff.mp hLocks
      exact h handled hHandled
  cases request with
  | write msg chunk =>
    refine iff_of_true ?_ id
    intro locks h
    cases h
    exact Mirror.WriteLocalFileMsg.balanced_processIncoming
  | trunc msg chunk => exact hForwarded
  | unlink msg chunk => exact hForwarded
  | setAttr msg attribs => exact hForwarded
  | syncDir dir =>
    refine iff_of_true ?_ id
    intro locks h
    obtain ⟨⟨retVal, locks'⟩, hSync, rfl⟩ := map_eq_some_iff.mp h
    exact balanced_doSync hSync

/-- The primary unlinks a chunk during a resync, and the secondary answers with `COMMUNICATION`. -/
def failingRequest : Mirror.UnlinkLocalFileMsg where
  targetID := 1
  entryID := "0-5CA1AB1E-1"
  isBuddyMirror := true
  isBuddyMirrorSecond := false
  hasTarget := true
  targetFD := some .GOOD
  isBuddyResyncInProgress := true
  attempts := [⟨true, some ⟨.ONLINE, .NEEDS_RESYNC⟩, true, true, .SUCCESS, .COMMUNICATION, false⟩]
  outTargetReachabilityState := .ONLINE
  sendGenericResponse := true
  sendResponse := true
  unlinkat := none

theorem not_balanced_failingRequest :
    ¬ ∀ locks, (unlink failingRequest none).locks = some locks → Balanced locks := by
  intro h
  exact not_balanced_lock _ (h [.lock (1, "0-5CA1AB1E-1")] rfl)

/-! ## Many threads -/

/-- What a thread does that works on one request after the other. -/
def threadLocks (requests : List ChunkRequest) : List ChunkLockEvent :=
  requests.flatMap fun request => request.locks.getD []

theorem balanced_threadLocks {requests : List ChunkRequest}
    (h : ∀ request ∈ requests, ∀ locks, request.locks = some locks → Balanced locks) :
    Balanced (threadLocks requests) := by
  induction requests with
  | nil => exact balanced_nil
  | cons request requests ih =>
    have hRest := ih fun request' hIn => h request' (mem_cons_of_mem _ hIn)
    unfold threadLocks
    rw [flatMap_cons]
    refine Balanced.append ?_ hRest
    cases hLocks : request.locks with
    | none => exact balanced_nil
    | some locks => exact h request mem_cons_self locks hLocks

/-- In any order of the steps of all threads, no chunk is unlocked that is not locked, and after
the last request no chunk is locked. -/
theorem unlocked_of_threads {θ : Type} [DecidableEq θ] (requests : θ → List ChunkRequest)
    (h : ∀ t, ∀ request ∈ requests t, ∀ locks, request.locks = some locks → Balanced locks)
    (schedule : List θ) :
    let s := Run.after LockThreads.step ⟨∅, fun t => threadLocks (requests t), 0⟩ schedule
    s.missing = 0 ∧ ((∀ t, s.todo t = []) → s.locked = ∅) :=
  LockThreads.unlocked_of_balanced (fun t => balanced_threadLocks (h t)) schedule

/-- Two threads unlink a chunk at the same time, and the secondary answers both. -/
theorem unlocked_of_threads_unlink :
    let request := unlink { failingRequest with
      attempts := [⟨true, some ⟨.ONLINE, .NEEDS_RESYNC⟩, true, true, .SUCCESS, .SUCCESS, false⟩] }
      none
    let s := Run.after LockThreads.step ⟨∅, fun _ : Bool => threadLocks [request], 0⟩
      [true, false, true, false, false]
    s.missing = 0 ∧ ((∀ t, s.todo t = []) → s.locked = ∅) := by
  refine unlocked_of_threads (fun _ => [_]) (fun _ request hIn locks h => ?_) _
  obtain rfl := mem_singleton.mp hIn
  cases h
  exact balanced_lock_unlock (1, "0-5CA1AB1E-1")

end ChunkRequest

end Resync

end Fhgfs
