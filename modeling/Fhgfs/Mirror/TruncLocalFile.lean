import Fhgfs.Mirror.WriteLocalFile

/-!
# Truncations of a mirrored chunk

`TruncLocalFileMsgEx`: the primary forwards the whole message to the secondary first, with
`MessagingTk::requestResponseTarget`, and then truncates the local chunk.
-/

namespace Fhgfs.Mirror

open Nodes (CombinedTargetState TargetConsistencyState TargetReachabilityState)

def MESSAGINGTK_NUM_COMM_RETRIES : Nat := 1

/-- What one round of `requestResponseTarget` sees: the mapping and the state of the secondary,
the result of the communication, and the result in the response, if there is one. -/
structure Attempt where
  hasSecondary : Bool
  targetState : Option CombinedTargetState
  targetExists : Bool
  hasNode : Bool
  commRes : FhgfsOpsErr
  response : FhgfsOpsErr
  shallTerminate : Bool

/-- What comes out of the communication: the result in the response, or an error. -/
abbrev CommRes := Except FhgfsOpsErr FhgfsOpsErr

/-- The rounds of `requestResponseTarget`, with the retries so far and the reachability state
that was seen last. Without a further round there is no result. -/
def requestResponseTarget : List Attempt → Nat → TargetReachabilityState →
    Option (CommRes × TargetReachabilityState)
  | [], _, _ => none
  | attempt :: attempts, numRetries, outState =>
    if attempt.hasSecondary then
      match attempt.targetState with
      | none =>
        some (.error (if attempt.targetExists then .COMMUNICATION else .UNKNOWNTARGET), outState)
      | some state =>
        let outState := state.reachabilityState
        if outState = .OFFLINE then some (.error .COMMUNICATION, outState)
        else if (outState ≠ .ONLINE ∨ state.consistencyState ≠ .GOOD) ∧
            state.consistencyState ≠ .NEEDS_RESYNC then
          some (.error .COMMUNICATION, outState)
        else if attempt.hasNode then
          match attempt.commRes with
          | .SUCCESS => some (.ok attempt.response, outState)
          | .WOULDBLOCK => some (.error .COMMUNICATION, outState)
          | .AGAIN =>
            if attempt.shallTerminate then some (.error .INTERRUPTED, outState)
            else if 0 < MESSAGINGTK_NUM_COMM_RETRIES then
              requestResponseTarget attempts 1 outState
            else some (.error .AGAIN, outState)
          | .COMMUNICATION =>
            if numRetries < MESSAGINGTK_NUM_COMM_RETRIES then
              requestResponseTarget attempts (numRetries + 1) outState
            else some (.error .COMMUNICATION, outState)
          | err => some (.error err, outState)
        else some (.error .UNKNOWNNODE, outState)
    else some (.error .UNKNOWNTARGET, outState)

/-- A truncation of a chunk, and what its steps result in. `targetFD` is the consistency state of
the target, if the target is known. The reachability state is not initialized before the first
round. -/
structure TruncLocalFile where
  filesize : Int
  isBuddyMirror : Bool
  isBuddyMirrorSecond : Bool
  useQuota : Bool
  hasTarget : Bool
  targetFD : Option TargetConsistencyState
  attempts : List Attempt
  outTargetReachabilityState : TargetReachabilityState
  openat : Option SysErr
  ftruncateRes : Option SysErr
  closeRes : Option SysErr
  openChunkFile : Nat → FhgfsOpsErr

/-- The local chunk, whether `setBuddyNeedsResync` was called, and the result that the secondary
sent. -/
structure TruncState where
  chunk : Option Chunk
  buddyNeedsResync : Bool
  secondaryRes : Option FhgfsOpsErr

/-- The results of `truncateAt` that are told apart. -/
inductive TruncateRes
  | success
  | notFound
  | error (err : SysErr)
deriving DecidableEq

namespace TruncLocalFile

variable (msg : TruncLocalFile)

def ftruncate (chunk : Chunk) : Option SysErr × Chunk :=
  if msg.filesize < 0 then (some .other, chunk)
  else
    match msg.ftruncateRes with
    | some err => (some err, chunk)
    | none => (none, chunk.ftruncate msg.filesize.toNat)

def truncateAt (chunk : Option Chunk) : TruncateRes × Option Chunk :=
  match msg.openat with
  | some err => (.error err, chunk)
  | none =>
    match chunk with
    | none => (.notFound, none)
    | some chunk =>
      let (truncRes, chunk) := msg.ftruncate chunk
      match msg.closeRes.or truncRes with
      | some err => (.error err, some chunk)
      | none => (.success, some chunk)

/-- A second attempt follows for a directory of another owner. -/
def mkChunk : FhgfsOpsErr :=
  if msg.openChunkFile 0 = .NOTOWNER ∧ msg.useQuota then msg.openChunkFile 1
  else msg.openChunkFile 0

def truncFile (chunk : Option Chunk) : FhgfsOpsErr × Option Chunk :=
  match msg.truncateAt chunk with
  | (.success, chunk) => (.SUCCESS, chunk)
  | (.error err, chunk) => (fhgfsErrFromSysErr err, chunk)
  | (.notFound, chunk) =>
    if msg.filesize = 0 then (.PATHNOTEXISTS, chunk)
    else if msg.mkChunk ≠ .SUCCESS then (msg.mkChunk, chunk)
    else
      let (truncRes, chunk) := msg.ftruncate []
      match msg.closeRes.or truncRes with
      | some err => (fhgfsErrFromSysErr err, some chunk)
      | none => (.SUCCESS, some chunk)

/-- `none` if a `GenericResponseMsg` was sent, or if the request still waits for the secondary. -/
def forwardToSecondary (s : TruncState) : Option FhgfsOpsErr × TruncState :=
  if msg.isBuddyMirror = false ∨ msg.isBuddyMirrorSecond = true then (some .SUCCESS, s)
  else
    match requestResponseTarget msg.attempts 0 msg.outTargetReachabilityState with
    | none => (none, s)
    | some (.error commRes, state) =>
      if commRes = .COMMUNICATION ∧ state = .OFFLINE then
        (some .SUCCESS, { s with buddyNeedsResync := true })
      else (none, s)
    | some (.ok secondaryRes, _) =>
      let s := { s with secondaryRes := some secondaryRes }
      if secondaryRes = .UNKNOWNTARGET then (some .SUCCESS, { s with buddyNeedsResync := true })
      else (some secondaryRes, s)

/-- The answer to the requestor, `none` without a `TruncLocalFileRespMsg`. -/
def processIncoming (chunk : Option Chunk) : Option FhgfsOpsErr × TruncState :=
  let s : TruncState := ⟨chunk, false, none⟩
  if msg.isBuddyMirror ∧ msg.hasTarget = false then (some .UNKNOWNTARGET, s)
  else
    match msg.targetFD with
    | none => (if msg.isBuddyMirror then none else some .UNKNOWNTARGET, s)
    | some consistencyState =>
      if consistencyState ≠ .GOOD ∧ msg.isBuddyMirror ∧ msg.isBuddyMirrorSecond = false then
        (none, s)
      else
        match msg.forwardToSecondary s with
        | (none, s) => (none, s)
        | (some .SUCCESS, s) =>
          let (res, chunk) := msg.truncFile s.chunk
          (some (if res = .PATHNOTEXISTS ∧ msg.filesize = 0 then .SUCCESS else res),
            { s with chunk := chunk })
        -- an error `COMMUNICATION` of the secondary is taken for one of the communication
        | (some .COMMUNICATION, s) => (none, s)
        | (some err, s) => (some err, s)

/-- The chunk has got the size, and so has the one of the secondary, or the marker is set. A
missing chunk stands for one of no length. -/
structure Durable (chunk : Option Chunk) (s : TruncState) : Prop where
  truncated : s.chunk.getD [] = (chunk.getD []).ftruncate msg.filesize.toNat
  mirrored : s.secondaryRes = some .SUCCESS ∨ s.buddyNeedsResync = true

def Acknowledged (chunk : Option Chunk) : Prop :=
  (msg.processIncoming chunk).1 = some .SUCCESS → msg.Durable chunk (msg.processIncoming chunk).2

section Lemmas

variable {msg : TruncLocalFile}

theorem ftruncate_spec {chunk chunk' : Chunk} {truncRes : Option SysErr}
    (h : msg.ftruncate chunk = (truncRes, chunk')) (hRes : msg.closeRes.or truncRes = none) :
    chunk' = chunk.ftruncate msg.filesize.toNat := by
  have hTrunc : truncRes = none := (Option.or_eq_none_iff.mp hRes).2
  subst hTrunc
  unfold ftruncate at h
  split_ifs at h
  · cases h
  cases hFails : msg.ftruncateRes with
  | some err =>
    rw [hFails] at h
    cases h
  | none =>
    rw [hFails] at h
    exact (Prod.mk.inj h).2.symm

variable {chunk chunk' : Option Chunk}

theorem truncateAt_cases {truncRes : TruncateRes} (h : msg.truncateAt chunk = (truncRes, chunk')) :
    (∃ err, truncRes = .error err) ∨ truncRes = .notFound ∧ chunk = none ∧ chunk' = none ∨
      truncRes = .success ∧ chunk'.getD [] = (chunk.getD []).ftruncate msg.filesize.toNat := by
  unfold truncateAt at h
  cases hOpen : msg.openat with
  | some err =>
    rw [hOpen] at h
    exact .inl ⟨err, (Prod.mk.inj h).1.symm⟩
  | none =>
    rw [hOpen] at h
    cases chunk with
    | none =>
      cases h
      exact .inr (.inl ⟨rfl, rfl, rfl⟩)
    | some chunk =>
      rcases hTruncate : msg.ftruncate chunk with ⟨truncRes, chunk''⟩
      simp only [hTruncate] at h
      cases hRes : msg.closeRes.or truncRes with
      | some err =>
        rw [hRes] at h
        exact .inl ⟨err, (Prod.mk.inj h).1.symm⟩
      | none =>
        rw [hRes] at h
        cases h
        exact .inr (.inr ⟨rfl, ftruncate_spec hTruncate hRes⟩)

theorem truncFile_spec {res : FhgfsOpsErr} (h : msg.truncFile chunk = (res, chunk'))
    (hRes : res = .SUCCESS ∨ res = .PATHNOTEXISTS ∧ msg.filesize = 0) :
    chunk'.getD [] = (chunk.getD []).ftruncate msg.filesize.toNat := by
  have hSysErr (err : SysErr) (hErr : fhgfsErrFromSysErr err = res) : False := by
    have hNe : fhgfsErrFromSysErr err ≠ .SUCCESS ∧ fhgfsErrFromSysErr err ≠ .PATHNOTEXISTS := by
      cases err <;> decide
    rw [hErr] at hNe
    rcases hRes with hRes | hRes
    · exact hNe.1 hRes
    · exact hNe.2 hRes.1
  unfold truncFile at h
  rcases hTruncate : msg.truncateAt chunk with ⟨truncRes, chunk''⟩
  rw [hTruncate] at h
  obtain ⟨err, rfl⟩ | ⟨rfl, rfl, rfl⟩ | ⟨rfl, hTruncated⟩ := truncateAt_cases hTruncate
  · exact (hSysErr err (Prod.mk.inj h).1).elim
  · dsimp only at h
    split_ifs at h with hEmpty hCreate
    · obtain ⟨-, rfl⟩ := Prod.mk.inj h
      rw [hEmpty]
      rfl
    · obtain ⟨rfl, -⟩ := Prod.mk.inj h
      rcases hRes with hSuccess | ⟨-, hEmpty'⟩
      · exact absurd hSuccess hCreate
      · exact absurd hEmpty' hEmpty
    · rcases hNew : msg.ftruncate [] with ⟨newRes, new⟩
      simp only [hNew] at h
      cases hClose : msg.closeRes.or newRes with
      | some err =>
        rw [hClose] at h
        exact (hSysErr err (Prod.mk.inj h).1).elim
      | none =>
        rw [hClose] at h
        obtain ⟨-, rfl⟩ := Prod.mk.inj h
        exact ftruncate_spec hNew hClose
  · obtain ⟨-, rfl⟩ := Prod.mk.inj h
    exact hTruncated

/-- The secondary has truncated its chunk or the marker is set, where the local truncation goes
on. -/
theorem forwardToSecondary_spec {s s' : TruncState} (hMirror : msg.isBuddyMirror = true)
    (hPrimary : msg.isBuddyMirrorSecond = false)
    (h : msg.forwardToSecondary s = (some .SUCCESS, s')) :
    s'.chunk = s.chunk ∧ (s'.secondaryRes = some .SUCCESS ∨ s'.buddyNeedsResync = true) := by
  unfold forwardToSecondary at h
  rw [if_neg (by simp [hMirror, hPrimary])] at h
  cases hRequest : requestResponseTarget msg.attempts 0 msg.outTargetReachabilityState with
  | none =>
    rw [hRequest] at h
    cases h
  | some comm =>
    rw [hRequest] at h
    obtain ⟨commRes | secondaryRes, state⟩ := comm
    · dsimp only at h
      split_ifs at h with hOffline
      · obtain ⟨-, rfl⟩ := Prod.mk.inj h
        exact ⟨rfl, .inr rfl⟩
      · cases h
    dsimp only at h
    split_ifs at h with hUnknown
    · obtain ⟨-, rfl⟩ := Prod.mk.inj h
      exact ⟨rfl, .inr rfl⟩
    · obtain ⟨hRes, rfl⟩ := Prod.mk.inj h
      exact ⟨rfl, .inl hRes⟩

theorem acknowledged (hMirror : msg.isBuddyMirror = true)
    (hPrimary : msg.isBuddyMirrorSecond = false) (chunk : Option Chunk) :
    msg.Acknowledged chunk := by
  intro hAnswer
  rcases hProcess : msg.processIncoming chunk with ⟨answer, s'⟩
  rw [hProcess] at hAnswer
  obtain rfl : answer = some .SUCCESS := hAnswer
  unfold processIncoming at hProcess
  split_ifs at hProcess with hTarget
  · cases hProcess
  cases hFD : msg.targetFD with
  | none =>
    rw [hFD] at hProcess
    cases hProcess
  | some consistencyState =>
    rw [hFD] at hProcess
    dsimp only at hProcess
    split_ifs at hProcess with hRefuse
    · cases hProcess
    split at hProcess
    next => cases hProcess
    next s hForward =>
      obtain ⟨hChunk, hMirrored⟩ := forwardToSecondary_spec hMirror hPrimary hForward
      rcases hTrunc : msg.truncFile s.chunk with ⟨res, chunk'⟩
      simp only [hTrunc] at hProcess
      obtain ⟨hRes, rfl⟩ := Prod.mk.inj hProcess
      refine ⟨?_, hMirrored⟩
      rw [hChunk] at hTrunc
      refine truncFile_spec hTrunc ?_
      by_cases hEmpty : res = .PATHNOTEXISTS ∧ msg.filesize = 0
      · exact .inr hEmpty
      · rw [if_neg hEmpty] at hRes
        exact .inl (Option.some.inj hRes)
    next => cases hProcess
    next err s hNotSuccess hNotComm hForward =>
      exact absurd (Option.some.inj (Prod.mk.inj hProcess).1) hNotSuccess

end Lemmas

end TruncLocalFile

end Fhgfs.Mirror
