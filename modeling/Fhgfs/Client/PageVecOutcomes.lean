import Fhgfs.Client.PageVec
import Mathlib.Tactic.Ring

/-!
# What comes of an attempt

The outcome of an attempt to read or write a vector of pages, told from what was sent and
received: whether it is lost, and whether the walk over the vector had begun by then, or what the
server has reported. The stages of the communication kit meet it.
-/

namespace Fhgfs.Client

open List

inductive AttemptOutcome
  | lost (isAgain isBegun : Bool)
  | failed
  | interrupted
  | reported (bytes : Int)
deriving DecidableEq

/-- A result below zero that the server has given. -/
def errorOutcome (result : Int) (isBegun : Bool) : AttemptOutcome :=
  if result = -FhgfsOpsErr.COMMUNICATION.code then .lost false isBegun
  else if result = -FhgfsOpsErr.AGAIN.code then .lost true isBegun
  else .failed

namespace FhgfsChunkPageVec

variable (vec : FhgfsChunkPageVec)

def bytesLeft (index : Nat) : Nat := vec.getDataSize - index * vec.pageSize

/-- The pages that data begin on a page of their own. -/
def numPages (bytes : Nat) : Nat := (bytes + vec.pageSize - 1) / vec.pageSize

theorem pageSize_pos : 0 < vec.pageSize := lt_of_lt_of_le vec.used_pos vec.used_le

variable {index : Nat}

theorem bytesLeft_of_last (h : index + 1 = vec.size) :
    vec.bytesLeft index = vec.lastPageUsedDataSize := by
  have hIndex : vec.size - 1 = index := by omega
  unfold bytesLeft getDataSize
  rw [hIndex, Nat.add_sub_cancel_left]

theorem bytesLeft_of_end (h : vec.size ≤ index) : vec.bytesLeft index = 0 := by
  have hSize : (vec.size - 1 + 1) * vec.pageSize ≤ index * vec.pageSize :=
    Nat.mul_le_mul_right _ (by have := vec.size_pos; omega)
  have hUsed := vec.used_le
  unfold bytesLeft getDataSize
  rw [Nat.succ_mul] at hSize
  omega

theorem bytesLeft_of_full (index : Nat) (h : index + 1 < vec.size) :
    vec.bytesLeft index = vec.pageSize + vec.bytesLeft (index + 1) ∧
      0 < vec.bytesLeft (index + 1) := by
  have hBelow : (index + 1) * vec.pageSize ≤ (vec.size - 1) * vec.pageSize :=
    Nat.mul_le_mul_right _ (by omega)
  have hUsed := vec.used_pos
  unfold bytesLeft getDataSize
  rw [Nat.succ_mul] at hBelow ⊢
  omega

theorem bytesLeft_pos (h : index < vec.size) : 0 < vec.bytesLeft index := by
  have hUsed := vec.used_pos
  by_cases hLast : index + 1 = vec.size
  · rwa [vec.bytesLeft_of_last hLast]
  · have hFull := vec.bytesLeft_of_full index (by omega)
    omega

theorem pageLength_pos (index : Nat) : 0 < vec.pageLength index := by
  unfold pageLength
  split
  · exact vec.used_pos
  · exact vec.pageSize_pos

theorem pageLength_le (index : Nat) : vec.pageLength index ≤ vec.pageSize := by
  unfold pageLength
  split
  · exact vec.used_le
  · exact le_rfl

theorem pageLength_of_last (h : index + 1 = vec.size) :
    vec.pageLength index = vec.lastPageUsedDataSize :=
  if_pos h

theorem pageLength_of_full (h : index + 1 ≠ vec.size) : vec.pageLength index = vec.pageSize :=
  if_neg h

theorem pageLength_le_bytesLeft (h : index < vec.size) :
    vec.pageLength index ≤ vec.bytesLeft index := by
  by_cases hLast : index + 1 = vec.size
  · rw [vec.pageLength_of_last hLast, vec.bytesLeft_of_last hLast]
  · rw [vec.pageLength_of_full hLast]
    have hFull := vec.bytesLeft_of_full index (by omega)
    omega

theorem numPages_of_le {bytes : Nat} (hPos : 0 < bytes) (hLe : bytes ≤ vec.pageSize) :
    vec.numPages bytes = 1 := by
  unfold numPages
  rw [Nat.div_eq_iff vec.pageSize_pos]
  omega

theorem numPages_of_gt {bytes : Nat} (h : vec.pageSize < bytes) :
    vec.numPages bytes = vec.numPages (bytes - vec.pageSize) + 1 := by
  have hRest :
      bytes + vec.pageSize - 1 = bytes - vec.pageSize + vec.pageSize - 1 + vec.pageSize := by
    omega
  unfold numPages
  rw [hRest, Nat.add_div_right _ vec.pageSize_pos]

/-! ## The pages of a vector -/

theorem map_index_pages : vec.pages.map FhgfsPage.index = List.range vec.size := by
  unfold pages
  rw [map_map]
  exact map_id _

theorem length_pages : vec.pages.length = vec.size := by
  unfold pages
  rw [length_map, length_range]

theorem drop_pages (h : index < vec.size) :
    vec.pages.drop index = vec.page index :: vec.pages.drop (index + 1) := by
  have hLength : index < vec.pages.length := vec.length_pages.symm ▸ h
  have hPage : vec.pages[index] = vec.page index := by simp [pages]
  rw [drop_eq_getElem_cons hLength, hPage]

theorem drop_pages_of_le (h : vec.size ≤ index) : vec.pages.drop index = [] :=
  drop_eq_nil_of_le (vec.length_pages.le.trans h)

theorem getRemainingDataSize_pages : vec.getRemainingDataSize vec.pages = vec.getDataSize := by
  unfold getRemainingDataSize getDataSize
  rw [length_pages]

end FhgfsChunkPageVec

/-! ## Outcomes of the attempts -/

/-- The error by which a part ends too early, if the page that cannot be received is within
reach. -/
def missingErr (missing : Option (Nat × RecvErr)) (pageSize reach : Nat) : Option RecvErr :=
  match missing with
  | some (page, err) => if page * pageSize < reach then some err else none
  | none => none

/-- The answer to a write, of which all pages have been sent. -/
def responseOutcome : Option Int → AttemptOutcome
  | none => .lost false true
  | some writeRespValue =>
    if writeRespValue < 0 then errorOutcome writeRespValue true else .reported writeRespValue

section Outcomes

variable (vec : FhgfsChunkPageVec)

/-- The parts of a read, when the pages before a page have been received, and these bytes. -/
def partsOutcome : Nat → Int → List ReadPart → AttemptOutcome
  | index, _, [] => .lost false (index ≠ 0)
  | index, bytes, part :: parts =>
    if part.lengthInfo < 0 then errorOutcome part.lengthInfo (index ≠ 0)
    else if part.lengthInfo = 0 then .reported bytes
    else if part.lengthInfo > vec.getDataSize then .lost false (index ≠ 0)
    else
      match missingErr part.missing vec.pageSize
          (min part.lengthInfo.toNat (vec.bytesLeft index)) with
      | some .timedOut => .lost false true
      | some _ => .failed
      | none =>
        if vec.bytesLeft index < part.lengthInfo then .failed
        else
          partsOutcome (index + vec.numPages part.lengthInfo.toNat) (bytes + part.lengthInfo) parts

def ReadOutcomes.outcome (outcomes : ReadOutcomes) : AttemptOutcome :=
  if outcomes.resolveErr ≠ none then .failed
  else if outcomes.isConnected then partsOutcome vec 0 0 outcomes.parts
  else if outcomes.isSignalPending then .interrupted
  else .lost false false

def WriteOutcomes.outcome (outcomes : WriteOutcomes) : AttemptOutcome :=
  if outcomes.resolveErr ≠ none then .failed
  else if ¬outcomes.isConnected ∨ ¬outcomes.isHeaderSent then .lost false false
  else
    match (vec.pages.map fun page => outcomes.sendDataPartRes page.index).find? (· ≠ .sent) with
    | some .badAddress => .failed
    | some _ => .lost false true
    | none => responseOutcome outcomes.response

end Outcomes

namespace FhgfsCommKitVec

variable {vec : FhgfsChunkPageVec}

def Fails (result : Int) : Prop :=
  result < 0 ∧ result ≠ -FhgfsOpsErr.AGAIN.code ∧ result ≠ -FhgfsOpsErr.COMMUNICATION.code

theorem failed_ADDRESSFAULT : Fails (-FhgfsOpsErr.ADDRESSFAULT.code) :=
  ⟨by decide, by decide, by decide⟩

theorem failed_INTERNAL : Fails (-FhgfsOpsErr.INTERNAL.code) := ⟨by decide, by decide, by decide⟩

theorem failed_resolveErr (err : ResolveErr) : Fails (-err.code) := by
  cases err <;> exact ⟨by decide, by decide, by decide⟩

/-- What the communication kit has made of an attempt. -/
def Meets (vec : FhgfsChunkPageVec) (comm : FhgfsCommKitVec) : AttemptOutcome → Prop
  | .lost isAgain isBegun =>
    comm.nodeResult =
        (if isAgain then -FhgfsOpsErr.AGAIN.code else -FhgfsOpsErr.COMMUNICATION.code) ∧
      ∃ index, comm.pageIter = vec.pages.drop index ∧ (isBegun = true ↔ 0 < index)
  | .failed => Fails comm.nodeResult
  | .interrupted => comm.nodeResult = FhgfsOpsErr.INTERRUPTED.code ∧ comm.reported = none
  | .reported bytes => 0 ≤ bytes ∧ comm.nodeResult = bytes ∧ comm.reported = some bytes

variable {comm : FhgfsCommKitVec}

theorem meets_errorOutcome {result : Int} {index : Nat}
    (hResult : comm.nodeResult = result) (hNegative : result < 0)
    (hIter : comm.pageIter = vec.pages.drop index) {isBegun : Bool}
    (hBegun : isBegun = true ↔ 0 < index) : comm.Meets vec (errorOutcome result isBegun) := by
  subst hResult
  unfold errorOutcome
  split
  next hComm => exact ⟨hComm, index, hIter, hBegun⟩
  next hNotComm =>
  split
  next hAgain => exact ⟨hAgain, index, hIter, hBegun⟩
  next hNotAgain => exact ⟨hNegative, hNotAgain, hNotComm⟩

theorem stageSOCKETEXCEPTION_of_neg (h : comm.nodeResult < 0) : comm.stageSOCKETEXCEPTION = comm :=
  if_neg (not_le.mpr h)

theorem stageSOCKETEXCEPTION_of_nonneg (h : 0 ≤ comm.nodeResult) :
    comm.stageSOCKETEXCEPTION = { comm with nodeResult := -FhgfsOpsErr.COMMUNICATION.code } :=
  if_pos h

/-! ## The parts of a read -/

/-- How the pages of a part are received, with `bytes` of the part still to come. -/
structure ReceivedAs (vec : FhgfsChunkPageVec) (index bytes : Nat) (err : Option RecvErr)
    (received : ReceivedPages) : Prop where
  error : ∀ e, err = some e → received.ending = .error e ∧
    ∃ next, index < next ∧ received.pageIter = vec.pages.drop next
  noMorePages : err = none → vec.bytesLeft index < bytes → received.ending = .noMorePages
  complete : err = none → bytes ≤ vec.bytesLeft index → received.ending = .complete ∧
    received.pageIter = vec.pages.drop (index + vec.numPages bytes)

theorem missingErr_zero (missing : Option (Nat × RecvErr)) (pageSize : Nat) :
    missingErr missing pageSize 0 = none := by
  cases missing with
  | none => rfl
  | some missing =>
    unfold missingErr
    exact if_neg (Nat.not_lt_zero _)

variable {missing : Option (Nat × RecvErr)}

theorem missingErr_none_of_le {pageSize reach : Nat}
    (hFirst : ∀ err, missing ≠ some (0, err)) (hReach : reach ≤ pageSize) :
    missingErr missing pageSize reach = none := by
  cases missing with
  | none => rfl
  | some missing =>
    obtain ⟨page, err⟩ := missing
    cases page with
    | zero => exact absurd rfl (hFirst err)
    | succ page =>
      apply if_neg
      rw [Nat.succ_mul]
      omega

theorem missingErr_succ (hFirst : ∀ err, missing ≠ some (0, err)) (pageSize reach : Nat) :
    missingErr (missing.map fun (page, err) => (page - 1, err)) pageSize reach =
      missingErr missing pageSize (pageSize + reach) := by
  cases missing with
  | none => rfl
  | some missing =>
    obtain ⟨page, err⟩ := missing
    cases page with
    | zero => exact absurd rfl (hFirst err)
    | succ page =>
      have hSame : page * pageSize < reach ↔ (page + 1) * pageSize < pageSize + reach := by
        rw [Nat.succ_mul]
        omega
      unfold missingErr
      simp only [Option.map_some, Nat.add_sub_cancel, hSame]

variable {pageIter : List FhgfsPage}

theorem recvPages_cons {serverSize receiveSum : Nat}
    {page : FhgfsPage} (hFirst : ∀ err, missing ≠ some (0, err)) (hSum : receiveSum < serverSize) :
    recvPages serverSize receiveSum missing (page :: pageIter) =
      if page.length < serverSize - receiveSum then
        { recvPages serverSize (receiveSum + page.length)
            (missing.map fun (k, err) => (k - 1, err)) pageIter with
          numSuccessPages := (recvPages serverSize (receiveSum + page.length)
            (missing.map fun (k, err) => (k - 1, err)) pageIter).numSuccessPages + 1 }
      else ⟨.complete, 1, pageIter⟩ := by
  have hLoop : recvPages serverSize receiveSum missing (page :: pageIter) =
      let requestLength := min page.length (serverSize - receiveSum)
      if requestLength < page.length ∧ receiveSum + requestLength < serverSize then
        ⟨.error .other, 0, pageIter⟩
      else if receiveSum + requestLength < serverSize then
        let next := recvPages serverSize (receiveSum + requestLength)
          (missing.map fun (k, err) => (k - 1, err)) pageIter
        { next with numSuccessPages := next.numSuccessPages + 1 }
      else ⟨.complete, 1, pageIter⟩ := by
    rwa [recvPages]
  rw [hLoop]
  by_cases hMore : page.length < serverSize - receiveSum
  · rw [min_eq_left hMore.le, if_neg (fun h => lt_irrefl _ h.1), if_pos (by omega),
      if_pos hMore]
  · rw [min_eq_right (Nat.le_of_not_lt hMore), if_neg (by omega), if_neg (by omega),
      if_neg hMore]

variable {index bytes : Nat}

theorem receivedAs_complete
    (hIndex : index < vec.size) (hFirst : ∀ err, missing ≠ some (0, err)) (hBytes : 0 < bytes)
    (hFits : bytes ≤ vec.pageLength index) :
    ReceivedAs vec index bytes (missingErr missing vec.pageSize (min bytes (vec.bytesLeft index)))
      ⟨.complete, 1, vec.pages.drop (index + 1)⟩ := by
  have hBound := vec.pageLength_le index
  have hInside := vec.pageLength_le_bytesLeft hIndex
  have hReach : min bytes (vec.bytesLeft index) ≤ vec.pageSize := by omega
  rw [missingErr_none_of_le hFirst hReach]
  refine ⟨nofun, fun _ hTooLong => ?_, fun _ _ => ⟨rfl, ?_⟩⟩
  · omega
  · rw [vec.numPages_of_le hBytes (hFits.trans hBound)]

section

variable {received : ReceivedPages} (hFirst : ∀ err, missing ≠ some (0, err))
  (hMore : vec.pageLength index < bytes)
  (hNext : ReceivedAs vec (index + 1) (bytes - vec.pageLength index)
    (missingErr (missing.map fun (k, err) => (k - 1, err)) vec.pageSize
      (min (bytes - vec.pageLength index) (vec.bytesLeft (index + 1)))) received)
include hFirst hMore hNext

theorem ReceivedAs.behind_last (hLast : index + 1 = vec.size) :
    ReceivedAs vec index bytes (missingErr missing vec.pageSize (min bytes (vec.bytesLeft index)))
      { received with numSuccessPages := received.numSuccessPages + 1 } := by
  have hLength := vec.pageLength_of_last hLast
  have hLeft := vec.bytesLeft_of_last hLast
  have hBound := vec.pageLength_le index
  have hReach : min bytes (vec.bytesLeft index) ≤ vec.pageSize := by omega
  have hEnd := vec.bytesLeft_of_end hLast.ge
  rw [hEnd, Nat.min_zero, missingErr_zero] at hNext
  rw [missingErr_none_of_le hFirst hReach]
  refine ⟨nofun, fun _ _ => ?_, fun _ hFits => ?_⟩
  · exact hNext.noMorePages rfl (by omega)
  · omega

theorem ReceivedAs.behind_full (hFull : index + 1 < vec.size) :
    ReceivedAs vec index bytes (missingErr missing vec.pageSize (min bytes (vec.bytesLeft index)))
      { received with numSuccessPages := received.numSuccessPages + 1 } := by
  have hLength := vec.pageLength_of_full hFull.ne
  obtain ⟨hLeft, hMoreLeft⟩ := vec.bytesLeft_of_full index hFull
  have hReach : min bytes (vec.bytesLeft index) =
      vec.pageSize + min (bytes - vec.pageLength index) (vec.bytesLeft (index + 1)) := by omega
  have hPages := vec.numPages_of_gt (hLength ▸ hMore)
  rw [missingErr_succ hFirst, ← hReach] at hNext
  refine ⟨fun e hErr => ?_, fun hErr hShort => ?_, fun hErr hFits => ?_⟩
  · obtain ⟨hEnding, next, hBehind, hIter⟩ := hNext.error e hErr
    exact ⟨hEnding, next, by omega, hIter⟩
  · exact hNext.noMorePages hErr (by omega)
  · obtain ⟨hEnding, hIter⟩ := hNext.complete hErr (by omega)
    refine ⟨hEnding, ?_⟩
    rwa [hPages, ← hLength, add_comm (vec.numPages _), ← add_assoc]

end

theorem recvPages_receivedAs (serverSize : Nat) {index receiveSum : Nat}
    (missing : Option (Nat × RecvErr)) (hSum : receiveSum < serverSize) :
    ReceivedAs vec index (serverSize - receiveSum)
      (missingErr missing vec.pageSize (min (serverSize - receiveSum) (vec.bytesLeft index)))
      (recvPages serverSize receiveSum missing (vec.pages.drop index)) := by
  induction hRest : vec.size - index generalizing index receiveSum missing with
  | zero =>
    have hEnd : vec.size ≤ index := Nat.le_of_sub_eq_zero hRest
    rw [vec.bytesLeft_of_end hEnd, Nat.min_zero, missingErr_zero, vec.drop_pages_of_le hEnd]
    refine ⟨nofun, fun _ _ => ?_, fun _ hFits => ?_⟩
    · unfold recvPages
      rfl
    · rw [vec.bytesLeft_of_end hEnd] at hFits
      omega
  | succ rest ih =>
    have hIndex : index < vec.size := by omega
    rw [vec.drop_pages hIndex]
    by_cases hFirst : ∃ err, missing = some (0, err)
    · obtain ⟨err, rfl⟩ := hFirst
      have hReach : 0 * vec.pageSize < min (serverSize - receiveSum) (vec.bytesLeft index) := by
        have hLeft := vec.bytesLeft_pos hIndex
        rw [zero_mul]
        omega
      have hErr : missingErr (some (0, err)) vec.pageSize
          (min (serverSize - receiveSum) (vec.bytesLeft index)) = some err := if_pos hReach
      rw [hErr, recvPages]
      refine ⟨fun e hSame => ?_, nofun, nofun⟩
      cases hSame
      exact ⟨rfl, index + 1, Nat.lt_succ_self index, rfl⟩
    · have hNotFirst : ∀ err, missing ≠ some (0, err) := fun err h => hFirst ⟨err, h⟩
      rw [recvPages_cons hNotFirst hSum]
      split
      next hMore =>
        have hNext := @ih (index + 1) _ (missing.map fun (k, err) => (k - 1, err))
          (Nat.add_lt_of_lt_sub' hMore) (by omega)
        rw [Nat.sub_add_eq] at hNext
        by_cases hLast : index + 1 = vec.size
        · exact hNext.behind_last hNotFirst hMore hLast
        · exact hNext.behind_full hNotFirst hMore (by omega)
      next hComplete =>
        exact receivedAs_complete hIndex hNotFirst (by omega) (Nat.le_of_not_lt hComplete)

def behindPages (comm : FhgfsCommKitVec) (received : ReceivedPages) : FhgfsCommKitVec :=
  { comm with
    pageIter := received.pageIter
    numSuccessPages := comm.numSuccessPages + received.numSuccessPages }

theorem readfileStageRECVDATA_eq (comm : FhgfsCommKitVec) (serverSize : Nat)
    (missing : Option (Nat × RecvErr)) :
    comm.readfileStageRECVDATA serverSize missing =
      let next := comm.behindPages (recvPages serverSize 0 missing comm.pageIter)
      match (recvPages serverSize 0 missing comm.pageIter).ending with
      | .complete => (true, { next with nodeResult := comm.nodeResult + serverSize })
      | .noMorePages => (false, { next with nodeResult := -FhgfsOpsErr.INTERNAL.code })
      | .error err => (false, { next with nodeResult := recvErrResult err }) := by
  unfold readfileStageRECVDATA
  generalize recvPages serverSize 0 missing comm.pageIter = received
  obtain ⟨ending, numSuccessPages, pageIter⟩ := received
  cases ending with
  | complete => rfl
  | noMorePages => rfl
  | error err =>
    have hError : recvErrResult err < 0 := by cases err <;> decide
    exact congrArg (Prod.mk false) (stageSOCKETEXCEPTION_of_neg hError)

theorem isBegun_iff (index : Nat) : decide (index ≠ 0) = true ↔ 0 < index :=
  decide_eq_true_iff.trans Nat.pos_iff_ne_zero.symm

theorem readfileStageRECVHEADER_meets (parts : List ReadPart)
    {index : Nat} {bytes : Int} (hIter : comm.pageIter = vec.pages.drop index)
    (hBytes : 0 ≤ bytes) (hResult : comm.nodeResult = bytes)
    (hReported : comm.reported.getD 0 = bytes) (hReqLen : comm.reqLen = vec.getDataSize) :
    (readfileStageRECVHEADER parts comm).Meets vec (partsOutcome vec index bytes parts) := by
  induction parts generalizing comm index bytes with
  | nil =>
    unfold readfileStageRECVHEADER
    rw [stageSOCKETEXCEPTION_of_nonneg (hResult.ge.trans' hBytes)]
    exact ⟨rfl, index, hIter, isBegun_iff index⟩
  | cons part parts ih =>
    unfold readfileStageRECVHEADER partsOutcome
    split
    next hNegative =>
      rw [stageSOCKETEXCEPTION_of_neg hNegative]
      exact @meets_errorOutcome vec { comm with nodeResult := part.lengthInfo } part.lengthInfo
        index rfl hNegative hIter _ (isBegun_iff index)
    next hNonneg =>
    split
    next hEof =>
      refine ⟨hBytes, hResult, ?_⟩
      unfold addReported
      rw [hReported, add_zero]
    next hSome =>
    rw [hReqLen]
    split
    next hTooLong =>
      have hNoError : 0 ≤ (comm.addReported part.lengthInfo).nodeResult := hResult.ge.trans' hBytes
      rw [stageSOCKETEXCEPTION_of_nonneg hNoError]
      exact ⟨rfl, index, hIter, isBegun_iff index⟩
    next hInside =>
    have hPositive : 0 < part.lengthInfo.toNat := by omega
    have hReceived := @recvPages_receivedAs vec part.lengthInfo.toNat index 0 part.missing hPositive
    rw [Nat.sub_zero] at hReceived
    rw [← hIter] at hReceived
    rw [readfileStageRECVDATA_eq]
    change ReceivedAs _ _ _ _ (recvPages _ _ _ (comm.addReported part.lengthInfo).pageIter)
      at hReceived
    generalize recvPages part.lengthInfo.toNat 0 part.missing
      (comm.addReported part.lengthInfo).pageIter = received at hReceived ⊢
    cases hErr : missingErr part.missing vec.pageSize
        (min part.lengthInfo.toNat (vec.bytesLeft index)) with
    | some err =>
      obtain ⟨hEnding, next, hBehind, hNext⟩ := hReceived.error err hErr
      rw [hEnding]
      cases err with
      | badAddress => exact failed_ADDRESSFAULT
      | timedOut => exact ⟨rfl, next, hNext, fun _ => Nat.zero_lt_of_lt hBehind, fun _ => rfl⟩
      | other => exact failed_INTERNAL
    | none =>
      by_cases hShort : vec.bytesLeft index < part.lengthInfo
      · rw [hReceived.noMorePages hErr (by omega), if_pos hShort]
        exact failed_INTERNAL
      obtain ⟨hEnding, hNext⟩ := hReceived.complete hErr (by omega)
      rw [hEnding, if_neg hShort]
      apply ih
      · exact hNext
      · omega
      · have hSum : comm.nodeResult + ↑part.lengthInfo.toNat = bytes + part.lengthInfo := by omega
        exact hSum
      · exact congrArg (· + part.lengthInfo) hReported
      · exact hReqLen

theorem readfileStagePREPARE_meets (outcomes : ReadOutcomes) (hIter : comm.pageIter = vec.pages) :
    (readfileStagePREPARE vec outcomes comm).Meets vec (outcomes.outcome vec) := by
  unfold readfileStagePREPARE ReadOutcomes.outcome
  cases hErr : outcomes.resolveErr with
  | some err => exact failed_resolveErr err
  | none =>
    rw [if_neg (not_not.mpr rfl)]
    dsimp only
    by_cases hConnected : outcomes.isConnected = true
    · rw [if_neg (not_not.mpr hConnected), if_pos hConnected]
      apply readfileStageRECVHEADER_meets
      · exact hIter
      · exact le_refl 0
      · rfl
      · rfl
      · exact hIter ▸ vec.getRemainingDataSize_pages
    · rw [if_pos hConnected, if_neg hConnected]
      split
      · exact ⟨rfl, rfl⟩
      · exact ⟨rfl, 0, hIter, nofun, nofun⟩

/-! ## The pages of a write -/

section

variable {sendDataPartRes : Nat → SendRes}

theorem sendPages_sent
    (h : (pageIter.map fun page => sendDataPartRes page.index).find? (· ≠ .sent) = none) :
    sendPages sendDataPartRes pageIter = (.sent, []) := by
  induction pageIter with
  | nil => rfl
  | cons page pageIter ih =>
    rw [map_cons, find?_cons] at h
    unfold sendPages
    by_cases hSent : sendDataPartRes page.index = .sent
    · rw [hSent] at h
      rw [if_pos hSent]
      exact ih h
    · rw [decide_eq_true hSent] at h
      cases h

theorem sendPages_failed {res : SendRes}
    (h : (pageIter.map fun page => sendDataPartRes page.index).find? (· ≠ .sent) = some res) :
    res ≠ .sent ∧
      ∃ index, 0 < index ∧ sendPages sendDataPartRes pageIter = (res, pageIter.drop index) := by
  induction pageIter with
  | nil => cases h
  | cons page pageIter ih =>
    rw [map_cons, find?_cons] at h
    unfold sendPages
    by_cases hSent : sendDataPartRes page.index = .sent
    · rw [hSent] at h
      obtain ⟨hRes, index, -, hRest⟩ := ih h
      rw [if_pos hSent]
      exact ⟨hRes, index + 1, Nat.succ_pos index, hRest⟩
    · rw [decide_eq_true hSent] at h
      cases h
      rw [if_neg hSent]
      exact ⟨hSent, 1, one_pos, rfl⟩

end

theorem writefileStageRECV_meets (response : Option Int) (hIter : comm.pageIter = [])
    (hResult : comm.nodeResult = -FhgfsOpsErr.COMMUNICATION.code) :
    (writefileStageRECV response comm).Meets vec (responseOutcome response) := by
  have hDrop : comm.pageIter = vec.pages.drop vec.size :=
    hIter.trans (vec.drop_pages_of_le (le_rfl)).symm
  have hBegun : true = true ↔ 0 < vec.size := ⟨fun _ => vec.size_pos, fun _ => rfl⟩
  cases response with
  | none =>
    have hNegative : comm.nodeResult < 0 := by
      rw [hResult]
      decide
    unfold writefileStageRECV
    rw [stageSOCKETEXCEPTION_of_neg hNegative]
    exact ⟨hResult, vec.size, hDrop, hBegun⟩
  | some writeRespValue =>
    unfold writefileStageRECV responseOutcome
    dsimp only
    split
    next hNegative =>
      exact @meets_errorOutcome vec
        { comm with nodeResult := writeRespValue, reported := some writeRespValue }
        writeRespValue vec.size rfl hNegative hDrop _ hBegun
    next hNonneg => exact ⟨not_lt.mp hNonneg, rfl, rfl⟩

theorem writefileStageRECV_pageIter (response : Option Int) (comm : FhgfsCommKitVec) :
    (writefileStageRECV response comm).pageIter = comm.pageIter := by
  unfold writefileStageRECV stageSOCKETEXCEPTION
  cases response with
  | none =>
    dsimp only
    split <;> rfl
  | some writeRespValue => rfl

theorem writefileStagePREPARE_meets (outcomes : WriteOutcomes) (hIter : comm.pageIter = vec.pages) :
    (writefileStagePREPARE outcomes comm).Meets vec (outcomes.outcome vec) ∧
      ∀ bytes, outcomes.outcome vec = .reported bytes →
        (writefileStagePREPARE outcomes comm).pageIter = [] := by
  unfold writefileStagePREPARE WriteOutcomes.outcome
  cases hErr : outcomes.resolveErr with
  | some err => exact ⟨failed_resolveErr err, nofun⟩
  | none =>
    rw [if_neg (not_not.mpr rfl)]
    dsimp only
    by_cases hConnected : outcomes.isConnected = true
    · by_cases hHeader : outcomes.isHeaderSent = true
      · rw [if_pos hConnected, if_neg (by rw [hConnected, hHeader]; decide)]
        unfold writefileStageSENDHEADER
        rw [if_pos hHeader]
        unfold writefileStageSENDDATA
        rw [hIter]
        cases hSent : (vec.pages.map fun page => outcomes.sendDataPartRes page.index).find?
            (· ≠ .sent) with
        | none =>
          rw [sendPages_sent hSent]
          exact ⟨writefileStageRECV_meets outcomes.response rfl rfl,
            fun _ _ => writefileStageRECV_pageIter _ _⟩
        | some res =>
          obtain ⟨hRes, index, hBegun, hRest⟩ := sendPages_failed hSent
          rw [hRest]
          cases res with
          | sent => exact absurd rfl hRes
          | badAddress => exact ⟨failed_ADDRESSFAULT, nofun⟩
          | failed => exact ⟨⟨rfl, index, rfl, fun _ => hBegun, fun _ => rfl⟩, nofun⟩
      · rw [if_pos hConnected, if_pos (Or.inr hHeader)]
        unfold writefileStageSENDHEADER
        rw [if_neg hHeader]
        exact ⟨⟨rfl, 0, hIter, nofun, nofun⟩, nofun⟩
    · rw [if_neg hConnected, if_pos (Or.inl hConnected)]
      exact ⟨⟨rfl, 0, hIter, nofun, nofun⟩, nofun⟩

/-! ## No stage ends a page -/

theorem stageSOCKETEXCEPTION_pageEnds (comm : FhgfsCommKitVec) :
    comm.stageSOCKETEXCEPTION.pageEnds = comm.pageEnds := by
  unfold stageSOCKETEXCEPTION
  split <;> rfl

theorem readfileStageRECVDATA_pageEnds (comm : FhgfsCommKitVec) (serverSize : Nat)
    (missing : Option (Nat × RecvErr)) :
    (comm.readfileStageRECVDATA serverSize missing).2.pageEnds = comm.pageEnds := by
  rw [readfileStageRECVDATA_eq]
  split <;> rfl

theorem readfileStageRECVHEADER_pageEnds (parts : List ReadPart) (comm : FhgfsCommKitVec) :
    (readfileStageRECVHEADER parts comm).pageEnds = comm.pageEnds := by
  induction parts generalizing comm with
  | nil => exact stageSOCKETEXCEPTION_pageEnds comm
  | cons part parts ih =>
    unfold readfileStageRECVHEADER
    split
    · exact stageSOCKETEXCEPTION_pageEnds _
    split
    · rfl
    split
    · exact stageSOCKETEXCEPTION_pageEnds _
    have hNext := readfileStageRECVDATA_pageEnds (comm.addReported part.lengthInfo)
      part.lengthInfo.toNat part.missing
    dsimp only
    split
    · exact (ih _).trans hNext
    · exact hNext

theorem readfileStagePREPARE_pageEnds (outcomes : ReadOutcomes) (comm : FhgfsCommKitVec) :
    (readfileStagePREPARE vec outcomes comm).pageEnds = comm.pageEnds := by
  unfold readfileStagePREPARE
  split
  · rfl
  split
  · split <;> rfl
  · exact readfileStageRECVHEADER_pageEnds _ _

theorem writefileStagePREPARE_pageEnds (outcomes : WriteOutcomes) (comm : FhgfsCommKitVec) :
    (writefileStagePREPARE outcomes comm).pageEnds = comm.pageEnds := by
  unfold writefileStagePREPARE writefileStageSENDHEADER writefileStageSENDDATA writefileStageRECV
  dsimp only
  split
  · rfl
  split
  · split
    · split
      · split
        · exact stageSOCKETEXCEPTION_pageEnds _
        · rfl
      · exact stageSOCKETEXCEPTION_pageEnds _
      · exact stageSOCKETEXCEPTION_pageEnds _
    · exact stageSOCKETEXCEPTION_pageEnds _
  · rfl

end FhgfsCommKitVec

end Fhgfs.Client
