import Fhgfs.Client.PageVecOutcomes

/-!
# How the pages of a vector are ended

The attempt with which the retries stop decides whether the pages are all ended, and with the
right results. After a communication error the caller ends the pages that the iterator has before
it, so that those behind it stay locked. A page of a write counts as written if the server has
written any of its bytes. A read that is interrupted before it has a connection returns the
number of the error as if it were a size.
-/

namespace Fhgfs.Client

open FhgfsCommKitVec List FhgfsChunkPageVec

/-- The outcome of the attempt with which the retries stop. -/
def lastOutcome (maxRetries : Nat) : Nat → List (AttemptOutcome × Bool) → Option AttemptOutcome
  | _, [] => none
  | retries, (.lost isAgain isBegun, isSignalPending) :: outcomes =>
    let retries := if isAgain then 0 else retries + 1
    if retries ≤ maxRetries ∧ ¬isSignalPending then lastOutcome maxRetries retries outcomes
    else some (.lost isAgain isBegun)
  | _, (outcome, _) :: _ => some outcome

theorem lastOutcome_isSome {maxRetries retries : Nat} {outcomes : List (AttemptOutcome × Bool)}
    (hMany : maxRetries < retries + outcomes.length) (hRetries : retries ≤ maxRetries)
    (hNoAgain : ∀ outcome ∈ outcomes, ∀ isBegun, outcome.1 ≠ .lost true isBegun) :
    (lastOutcome maxRetries retries outcomes).isSome := by
  induction outcomes generalizing retries with
  | nil =>
    rw [length_nil] at hMany
    omega
  | cons outcome outcomes ih =>
    obtain ⟨outcome, isSignalPending⟩ := outcome
    rw [length_cons] at hMany
    cases outcome with
    | failed => rfl
    | interrupted => rfl
    | reported bytes => rfl
    | lost isAgain isBegun =>
      cases isAgain with
      | true => exact absurd rfl (hNoAgain _ mem_cons_self isBegun)
      | false =>
        unfold lastOutcome
        rw [if_neg Bool.false_ne_true]
        dsimp only
        split
        next hMore =>
          apply ih
          · omega
          · exact hMore.1
          · exact fun o hIn => hNoAgain o (mem_cons_of_mem _ hIn)
        next => rfl

namespace AttemptOutcome

def isLost : AttemptOutcome → Bool
  | lost _ _ => true
  | _ => false

end AttemptOutcome

section Loop

variable (vec : FhgfsChunkPageVec) {α : Type}
  (communicate : α → FhgfsCommKitVec → FhgfsCommKitVec) (outcome : α → AttemptOutcome)
  (R : FhgfsCommKitVec → AttemptOutcome → Prop)

theorem meets_isLost_iff {vec : FhgfsChunkPageVec} {comm : FhgfsCommKitVec}
    {outcome : AttemptOutcome}
    (h : comm.Meets vec outcome) :
    outcome.isLost = true ↔ comm.nodeResult = -FhgfsOpsErr.AGAIN.code ∨
      comm.nodeResult = -FhgfsOpsErr.COMMUNICATION.code := by
  cases outcome with
  | lost isAgain isBegun =>
    refine ⟨fun _ => ?_, fun _ => rfl⟩
    rw [h.1]
    cases isAgain with
    | true => exact Or.inl rfl
    | false => exact Or.inr rfl
  | failed => exact ⟨nofun, fun hLost => (hLost.elim h.2.1 h.2.2).elim⟩
  | interrupted =>
    refine ⟨nofun, fun hLost => ?_⟩
    rw [h.1] at hLost
    exact absurd hLost (by decide)
  | reported bytes =>
    refine ⟨nofun, fun hLost => ?_⟩
    obtain ⟨hNonneg, hResult, -⟩ := h
    have hAgain : -FhgfsOpsErr.AGAIN.code < 0 := by decide
    have hComm : -FhgfsOpsErr.COMMUNICATION.code < 0 := by decide
    omega

/-- Induction over the attempts: every one of them begins with the first page, and none ends a
page. -/
theorem communicateLoop_spec (hSpec : ∀ o (comm : FhgfsCommKitVec), comm.pageIter = vec.pages →
      R (communicate o comm) (outcome o))
    (hMeets : ∀ comm outcome, R comm outcome → comm.Meets vec outcome)
    (hEnds : ∀ o comm, (communicate o comm).pageEnds = comm.pageEnds) (maxRetries retries : Nat)
    (comm : FhgfsCommKitVec) (attempts : List (α × Bool)) :
    match communicateLoop vec communicate maxRetries retries comm attempts with
    | none => lastOutcome maxRetries retries (attempts.map fun a => (outcome a.1, a.2)) = none
    | some (retVal, comm') =>
      ∃ last, lastOutcome maxRetries retries (attempts.map fun a => (outcome a.1, a.2)) =
          some last ∧ R comm' last ∧ comm'.pageEnds = comm.pageEnds ∧
        retVal = if last.isLost then -FhgfsOpsErr.COMMUNICATION.code else comm'.nodeResult := by
  induction attempts generalizing retries comm with
  | nil => rfl
  | cons attempt attempts ih =>
    obtain ⟨o, isSignalPending⟩ := attempt
    have hHere := hSpec o { comm with pageIter := vec.pages } rfl
    have hEndsHere := hEnds o { comm with pageIter := vec.pages }
    unfold communicateLoop
    generalize communicate o { comm with pageIter := vec.pages } = next at hHere hEndsHere ⊢
    have hNext := hMeets _ _ hHere
    have hLost := meets_isLost_iff hNext
    rw [map_cons]
    generalize outcome o = here at hHere hNext hLost ⊢
    cases here with
    | lost isAgain isBegun =>
      have hRetries : (if next.nodeResult = -FhgfsOpsErr.AGAIN.code then 0 else retries + 1) =
          if isAgain then 0 else retries + 1 := by
        rw [hNext.1]
        cases isAgain <;> rfl
      rw [if_pos (hLost.mp rfl), hRetries]
      unfold lastOutcome
      by_cases hMore : (if isAgain then 0 else retries + 1) ≤ maxRetries ∧ ¬isSignalPending = true
      · rw [if_pos hMore, if_pos hMore, ← hEndsHere]
        exact ih _ next
      · rw [if_neg hMore, if_neg hMore]
        exact ⟨_, rfl, hHere, hEndsHere, rfl⟩
    | failed | interrupted | reported bytes =>
      rw [if_neg (hLost.not.mp Bool.false_ne_true)]
      exact ⟨_, rfl, hHere, hEndsHere, rfl⟩

end Loop

/-! ## Pages that are ended -/

section Pages

variable {vec : FhgfsChunkPageVec}

section

variable (numSuccessPages : Nat) (readRes : Int) (pageIter : List FhgfsPage)

theorem endReadPages_index : (endReadPages vec numSuccessPages readRes pageIter).1.map Prod.fst ++
        (endReadPages vec numSuccessPages readRes pageIter).2.2.map FhgfsPage.index =
      pageIter.map FhgfsPage.index := by
  induction pageIter generalizing numSuccessPages readRes with
  | nil => cases numSuccessPages <;> rfl
  | cons page pageIter ih =>
    cases numSuccessPages with
    | zero => rfl
    | succ numSuccessPages =>
      unfold endReadPages
      split
      · exact congrArg (page.index :: ·) (ih numSuccessPages _)
      · rfl

theorem endReadPages_read : ∀ pageEnd ∈ (endReadPages vec numSuccessPages readRes pageIter).1,
      ∃ res, pageEnd.2 = .endReadPage res := by
  induction pageIter generalizing numSuccessPages readRes with
  | nil => cases numSuccessPages <;> exact fun _ h => absurd h not_mem_nil
  | cons page pageIter ih =>
    cases numSuccessPages with
    | zero => exact fun _ h => absurd h not_mem_nil
    | succ numSuccessPages =>
      unfold endReadPages
      split
      · intro pageEnd hIn
        rcases mem_cons.mp hIn with rfl | hRest
        · exact ⟨readRes, rfl⟩
        · exact ih numSuccessPages _ pageEnd hRest
      · exact fun _ h => absurd h not_mem_nil

end

theorem endWrittenPages_error (firstUnhandledPage : Option FhgfsPage) {result : Int}
    (hResult : result ≤ 0) (pageIter : List FhgfsPage) :
    endWrittenPages firstUnhandledPage result pageIter =
      pageIter.map fun page => (page.index, .endWritePage (- EREMOTEIO)) := by
  have hNotSome : ¬result > 0 := not_lt.mpr hResult
  induction pageIter with
  | nil => rfl
  | cons page pageIter ih =>
    unfold endWrittenPages
    rw [if_neg hNotSome, if_neg hNotSome]
    dsimp only
    rw [if_neg (fun h => hNotSome h.2), ih]
    rfl

theorem endWrittenPages_drop {bytes result : Int} {index : Nat}
    (hResult : (0 < result ∧ result = bytes - ↑(index * vec.pageSize)) ∨
      (result ≤ 0 ∧ bytes ≤ ↑(index * vec.pageSize))) :
    endWrittenPages none result (vec.pages.drop index) =
      (vec.pages.drop index).map fun page => (page.index, .endWritePage
        (if ↑(page.index * vec.pageSize) < bytes then (page.length : Int) else - EREMOTEIO)) := by
  induction hRest : vec.size - index generalizing index result with
  | zero =>
    rw [vec.drop_pages_of_le (Nat.le_of_sub_eq_zero hRest)]
    rfl
  | succ rest ih =>
    have hIndex : index < vec.size := by omega
    have hHere : (vec.page index).index = index := rfl
    rw [vec.drop_pages hIndex]
    unfold endWrittenPages
    dsimp only
    rw [map_cons, if_neg (fun h => nomatch h.1), hHere]
    rcases hResult with ⟨hSome, hBytes⟩ | ⟨hNothing, hBytes⟩
    · have hBelow : ↑(index * vec.pageSize) < bytes := by omega
      rw [if_pos hSome, if_pos hSome, if_pos hBelow]
      apply congrArg (cons _)
      by_cases hLast : index + 1 = vec.size
      · rw [vec.drop_pages_of_le hLast.ge]
        rfl
      · have hFull : (vec.page index).length = vec.pageSize := vec.pageLength_of_full hLast
        apply ih
        · rw [hFull, Nat.succ_mul]
          omega
        · omega
    · have hNotSome : ¬result > 0 := not_lt.mpr hNothing
      rw [if_neg hNotSome, if_neg hNotSome, if_neg (not_lt.mpr hBytes)]
      apply congrArg (cons _)
      apply ih
      · rw [Nat.succ_mul]
        omega
      · omega

theorem endWrittenPages_pages (vec : FhgfsChunkPageVec) (bytes : Int) :
    endWrittenPages none bytes vec.pages = vec.pages.map fun page => (page.index, .endWritePage
        (if ↑(page.index * vec.pageSize) < bytes then (page.length : Int) else - EREMOTEIO)) := by
  have hAll := @endWrittenPages_drop vec bytes bytes 0
  rw [zero_mul] at hAll
  exact hAll (by omega)

theorem pageEnd_le_dataSize {index : Nat} (h : index < vec.size) :
    index * vec.pageSize + vec.pageLength index ≤ vec.getDataSize := by
  have hInside := vec.pageLength_le_bytesLeft h
  have hLeft := vec.bytesLeft_pos h
  unfold bytesLeft at hInside hLeft
  omega

theorem page_of_bytes {count : Nat} (hInside : count < vec.getDataSize)
    (hRest : count % vec.pageSize ≠ 0) :
    ∃ index < vec.size, index * vec.pageSize < count ∧
      count < index * vec.pageSize + vec.pageLength index := by
  have hDiv := Nat.div_add_mod' count vec.pageSize
  have hMod := Nat.mod_lt count vec.pageSize_pos
  have hIndex : count / vec.pageSize < vec.size := by
    by_contra hBehind
    have hNone := vec.bytesLeft_of_end (Nat.le_of_not_lt hBehind)
    unfold bytesLeft at hNone
    omega
  refine ⟨count / vec.pageSize, hIndex, by omega, ?_⟩
  by_cases hLast : count / vec.pageSize + 1 = vec.size
  · have hLeft := vec.bytesLeft_of_last hLast
    rw [vec.pageLength_of_last hLast]
    unfold bytesLeft at hLeft
    omega
  · rw [vec.pageLength_of_full hLast]
    omega

/-- The pages that begin below the bytes also end below them if and only if the bytes end with a
page. -/
theorem pages_covered_iff (vec : FhgfsChunkPageVec) (count : Nat) :
    (∀ index < vec.size, index * vec.pageSize < count →
        index * vec.pageSize + vec.pageLength index ≤ count) ↔
      count % vec.pageSize = 0 ∨ vec.getDataSize ≤ count := by
  constructor
  · intro hCovered
    by_contra hNot
    obtain ⟨hRest, hShort⟩ := not_or.mp hNot
    obtain ⟨index, hIndex, hBegin, hEnd⟩ := page_of_bytes (Nat.lt_of_not_le hShort) hRest
    exact not_lt.mpr (hCovered index hIndex hBegin) hEnd
  · rintro (hWhole | hAll) index hIndex hBelow
    · obtain ⟨pages, rfl⟩ := Nat.dvd_of_mod_eq_zero hWhole
      rw [mul_comm vec.pageSize] at hBelow ⊢
      have hNext : (index + 1) * vec.pageSize ≤ pages * vec.pageSize :=
        Nat.mul_le_mul_right _ (Nat.lt_of_mul_lt_mul_right hBelow)
      have hBound := vec.pageLength_le index
      rw [Nat.succ_mul] at hNext
      omega
    · exact (pageEnd_le_dataSize hIndex).trans hAll

end Pages

/-! ## What a call promises -/

/-- All pages are ended once. A page counts as written only if the server has reported all of
its bytes, and a size is returned only if the server has reported it. -/
structure Truthful (vec : FhgfsChunkPageVec) (result : Int × FhgfsCommKitVec) : Prop where
  once : (result.2.pageEnds.map Prod.fst).Perm (List.range vec.size)
  covered : ∀ index writeRes, (index, .endWritePage writeRes) ∈ result.2.pageEnds → 0 < writeRes →
    ∃ bytes, result.2.reported = some bytes ∧ ↑(index * vec.pageSize + vec.pageLength index) ≤ bytes
  reported : 0 ≤ result.1 → result.2.reported = some result.1

/-- The attempt has ended in a way that the call can make good. -/
def AttemptOutcome.EndsPages (vec : FhgfsChunkPageVec) (attempts : RWAttempts) :
    AttemptOutcome → Prop
  | .lost _ isBegun => isBegun = false
  | .failed => True
  | .interrupted => False
  | .reported bytes =>
    match attempts with
    | .read _ => True
    | .write _ => bytes % vec.pageSize = 0 ∨ vec.getDataSize ≤ bytes

def RWAttempts.outcomes (vec : FhgfsChunkPageVec) : RWAttempts → List (AttemptOutcome × Bool)
  | .read attempts => attempts.map fun a => (a.1.outcome vec, a.2)
  | .write attempts => attempts.map fun a => (a.1.outcome vec, a.2)

section Calls

variable {vec : FhgfsChunkPageVec}

theorem iterateAllHandlePages_index (attempts : RWAttempts) (comm : FhgfsCommKitVec) :
    (iterateAllHandlePages attempts comm).pageEnds.map Prod.fst =
      comm.pageEnds.map Prod.fst ++ comm.pageIter.map FhgfsPage.index := by
  unfold iterateAllHandlePages
  rw [map_append, map_map]
  rfl

variable {comm : FhgfsCommKitVec} {attempts : RWAttempts}

theorem iterateAllHandlePages_error (hNone : comm.pageEnds = []) {index : Nat} {writeRes : Int}
    (hIn : (index, .endWritePage writeRes) ∈ (iterateAllHandlePages attempts comm).pageEnds) :
    ¬0 < writeRes := by
  unfold iterateAllHandlePages at hIn
  dsimp only at hIn
  rw [hNone, nil_append] at hIn
  obtain ⟨page, -, hPage⟩ := mem_map.mp hIn
  cases attempts with
  | read attempts => cases hPage
  | write attempts =>
    cases hPage
    decide

/-- The caller ends the pages that the iterator has before it: all of them if the walk has not
begun. -/
theorem iterateAll_truthful_iff {retVal : Int}
    (index : Nat) (hNone : comm.pageEnds = []) (hIter : comm.pageIter = vec.pages.drop index)
    (hNegative : retVal < 0) :
    Truthful vec (retVal, iterateAllHandlePages attempts comm) ↔ index = 0 := by
  have hIndex := iterateAllHandlePages_index attempts comm
  rw [hNone, map_nil, nil_append, hIter, map_drop, vec.map_index_pages] at hIndex
  constructor
  · intro h
    have hLength := h.once.length_eq
    rw [hIndex, length_drop, length_range] at hLength
    have hSize := vec.size_pos
    omega
  · rintro rfl
    refine ⟨?_, fun index writeRes hIn hPos => ?_, fun hNonneg => ?_⟩
    · exact List.Perm.of_eq hIndex
    · exact absurd hPos (iterateAllHandlePages_error hNone hIn)
    · exact absurd hNonneg (not_le.mpr hNegative)

/-- What `rwChunkPageVec` does after the communication. -/
def endPages (attempts : RWAttempts) (retVal : Int) (comm : FhgfsCommKitVec) :
    Int × FhgfsCommKitVec :=
  (retVal, if retVal = -FhgfsOpsErr.COMMUNICATION.code then iterateAllHandlePages attempts comm
    else comm)

variable {isAgain isBegun : Bool}

theorem endPages_lost_iff
    (hNone : comm.pageEnds = []) (hMeets : comm.Meets vec (.lost isAgain isBegun)) :
    Truthful vec (endPages attempts (-FhgfsOpsErr.COMMUNICATION.code) comm) ↔ isBegun = false := by
  obtain ⟨-, index, hIter, hBegun⟩ := hMeets
  unfold endPages
  rw [if_pos rfl, iterateAll_truthful_iff index hNone hIter (by decide), ← Bool.not_eq_true, hBegun]
  omega

theorem endPages_of_ne {retVal : Int} (h : retVal ≠ -FhgfsOpsErr.COMMUNICATION.code) :
    endPages attempts retVal comm = (retVal, comm) := by
  unfold endPages
  rw [if_neg h]

theorem endPages_interrupted_iff {comm comm' : FhgfsCommKitVec}
    (hMeets : comm.Meets vec .interrupted) (hReported : comm'.reported = comm.reported) :
    Truthful vec (endPages attempts comm.nodeResult comm') ↔ False := by
  have hComm : FhgfsOpsErr.INTERRUPTED.code ≠ -FhgfsOpsErr.COMMUNICATION.code := by decide
  have hNonneg : 0 ≤ FhgfsOpsErr.INTERRUPTED.code := by decide
  obtain ⟨hResult, hNothing⟩ := hMeets
  rw [hResult, endPages_of_ne hComm]
  refine ⟨fun h => ?_, False.elim⟩
  have hSome : comm'.reported = some _ := h.reported hNonneg
  rw [hReported, hNothing] at hSome
  cases hSome

/-! ### Reads -/

variable {last : AttemptOutcome}

theorem readHandlePages_ends
    (hMeets : comm.Meets vec last) (hKept : last.isLost = false) (hNone : comm.pageEnds = []) :
    (readfileStageHandlePages vec comm).pageEnds.map Prod.fst = range vec.size ∧
      (∀ index writeRes,
        (index, .endWritePage writeRes) ∉ (readfileStageHandlePages vec comm).pageEnds) ∧
      (readfileStageHandlePages vec comm).reported = comm.reported := by
  have hNotLost := (meets_isLost_iff hMeets).not.mp (by rw [hKept]; exact Bool.false_ne_true)
  unfold readfileStageHandlePages
  rw [if_neg (fun h => hNotLost h.symm)]
  dsimp only
  rw [hNone, nil_append]
  refine ⟨?_, fun index writeRes hIn => ?_, rfl⟩
  · rw [map_append, map_map, ← vec.map_index_pages]
    exact endReadPages_index _ _ _
  · rcases mem_append.mp hIn with hFirst | hRest
    · obtain ⟨res, hRes⟩ := endReadPages_read _ _ _ _ hFirst
      cases hRes
    · obtain ⟨page, -, hPage⟩ := mem_map.mp hRest
      cases hPage

theorem read_truthful_iff (attempts : List (ReadOutcomes × Bool))
    (hMeets : comm.Meets vec last) (hNone : comm.pageEnds = []) :
    Truthful vec (endPages (.read attempts)
        (if last.isLost then -FhgfsOpsErr.COMMUNICATION.code else comm.nodeResult)
        (readfileStageHandlePages vec comm)) ↔
      last.EndsPages vec (.read attempts) := by
  cases last with
  | lost isAgain isBegun =>
    rw [readfileStageHandlePages, if_pos ((meets_isLost_iff hMeets).mp rfl).symm]
    exact endPages_lost_iff hNone hMeets
  | failed =>
    obtain ⟨hEnds, hNoWrite, -⟩ := readHandlePages_ends hMeets rfl hNone
    have hFails : Fails comm.nodeResult := hMeets
    change Truthful vec (endPages _ comm.nodeResult _) ↔ True
    rw [endPages_of_ne hFails.2.2]
    refine ⟨fun _ => trivial, fun _ => ⟨List.Perm.of_eq hEnds, ?_, ?_⟩⟩
    · exact fun index writeRes hIn => absurd hIn (hNoWrite index writeRes)
    · exact fun hNonneg => absurd hNonneg (not_le.mpr hFails.1)
  | interrupted =>
    obtain ⟨-, -, hReported⟩ := readHandlePages_ends hMeets rfl hNone
    exact endPages_interrupted_iff hMeets hReported
  | reported bytes =>
    obtain ⟨hEnds, hNoWrite, hReported⟩ := readHandlePages_ends hMeets rfl hNone
    obtain ⟨hNonneg, hResult, hBytes⟩ := hMeets
    have hComm : -FhgfsOpsErr.COMMUNICATION.code < 0 := by decide
    change Truthful vec (endPages _ comm.nodeResult _) ↔ True
    rw [hResult, endPages_of_ne (by omega)]
    refine ⟨fun _ => trivial, fun _ => ⟨List.Perm.of_eq hEnds, ?_, ?_⟩⟩
    · exact fun index writeRes hIn => absurd hIn (hNoWrite index writeRes)
    · exact fun _ => hReported.trans hBytes

/-! ### Writes -/

theorem writeHandlePages_failed (hFails : Fails comm.nodeResult) (hNone : comm.pageEnds = []) :
    (writefileStageHandlePages vec comm).pageEnds =
      vec.pages.map fun page => (page.index, .endWritePage (- EREMOTEIO)) := by
  unfold writefileStageHandlePages
  rw [if_neg (not_or.mpr ⟨hFails.2.1, hFails.2.2⟩)]
  rw [hNone, nil_append, endWrittenPages_error _ hFails.1.le]

theorem writeHandlePages_reported {bytes : Int}
    (hMeets : comm.Meets vec (.reported bytes)) (hIter : comm.pageIter = [])
    (hNone : comm.pageEnds = []) :
    (writefileStageHandlePages vec comm).pageEnds = vec.pages.map (fun page => (page.index,
        .endWritePage
          (if ↑(page.index * vec.pageSize) < bytes then (page.length : Int) else - EREMOTEIO))) ∧
      (writefileStageHandlePages vec comm).reported = some bytes := by
  have hNotLost := (meets_isLost_iff hMeets).not.mp Bool.false_ne_true
  unfold writefileStageHandlePages
  rw [if_neg hNotLost]
  rw [hNone, nil_append, hIter, hMeets.2.1]
  exact ⟨endWrittenPages_pages vec bytes, hMeets.2.2⟩

theorem write_truthful_iff (attempts : List (WriteOutcomes × Bool)) (hMeets : comm.Meets vec last)
    (hIter : ∀ bytes, last = .reported bytes → comm.pageIter = []) (hNone : comm.pageEnds = []) :
    Truthful vec (endPages (.write attempts)
        (if last.isLost then -FhgfsOpsErr.COMMUNICATION.code else comm.nodeResult)
        (writefileStageHandlePages vec comm)) ↔
      last.EndsPages vec (.write attempts) := by
  cases last with
  | lost isAgain isBegun =>
    rw [writefileStageHandlePages, if_pos ((meets_isLost_iff hMeets).mp rfl)]
    exact endPages_lost_iff hNone hMeets
  | failed =>
    have hFails : Fails comm.nodeResult := hMeets
    have hEnds := @writeHandlePages_failed vec comm hFails hNone
    change Truthful vec (endPages _ comm.nodeResult _) ↔ True
    rw [endPages_of_ne hFails.2.2]
    refine ⟨fun _ => trivial, fun _ => ⟨?_, fun index writeRes hIn hPos => ?_, ?_⟩⟩
    · apply List.Perm.of_eq
      rw [hEnds, map_map, ← vec.map_index_pages]
      rfl
    · dsimp only at hIn
      rw [hEnds] at hIn
      obtain ⟨page, -, hPage⟩ := mem_map.mp hIn
      cases hPage
      exact absurd hPos (by decide)
    · exact fun hNonneg => absurd hNonneg (not_le.mpr hFails.1)
  | interrupted =>
    apply endPages_interrupted_iff hMeets
    unfold writefileStageHandlePages
    split <;> rfl
  | reported bytes =>
    obtain ⟨hEnds, hReported⟩ := writeHandlePages_reported hMeets (hIter bytes rfl) hNone
    obtain ⟨hNonneg, hResult, -⟩ := hMeets
    have hComm : -FhgfsOpsErr.COMMUNICATION.code < 0 := by decide
    change Truthful vec (endPages _ comm.nodeResult _) ↔ _
    rw [hResult, endPages_of_ne (by omega)]
    obtain ⟨count, rfl⟩ := Int.eq_ofNat_of_zero_le hNonneg
    have hCovers : (↑count % ↑vec.pageSize = (0 : Int) ∨ (vec.getDataSize : Int) ≤ ↑count) ↔
        count % vec.pageSize = 0 ∨ vec.getDataSize ≤ count := by omega
    apply Iff.trans _ (hCovers.trans (pages_covered_iff vec count).symm).symm
    constructor
    · intro h index hIndex hBelow
      have hWritten : (index, PageEnd.endWritePage (vec.pageLength index)) ∈
          (writefileStageHandlePages vec comm).pageEnds := by
        rw [hEnds]
        refine mem_map.mpr ⟨vec.page index, ?_, ?_⟩
        · exact mem_map.mpr ⟨index, mem_range.mpr hIndex, rfl⟩
        · rw [if_pos (by exact Int.ofNat_lt.mpr hBelow)]
          rfl
      obtain ⟨bytes, hBytes, hCovered⟩ :=
        h.covered index _ hWritten (Int.natCast_pos.mpr (vec.pageLength_pos index))
      rw [hReported] at hBytes
      cases hBytes
      exact Int.ofNat_le.mp hCovered
    · intro hCovered
      refine ⟨?_, fun index writeRes hIn hPos => ⟨count, hReported, ?_⟩, fun _ => hReported⟩
      · apply List.Perm.of_eq
        rw [hEnds, map_map, ← vec.map_index_pages]
        rfl
      · dsimp only at hIn
        rw [hEnds] at hIn
        obtain ⟨page, hPage, hEnd⟩ := mem_map.mp hIn
        obtain ⟨index', hIndex, rfl⟩ := mem_map.mp hPage
        obtain ⟨rfl, hWriteRes⟩ := Prod.mk.inj hEnd
        by_cases hBelow : index' * vec.pageSize < count
        · exact Int.ofNat_le.mpr (hCovered index' (mem_range.mp hIndex) hBelow)
        · rw [if_neg (by exact fun h => hBelow (Int.ofNat_lt.mp h))] at hWriteRes
          cases hWriteRes
          exact absurd hPos (by decide)

theorem rwFileCommunicate_spec (vec : FhgfsChunkPageVec) (maxRetries : Nat)
    (attempts : RWAttempts) :
    match rwFileCommunicate vec maxRetries attempts (assignRWfileState vec) with
    | none => lastOutcome maxRetries 0 (attempts.outcomes vec) = none
    | some (retVal, comm) =>
      ∃ last, lastOutcome maxRetries 0 (attempts.outcomes vec) = some last ∧
        (Truthful vec (endPages attempts retVal comm) ↔ last.EndsPages vec attempts) := by
  cases attempts with
  | read attempts =>
    have hLoop := communicateLoop_spec vec (readfileStagePREPARE vec) (ReadOutcomes.outcome vec)
      (fun comm last => comm.Meets vec last)
      (fun o comm hIter => readfileStagePREPARE_meets o hIter) (fun _ _ h => h)
      readfileStagePREPARE_pageEnds maxRetries 0 (assignRWfileState vec) attempts
    unfold rwFileCommunicate
    dsimp only
    generalize communicateLoop vec (readfileStagePREPARE vec) maxRetries 0 (assignRWfileState vec)
      attempts = result at hLoop ⊢
    cases result with
    | none => exact hLoop
    | some result =>
      obtain ⟨last, hLast, hMeets, hEnds, hRetVal⟩ := hLoop
      refine ⟨last, hLast, ?_⟩
      rw [hRetVal]
      exact read_truthful_iff attempts hMeets hEnds
  | write attempts =>
    have hLoop := communicateLoop_spec vec writefileStagePREPARE (WriteOutcomes.outcome vec)
      (fun comm last =>
        comm.Meets vec last ∧ ∀ bytes, last = .reported bytes → comm.pageIter = [])
      (fun o comm hIter => writefileStagePREPARE_meets o hIter) (fun _ _ h => h.1)
      writefileStagePREPARE_pageEnds maxRetries 0 (assignRWfileState vec) attempts
    unfold rwFileCommunicate
    dsimp only
    generalize communicateLoop vec writefileStagePREPARE maxRetries 0 (assignRWfileState vec)
      attempts = result at hLoop ⊢
    cases result with
    | none => exact hLoop
    | some result =>
      obtain ⟨last, hLast, ⟨hMeets, hIter⟩, hEnds, hRetVal⟩ := hLoop
      refine ⟨last, hLast, ?_⟩
      rw [hRetVal]
      exact write_truthful_iff attempts hMeets hIter hEnds

theorem iterateAll_assigned (attempts : RWAttempts) {retVal : Int} (hNegative : retVal < 0) :
    Truthful vec (retVal, iterateAllHandlePages attempts (assignRWfileState vec)) :=
  (iterateAll_truthful_iff 0 rfl rfl hNegative).mpr rfl

/-- A call returns unless the server keeps on asking for another try. What it returns is truthful
if and only if the attempt with which it stops ends in a way that the call can make good. -/
theorem rwChunkPageVec_truthful_iff (vec : FhgfsChunkPageVec) (chunkPages : Nat) (hasMsgBuf : Bool)
    (maxRetries : Nat) (attempts : RWAttempts) :
    (maxRetries < (attempts.outcomes vec).length →
        (∀ outcome ∈ attempts.outcomes vec, ∀ isBegun, outcome.1 ≠ .lost true isBegun) →
        (rwChunkPageVec vec chunkPages hasMsgBuf maxRetries attempts).isSome) ∧
      ∀ result, rwChunkPageVec vec chunkPages hasMsgBuf maxRetries attempts = some result →
        (Truthful vec result ↔ (vec.size ≤ chunkPages → hasMsgBuf = true →
          ∀ last, lastOutcome maxRetries 0 (attempts.outcomes vec) = some last →
            last.EndsPages vec attempts)) := by
  have hSpec := rwFileCommunicate_spec vec maxRetries attempts
  unfold rwChunkPageVec
  by_cases hSize : vec.size > chunkPages
  · rw [if_pos hSize]
    refine ⟨fun _ _ => rfl, fun result hResult => ?_⟩
    cases hResult
    exact ⟨fun _ hFits => absurd hFits (not_le.mpr hSize),
      fun _ => iterateAll_assigned attempts (by decide)⟩
  rw [if_neg hSize]
  by_cases hBuf : hasMsgBuf = true
  · rw [if_neg (not_not.mpr hBuf)]
    generalize rwFileCommunicate vec maxRetries attempts (assignRWfileState vec) = result
      at hSpec ⊢
    cases result with
    | none =>
      refine ⟨fun hMany hNoAgain => ?_, nofun⟩
      have hSome := lastOutcome_isSome (hMany.trans_eq (zero_add _).symm)
        (Nat.zero_le maxRetries) hNoAgain
      rw [hSpec] at hSome
      cases hSome
    | some result =>
      obtain ⟨last, hLast, hTruthful⟩ := hSpec
      refine ⟨fun _ _ => rfl, fun result' hResult => ?_⟩
      cases hResult
      apply hTruthful.trans
      constructor
      · intro hEnds _ _ last' hLast'
        rw [hLast] at hLast'
        exact Option.some.inj hLast' ▸ hEnds
      · exact fun h => h (Nat.le_of_not_lt hSize) hBuf last hLast
  · rw [if_pos hBuf]
    refine ⟨fun _ _ => rfl, fun result hResult => ?_⟩
    cases hResult
    exact ⟨fun _ _ hHas => absurd hHas hBuf, fun _ => iterateAll_assigned attempts (by decide)⟩

end Calls

/-! ## Pages that stay locked, and results that are not true -/

def twoPages : FhgfsChunkPageVec where
  pageSize := 4096
  size := 2
  lastPageUsedDataSize := 100
  size_pos := by decide
  used_pos := by decide
  used_le := by decide

def answeredWith (response : Option Int) : WriteOutcomes where
  resolveErr := none
  isConnected := true
  isHeaderSent := true
  sendDataPartRes := fun _ => .sent
  response := response

def interruptedRead : ReadOutcomes where
  resolveErr := none
  isConnected := false
  isSignalPending := true
  parts := []

/-- A write that is answered for its first page. -/
theorem truthful_answeredWith_page :
    ∃ result, rwChunkPageVec twoPages 16 true 0 (.write [(answeredWith (some 4096), false)]) =
      some result ∧ Truthful twoPages result := by
  refine ⟨_, rfl, ?_⟩
  apply ((rwChunkPageVec_truthful_iff twoPages 16 true 0
    (.write [(answeredWith (some 4096), false)])).2 _ rfl).mpr
  intro _ _ last hLast
  have hReported : last = .reported 4096 := (Option.some.inj hLast).symm
  rw [hReported]
  exact Or.inl rfl

/-- A write without an answer, a write that is answered for one byte, and a read that is
interrupted. -/
theorem not_truthful :
    (∃ result, rwChunkPageVec twoPages 16 true 0 (.write [(answeredWith none, false)]) =
        some result ∧ ¬Truthful twoPages result) ∧
      (∃ result, rwChunkPageVec twoPages 16 true 0 (.write [(answeredWith (some 1), false)]) =
        some result ∧ ¬Truthful twoPages result) ∧
      ∃ result, rwChunkPageVec twoPages 16 true 0 (.read [(interruptedRead, true)]) =
        some result ∧ ¬Truthful twoPages result := by
  refine ⟨⟨_, rfl, fun h => ?_⟩, ⟨_, rfl, fun h => ?_⟩, ⟨_, rfl, fun h => ?_⟩⟩
  · exact absurd h.once.length_eq (by decide)
  · obtain ⟨bytes, hBytes, hCovered⟩ := h.covered 0 4096 (by decide) (by decide)
    cases hBytes
    exact absurd hCovered (by decide)
  · cases h.reported (by decide)

end Fhgfs.Client
