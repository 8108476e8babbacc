import Fhgfs.Client.CommKitAccounting
import Fhgfs.Client.ReadRetries

/-!
# The accounts of reads and writes

Every stage of a read and of a write keeps the accounts, so those of the whole communications are
right (`communications_accounted`).
-/

namespace Fhgfs.Client

open ReadfileState WritefileState Stepped List

/-! ## Reads -/

def readKinds : StageKinds ReadfileStage where
  phase
    | .PREPARE => .preparing
    | .SEND => .connected
    | .RECVHEADER => .polling
    | .RECVDATA => .polling
    | .SOCKETEXCEPTION => .connected
    | .SOCKETINVALIDATE => .connected
    | .CLEANUP => .cleaning
    | .RETRYWAIT => .waiting
    | .DONE => .done
  prepare := .PREPARE
  retryWait := .RETRYWAIT
  done := .DONE
  phase_eq_preparing := by rintro ⟨⟩ <;> decide
  phase_eq_waiting := by rintro ⟨⟩ <;> decide
  phase_eq_done := by rintro ⟨⟩ <;> decide

/-- The events that a read acts on are those of its connection, also when the data come in the
round of their length. -/
def ReadActsOnOwn (i : ReadInput) (h : RWfileStatesHelper) (s : ReadfileState) : Prop :=
  (s.stage = .RECVHEADER ∨ s.stage = .RECVDATA → EventIsOwn h s) ∧
    (s.stage = .RECVHEADER → (ReadfileState.stageRECVHEADER h s i).2.stage = .RECVDATA →
      EventIsOwn (ReadfileState.stageRECVHEADER h s i).1 (ReadfileState.stageRECVHEADER h s i).2)

namespace ReadfileState

variable {h : RWfileStatesHelper} {s : ReadfileState} {i : ReadInput}

theorem stepped_stageSEND (hStage : s.stage = .SEND) : Stepped readKinds h s (stageSEND h s i) := by
  have hFrom : (readKinds.phase s.stage).hasConn = true := by rw [hStage]; rfl
  unfold stageSEND
  split
  · exact .connected hFrom rfl rfl rfl
  · exact .polling hFrom rfl rfl rfl

theorem stepped_stageRECVDATA (hStage : s.stage = .RECVDATA) :
    Stepped readKinds h s (stageRECVDATA h s i) := by
  have hPolling : readKinds.phase s.stage = .polling := by rw [hStage]; rfl
  have hFrom : _ = true := congrArg Phase.hasConn hPolling
  unfold stageRECVDATA isDataAvailable
  split_ifs
  · exact .connected hFrom rfl rfl rfl
  · exact .polling hFrom hPolling rfl rfl
  dsimp only
  cases i.recvRes with
  | addressFault | failed => exact .connected hFrom rfl rfl rfl
  | received bytes =>
    dsimp only
    split
    · exact .connected hFrom rfl rfl rfl
    · refine .polling hFrom ?_ rfl rfl
      unfold receiveData
      split <;> rfl

theorem stepped_stageRECVHEADER (hStage : s.stage = .RECVHEADER) :
    ((stageRECVHEADER h s i).2.stage ≠ .RECVDATA ∧ Stepped readKinds h s (stageRECVHEADER h s i)) ∨
    ((stageRECVHEADER h s i).2.stage = .RECVDATA ∧ (stageRECVHEADER h s i).1 = h ∧
      (stageRECVHEADER h s i).2.sock = s.sock ∧ (stageRECVHEADER h s i).2.node = s.node ∧
      (stageRECVHEADER h s i).2.pollSocksIndex = s.pollSocksIndex) := by
  have hPolling : readKinds.phase s.stage = .polling := by rw [hStage]; rfl
  have hFrom : _ = true := congrArg Phase.hasConn hPolling
  unfold stageRECVHEADER isDataAvailable
  split_ifs
  · exact Or.inl ⟨nofun, .connected hFrom rfl rfl rfl⟩
  · refine Or.inl ⟨?_, .polling hFrom hPolling rfl rfl⟩
    show s.stage ≠ _
    rw [hStage]
    exact nofun
  dsimp only
  unfold receiveHeader
  split_ifs
  · exact Or.inl ⟨nofun, .connected hFrom rfl rfl rfl⟩
  · exact Or.inl ⟨nofun, .released hFrom rfl rfl⟩
  · exact Or.inl ⟨nofun, .released hFrom rfl rfl⟩
  · exact Or.inl ⟨nofun, .connected hFrom rfl rfl rfl⟩
  · exact Or.inr ⟨rfl, rfl, rfl, rfl, rfl⟩

theorem stepped_stageCLEANUP (hStage : s.stage = .CLEANUP) :
    Stepped readKinds h s (stageCLEANUP h s i) := by
  have hFrom : readKinds.phase s.stage = .cleaning := by rw [hStage]; rfl
  have hNotDone : readKinds.phase s.stage ≠ .done := by rw [hFrom]; exact nofun
  obtain ⟨hMoved, hKept, hNode⟩ := moved_cleaned (h := h) hFrom
  unfold stageCLEANUP
  generalize (if s.node.isSome then h.releaseNode s else (h, s)) = cleaned at hMoved hKept hNode
  dsimp only
  split_ifs
  · exact .becomeDone hMoved hKept hNotDone hNode rfl
  · exact .becomeWaiting hMoved hKept hNotDone hNode rfl
  · exact .becomeDone hMoved hKept hNotDone hNode rfl
  · exact .becomeDone hMoved hKept hNotDone hNode rfl

theorem stepped_stageSOCKETINVALIDATE {s' : ReadfileState}
    (hFrom : (readKinds.phase s.stage).hasConn = true) (hSock : s'.sock = s.sock)
    (hNode : s'.node = s.node) :
    Stepped readKinds h s (stageCLEANUP (stageSOCKETINVALIDATE h s').1
      (stageSOCKETINVALIDATE h s').2 i) := by
  have hMoved : Moved h (holding readKinds s) (stageSOCKETINVALIDATE h s').1
      (holding readKinds (stageSOCKETINVALIDATE h s').2) := by
    unfold stageSOCKETINVALIDATE
    rw [hSock]
    exact moved_released hFrom rfl hNode
  exact .after hMoved ⟨rfl, rfl, rfl⟩ (not_counted_of_hasConn hFrom).1
    (stepped_stageCLEANUP rfl)

theorem stepped_stagePREPARE (hStage : s.stage = .PREPARE) (hFits : NodeFits readKinds s) :
    Stepped readKinds h s (match stagePREPARE h s i with
      | (false, h, s) => (h, s)
      | (true, h, s) => stageSEND h s i) := by
  have hFrom : readKinds.phase s.stage = .preparing := by rw [hStage]; rfl
  have hMoves := prepareMoves i.prepare h (hFits (by rw [hFrom]; rfl))
  have hKept := (prepare_spec i.prepare h s).1
  unfold stagePREPARE
  generalize prepare i.prepare h s = prepared at hMoves hKept
  obtain ⟨outcome, h', s'⟩ := prepared
  cases outcome with
  | cleanup => exact .notPrepared hFrom hFits hMoves rfl rfl
  | unconnectable =>
    refine .unconnectable hFrom hFits hMoves ?_
    rwa [show s'.stage = s.stage from hKept]
  | connected =>
    have hNext : Stepped readKinds h' { s' with stage := .SEND }
        (stageSEND h' { s' with stage := .SEND } i) := stepped_stageSEND rfl
    exact .prepared hFrom hFits hNext hMoves rfl rfl rfl

end ReadfileState

section

variable (i : ReadInput) (h : RWfileStatesHelper) (s : ReadfileState)
include h

theorem stepped_readStep
    (hFits : NodeFits readKinds s) : Stepped readKinds h s (readStep i h s) := by
  unfold readStep
  cases hStage : s.stage with
  | PREPARE => exact stepped_stagePREPARE hStage hFits
  | SEND => exact stepped_stageSEND hStage
  | RECVHEADER =>
    rcases stepped_stageRECVHEADER (h := h) (i := i) hStage with
      ⟨hEnds, hStepped⟩ | ⟨hData, hHelper, hSock, hNode, -⟩
    · rwa [if_neg hEnds]
    rw [if_pos hData, hHelper]
    have hNext := stepped_stageRECVDATA (h := h) (i := i) hData
    refine .after ?_ ⟨rfl, rfl, rfl⟩ ?_ hNext
    · exact moved_of_hasConn (by rw [hStage]; rfl) (by rw [hData]; rfl) hSock hNode
    · rw [hStage]
      exact nofun
  | RECVDATA => exact stepped_stageRECVDATA hStage
  | SOCKETEXCEPTION | SOCKETINVALIDATE =>
    exact stepped_stageSOCKETINVALIDATE (by rw [hStage]; rfl) rfl rfl
  | CLEANUP => exact stepped_stageCLEANUP hStage
  | RETRYWAIT | DONE => exact .nothing hFits (by rw [hStage]; exact nofun)

theorem readActsOnOwn
    (hOwn : readKinds.phase s.stage = .polling → EventIsOwn h s) : ReadActsOnOwn i h s := by
  constructor
  · rintro (hStage | hStage)
    · exact hOwn (by rw [hStage]; rfl)
    · exact hOwn (by rw [hStage]; rfl)
  · intro hStage hData
    rcases stepped_stageRECVHEADER (h := h) (i := i) hStage with
      ⟨hEnds, -⟩ | ⟨-, hHelper, hSock, -, hIndex⟩
    · exact absurd hData hEnds
    · unfold EventIsOwn
      rw [hHelper, hSock, hIndex]
      exact hOwn (by rw [hStage]; rfl)

end

/-! ## Writes -/

def writeKinds : StageKinds WritefileStage where
  phase
    | .PREPARE => .preparing
    | .SENDHEADER => .connected
    | .SENDDATA => .polling
    | .RECV => .polling
    | .SOCKETEXCEPTION => .connected
    | .SOCKETINVALIDATE => .connected
    | .CLEANUP => .cleaning
    | .RETRYWAIT => .waiting
    | .DONE => .done
  prepare := .PREPARE
  retryWait := .RETRYWAIT
  done := .DONE
  phase_eq_preparing := by rintro ⟨⟩ <;> decide
  phase_eq_waiting := by rintro ⟨⟩ <;> decide
  phase_eq_done := by rintro ⟨⟩ <;> decide

def WriteActsOnOwn (_i : WriteInput) (h : RWfileStatesHelper) (s : WritefileState) : Prop :=
  s.stage = .SENDDATA ∨ s.stage = .RECV → EventIsOwn h s

namespace WritefileState

variable {h : RWfileStatesHelper} {s : WritefileState} {i : WriteInput}

theorem stepped_stageSENDHEADER (hStage : s.stage = .SENDHEADER) :
    Stepped writeKinds h s (stageSENDHEADER h s i) := by
  have hFrom : (writeKinds.phase s.stage).hasConn = true := by rw [hStage]; rfl
  unfold stageSENDHEADER
  split
  · exact .connected hFrom rfl rfl rfl
  · exact .polling hFrom rfl rfl rfl

theorem stepped_stageSENDDATA (hStage : s.stage = .SENDDATA) :
    Stepped writeKinds h s (stageSENDDATA h s i) := by
  have hPolling : writeKinds.phase s.stage = .polling := by rw [hStage]; rfl
  have hFrom : _ = true := congrArg Phase.hasConn hPolling
  unfold stageSENDDATA isDataAvailable
  split_ifs
  · exact .connected hFrom rfl rfl rfl
  · exact .polling hFrom hPolling rfl rfl
  dsimp only
  split
  · exact .connected hFrom rfl rfl rfl
  · exact .connected hFrom rfl rfl rfl
  · refine .polling hFrom ?_ rfl rfl
    split <;> rfl

theorem stepped_stageRECV (hStage : s.stage = .RECV) :
    Stepped writeKinds h s (stageRECV h s i) := by
  have hPolling : writeKinds.phase s.stage = .polling := by rw [hStage]; rfl
  have hFrom : _ = true := congrArg Phase.hasConn hPolling
  unfold stageRECV isDataAvailable
  split_ifs
  · exact .connected hFrom rfl rfl rfl
  · exact .polling hFrom hPolling rfl rfl
  · dsimp only
    cases i.response with
    | failed | invalid => exact .connected hFrom rfl rfl rfl
    | value writeRespValue => exact .released hFrom rfl rfl

theorem stepped_stageCLEANUP (hStage : s.stage = .CLEANUP) :
    Stepped writeKinds h s (stageCLEANUP h s i) := by
  have hFrom : writeKinds.phase s.stage = .cleaning := by rw [hStage]; rfl
  have hNotDone : writeKinds.phase s.stage ≠ .done := by rw [hFrom]; exact nofun
  obtain ⟨hMoved, hKept, hNode⟩ := moved_cleaned (h := h) hFrom
  unfold stageCLEANUP
  generalize (if s.node.isSome then h.releaseNode s else (h, s)) = cleaned at hMoved hKept hNode
  dsimp only
  split_ifs
  · exact .becomeDone hMoved hKept hNotDone hNode rfl
  · exact .becomeWaiting hMoved hKept hNotDone hNode rfl
  · exact .becomeDone hMoved hKept hNotDone hNode rfl
  · exact .becomeDone hMoved hKept hNotDone hNode rfl

theorem stepped_stageSOCKETINVALIDATE {s' : WritefileState}
    (hFrom : (writeKinds.phase s.stage).hasConn = true) (hSock : s'.sock = s.sock)
    (hNode : s'.node = s.node) :
    Stepped writeKinds h s (stageCLEANUP (stageSOCKETINVALIDATE h s').1
      (stageSOCKETINVALIDATE h s').2 i) := by
  have hMoved : Moved h (holding writeKinds s) (stageSOCKETINVALIDATE h s').1
      (holding writeKinds (stageSOCKETINVALIDATE h s').2) := by
    unfold stageSOCKETINVALIDATE
    rw [hSock]
    exact moved_released hFrom rfl hNode
  exact .after hMoved ⟨rfl, rfl, rfl⟩ (not_counted_of_hasConn hFrom).1
    (stepped_stageCLEANUP rfl)

theorem stepped_stagePREPARE (hStage : s.stage = .PREPARE) (hFits : NodeFits writeKinds s) :
    Stepped writeKinds h s (match stagePREPARE h s i with
      | (false, h, s) => (h, s)
      | (true, h, s) => stageSENDHEADER h s i) := by
  have hFrom : writeKinds.phase s.stage = .preparing := by rw [hStage]; rfl
  have hNode : ({ s with data := s.own } : WritefileState).node = none := hFits (by rw [hFrom]; rfl)
  have hMoves := prepareMoves i.prepare h hNode
  have hKept := (prepare_spec i.prepare h { s with data := s.own }).1
  unfold stagePREPARE
  generalize prepare i.prepare h { s with data := s.own } = prepared at hMoves hKept
  obtain ⟨outcome, h', s'⟩ := prepared
  cases outcome with
  | cleanup => exact .notPrepared hFrom hFits hMoves rfl rfl
  | unconnectable =>
    refine .unconnectable hFrom hFits hMoves ?_
    rwa [show s'.stage = s.stage from hKept]
  | connected =>
    have hNext : Stepped writeKinds h' { s' with stage := .SENDHEADER }
        (stageSENDHEADER h' { s' with stage := .SENDHEADER } i) := stepped_stageSENDHEADER rfl
    exact .prepared hFrom hFits hNext hMoves rfl rfl rfl

end WritefileState

section

variable (i : WriteInput) (h : RWfileStatesHelper) (s : WritefileState)
include h

theorem stepped_writeStep
    (hFits : NodeFits writeKinds s) : Stepped writeKinds h s (writeStep i h s) := by
  unfold writeStep
  cases hStage : s.stage with
  | PREPARE => exact stepped_stagePREPARE hStage hFits
  | SENDHEADER => exact stepped_stageSENDHEADER hStage
  | SENDDATA => exact stepped_stageSENDDATA hStage
  | RECV => exact stepped_stageRECV hStage
  | SOCKETEXCEPTION | SOCKETINVALIDATE =>
    exact stepped_stageSOCKETINVALIDATE (by rw [hStage]; rfl) rfl rfl
  | CLEANUP => exact stepped_stageCLEANUP hStage
  | RETRYWAIT | DONE => exact .nothing hFits (by rw [hStage]; exact nofun)

theorem writeActsOnOwn
    (hOwn : writeKinds.phase s.stage = .polling → EventIsOwn h s) : WriteActsOnOwn i h s := by
  rintro (hStage | hStage)
  · exact hOwn (by rw [hStage]; rfl)
  · exact hOwn (by rw [hStage]; rfl)

end

/-! ## Both -/

theorem topOfRound_start {σ δ : Type} {kinds : StageKinds σ}
    (isBuddyMirror connRetriesEnabled : Bool)
    (maxNumRetries : Nat) (pollSocks : Nat → PollSocketEx) {states : List (RWfileState σ δ)}
    (hAssigned : ∀ s ∈ states, s.stage = kinds.prepare ∧ s.node = none) :
    TopOfRound kinds (.start isBuddyMirror connRetriesEnabled maxNumRetries pollSocks, states) := by
  have hIdle : ∀ s ∈ states, Idle kinds s := fun s hIn =>
    ⟨(hAssigned s hIn).2, Or.inl (hAssigned s hIn).1⟩
  have hPhase : ∀ s ∈ states, kinds.phase s.stage = .preparing := fun s hIn =>
    (kinds.phase_eq_preparing _).mpr (hAssigned s hIn).1
  have hNone : ∀ phase : Phase, phase ≠ .preparing →
      (states.map (holding kinds)).countP (·.phase = phase) = 0 := by
    intro phase hNe
    rw [countP_eq_zero]
    intro a hIn
    obtain ⟨s, hState, rfl⟩ := mem_map.mp hIn
    show ¬decide (kinds.phase s.stage = phase) = true
    rw [decide_eq_true_eq, hPhase s hState]
    exact hNe.symm
  refine ⟨(accounts_iff_of_nothing (forall_holding_of_idle hIdle)).mpr ⟨rfl, ?_, ?_, ?_, ?_⟩,
    ?_, ?_⟩
  · exact (hNone .done nofun).symm
  · exact (hNone .waiting nofun).symm
  · exact Loans.balanced_empty
  · exact Loans.balanced_empty
  · exact fun s hIn => nodeFits_of_none (hIdle s hIn).1
  · intro s hIn hPolling
    rw [hPhase s hIn] at hPolling
    cases hPolling

/-- The accounts of `FhgfsOpsCommKit_readfileV2bCommunicate` and
`FhgfsOpsCommKit_writefileV2bCommunicate` are right for all states and outcomes. -/
theorem communications_accounted (isBuddyMirror connRetriesEnabled : Bool) (maxNumRetries : Nat)
    (pollSocks : Nat → PollSocketEx) (reads : List ReadWork) (writes : List WriteWork)
    (readRounds : List (RoundInput ReadInput)) (writeRounds : List (RoundInput WriteInput)) :
    Accounted readKinds ReadActsOnOwn readStep readStartRetry
        (.start isBuddyMirror connRetriesEnabled maxNumRetries pollSocks,
          reads.map ReadWork.assign) readRounds ∧
      Accounted writeKinds WriteActsOnOwn writeStep writeStartRetry
        (.start isBuddyMirror connRetriesEnabled maxNumRetries pollSocks,
          writes.map WriteWork.assign) writeRounds := by
  constructor
  · refine accounted_of_stepped stepped_readStep readActsOnOwn
      (fun i h => readRetryChoice i h.isBuddyMirror) (topOfRound_start _ _ _ _ ?_) readRounds
    intro s hIn
    obtain ⟨w, -, rfl⟩ := mem_map.mp hIn
    exact ⟨rfl, rfl⟩
  · refine accounted_of_stepped stepped_writeStep writeActsOnOwn
      (fun i h => writeRetryChoice i h.isBuddyMirror) (topOfRound_start _ _ _ _ ?_) writeRounds
    intro s hIn
    obtain ⟨w, -, rfl⟩ := mem_map.mp hIn
    exact ⟨rfl, rfl⟩

end Fhgfs.Client
