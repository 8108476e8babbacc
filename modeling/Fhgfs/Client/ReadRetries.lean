import Fhgfs.Client.CommKitRounds
import Fhgfs.Client.ReadProtocol

/-!
# Retried reads

A read that is tried again asks for the bytes from the offset of the first attempt on, but only for
as many as fit behind the data that were received before. So the result is right if no attempt that
failed had received data (`readsRight_of_nothingReceived`).
-/

namespace Fhgfs.Client

open Session Run ReadfileState FhgfsOpsErr.COMMUNICATION List SparseFile

/-- A read of a chunk file with some content into the memory of the caller. -/
structure ReadWork where
  data : IovIter
  offset : Int64
  targetID : UInt16
  useBuddyMirrorSecond : Bool
  memory : Nat → UInt8
  content : List UInt8

/-- What a server sends that works: the chunk file as far as its disk can read it, an error, or the
end of a chunk file that does not exist. -/
inductive ServerReply (content : List UInt8) (offset : Int64) (count : Nat) : List UInt8 → Prop
  | read (cfg : ReadConfig) (pread : Nat → Nat → Option (List UInt8)) (stale : Nat → UInt8)
      (rounds : Nat) (file : SessionLocalFile) (reply : ReadReply) :
      cfg.READ_BUF_LEN_PROTOCOL_CUTOFF < cfg.bufLen.toNat → 0 < cfg.tuneFileReadSize.toInt →
      DiskHas content pread →
      incrementalReadStatefulAndSendV2 cfg ⟨offset, Int64.ofNat count, false⟩ pread stale rounds
        file = some reply →
      ServerReply content offset count reply.sent
  | error (final : Int64) : final.toInt < 0 → ServerReply content offset count (lengthInfo final)
  | noFile : content = [] → ServerReply content offset count (lengthInfo 0)

theorem ServerReply.replied {content : List UInt8} {offset : Int64} {count : Nat}
    {sent : List UInt8} (h : ServerReply content offset count sent)
    (hContent : content.length < 2 ^ 63) (hOffset : 0 ≤ offset.toInt) (hCount : count < 2 ^ 63) :
    Nonempty (Replied content count offset.toInt.toNat sent) := by
  cases h with
  | read cfg pread stale rounds file reply hBuf hSize hDisk hReply =>
    have hInt : (Int64.ofNat count).toInt = count := Int64.toInt_ofNat_of_lt hCount
    have hMax := maxReadAtOnceLen_fits hBuf hSize
      (prepareCounters ⟨offset, Int64.ofNat count, false⟩ file)
    obtain ⟨r, -⟩ := replied_incrementalRead hDisk hMax.1 hContent hOffset (by omega) hReply
    rw [hInt, Int.toNat_natCast] at r
    exact ⟨r⟩
  | error final hFinal => exact ⟨.error hFinal⟩
  | noFile hNone =>
    have hNil : pread content count offset.toInt.toNat = [] := by
      unfold pread
      rw [hNone, drop_nil, take_nil]
    exact ⟨.endOfFile hNil⟩

namespace ReadWork

variable (w : ReadWork)

def assign : ReadfileState :=
  assignReadfileState w.data w.offset w.targetID w.useBuddyMirrorSecond w.memory

/-- A result that is not an error is the number of the bytes that the chunk file has, and these are
in the buffer. -/
def Right (s : ReadfileState) : Prop :=
  0 ≤ s.nodeResult →
    s.nodeResult = (min w.data.count (w.content.length - w.offset.toInt.toNat) : Nat) ∧
      ∀ k < s.nodeResult.toNat, s.own.memory (w.data.iovOffset + k) =
        w.content.getD (w.offset.toInt.toNat + k) 0

/-- What the client can ask for. -/
structure Valid : Prop where
  offset : 0 ≤ w.offset.toInt
  count : w.data.count < 2 ^ 63
  content : w.content.length < 2 ^ 63

def IsReceiving (s : ReadfileState) : Prop :=
  ∃ memory, Nonempty (Receiving w.content w.data.count w.offset.toInt.toNat w.data.iovOffset
    memory s)

def Sound (s : ReadfileState) : Prop :=
  s.offset = w.offset ∧
    match s.stage with
    | .PREPARE => s.nodeResult < 0
    | .SEND => False
    | .RECVHEADER =>
      ∃ memory, ∃ r : Receiving w.content w.data.count w.offset.toInt.toNat w.data.iovOffset memory
        s, r.piece = []
    | .RECVDATA => w.IsReceiving s
    | .SOCKETEXCEPTION => True
    | .SOCKETINVALIDATE => s.nodeResult < 0
    | .CLEANUP => w.Right s
    | .RETRYWAIT => s.nodeResult < 0
    | .DONE => w.Right s

/-! ## Stages -/

section Stages

variable {w : ReadWork} {h : RWfileStatesHelper} {s : ReadfileState} {i : ReadInput}

theorem right_of_neg (hNeg : s.nodeResult < 0) : w.Right s :=
  fun hNonneg => absurd hNeg hNonneg.not_gt

theorem isDataAvailable_cases (h : RWfileStatesHelper) (s : ReadfileState) :
    (ReadfileState.isDataAvailable h s = (false, h, { s with
      nodeResult := -FhgfsOpsErr.COMMUNICATION.code
      stage := .SOCKETINVALIDATE })) ∨
    (∃ h', ReadfileState.isDataAvailable h s =
      (false, h', { s with pollSocksIndex := h.numPollSocks })) ∨
    ReadfileState.isDataAvailable h s = (true, h, s) := by
  unfold ReadfileState.isDataAvailable
  split_ifs
  · exact Or.inl rfl
  · exact Or.inr (Or.inl ⟨_, rfl⟩)
  · exact Or.inr (Or.inr rfl)

theorem sound_invalidate (hOffset : s.offset = w.offset) : w.Sound { s with
    nodeResult := -FhgfsOpsErr.COMMUNICATION.code
    stage := .SOCKETINVALIDATE } :=
  ⟨hOffset, (by decide : -FhgfsOpsErr.COMMUNICATION.code < 0)⟩

variable {memory : Nat → UInt8}

theorem sound_header (hOffset : s.offset = w.offset) (hStage : s.stage = .RECVHEADER)
    (r : Receiving w.content w.data.count w.offset.toInt.toNat w.data.iovOffset memory s)
    (hPiece : r.piece = []) : w.Sound s := by
  refine ⟨hOffset, ?_⟩
  rw [hStage]
  exact ⟨memory, r, hPiece⟩

theorem sound_data (hOffset : s.offset = w.offset) (hStage : s.stage = .RECVDATA)
    (r : Receiving w.content w.data.count w.offset.toInt.toNat w.data.iovOffset memory s) :
    w.Sound s := by
  refine ⟨hOffset, ?_⟩
  rw [hStage]
  exact ⟨memory, ⟨r⟩⟩

theorem sound_stageRECVDATA (hStage : s.stage = .RECVDATA) (hSound : w.Sound s) :
    w.Sound (ReadfileState.stageRECVDATA h s i).2 := by
  obtain ⟨hOffset, hReceives⟩ := hSound
  rw [hStage] at hReceives
  obtain ⟨memory, ⟨r⟩⟩ := hReceives
  unfold ReadfileState.stageRECVDATA
  rcases isDataAvailable_cases h s with hGivenUp | ⟨h', hWaits⟩ | hAvailable
  · rw [hGivenUp]
    exact sound_invalidate hOffset
  · rw [hWaits]
    exact sound_data hOffset hStage (r.of_eq rfl rfl rfl rfl)
  rw [hAvailable]
  cases i.recvRes with
  | addressFault => exact ⟨hOffset, (by decide : -FhgfsOpsErr.ADDRESSFAULT.code < 0)⟩
  | failed => exact ⟨hOffset, trivial⟩
  | received bytes =>
    dsimp only
    split_ifs
    · exact ⟨hOffset, trivial⟩
    have hLe : min bytes (min (ReadfileState.missingLength s) s.own.incoming.length) ≤
        r.piece.length := by
      rw [r.missingLength_eq]
      omega
    generalize min bytes (min (ReadfileState.missingLength s) s.own.incoming.length) = received
      at hLe
    have hStage' := r.stage_receiveData hLe
    by_cases hDone : r.piece.drop received = []
    · rw [if_pos hDone] at hStage'
      exact sound_header hOffset hStage' ((r.receiveData hLe).of_eq rfl rfl rfl rfl) hDone
    · rw [if_neg hDone] at hStage'
      exact sound_data hOffset hStage' ((r.receiveData hLe).of_eq rfl rfl rfl rfl)

theorem right_receiveHeader
    (r : Receiving w.content w.data.count w.offset.toInt.toNat w.data.iovOffset memory s)
    (hPiece : r.piece = []) (hPieces : r.pieces = []) :
    w.Right (receiveHeader s) := by
  rw [(r.receiveHeader_nil hPiece hPieces).2]
  by_cases hNeg : r.final.toInt < 0
  · apply right_of_neg
    show (if r.final.toInt < 0 then r.final.toInt else r.got.length) < 0
    rwa [if_pos hNeg]
  have hZero : r.final.toInt = 0 := by
    have hNonpos := r.final_nonpos
    omega
  have hGot : r.got = pread w.content w.data.count w.offset.toInt.toNat := by
    have hComplete := r.complete (Int64.toInt_inj.mp hZero)
    rwa [hPiece, hPieces, flatten_nil, append_nil, append_nil] at hComplete
  have hLength := length_pread w.content w.offset.toInt.toNat w.data.count
  rw [← hGot] at hLength
  intro _
  show (if r.final.toInt < 0 then r.final.toInt else (r.got.length : Int)) = _ ∧
    ∀ k < (if r.final.toInt < 0 then r.final.toInt else (r.got.length : Int)).toNat,
      storeBytes memory w.data.iovOffset r.got (w.data.iovOffset + k) = _
  rw [if_neg hNeg, hLength]
  refine ⟨rfl, fun k hk => ?_⟩
  rw [Int.toNat_natCast] at hk
  unfold storeBytes
  rw [if_pos (by omega), Nat.add_sub_cancel_left, hGot, getD_pread, if_pos (by omega)]
  rfl

theorem sound_stageRECVHEADER (hWork : w.Valid) (hStage : s.stage = .RECVHEADER)
    (hSound : w.Sound s) : w.Sound (ReadfileState.stageRECVHEADER h s i).2 := by
  obtain ⟨hOffset, hReceives⟩ := hSound
  rw [hStage] at hReceives
  obtain ⟨memory, r, hPiece⟩ := hReceives
  unfold ReadfileState.stageRECVHEADER
  rcases isDataAvailable_cases h s with hGivenUp | ⟨h', hWaits⟩ | hAvailable
  · rw [hGivenUp]
    exact sound_invalidate hOffset
  · rw [hWaits]
    exact sound_header hOffset hStage (r.of_eq rfl rfl rfl rfl) hPiece
  rw [hAvailable]
  dsimp only
  have hReceived : w.Sound (ReadfileState.receiveHeader s) := by
    cases hPieces : r.pieces with
    | nil =>
      have hRight := right_receiveHeader r hPiece hPieces
      rw [(r.receiveHeader_nil hPiece hPieces).2] at hRight ⊢
      exact ⟨hOffset, hRight⟩
    | cons piece pieces =>
      rw [(r.receiveHeader_cons hWork.count hPiece hPieces).2]
      exact ⟨hOffset, memory, ⟨r.header hPiece hPieces rfl rfl rfl rfl⟩⟩
  split_ifs
  · exact ⟨hOffset, trivial⟩
  · exact hReceived
  · exact hReceived

theorem stageCLEANUP_cases (h : RWfileStatesHelper) (s : ReadfileState) (i : ReadInput) :
    ∃ node, (s.nodeResult < 0 ∧ (ReadfileState.stageCLEANUP h s i).2 = { s with
        node := node
        nodeResult := -FhgfsOpsErr.INTERRUPTED.code
        stage := .DONE }) ∨
      (s.nodeResult < 0 ∧
        (ReadfileState.stageCLEANUP h s i).2 = { s with node := node, stage := .RETRYWAIT }) ∨
      (ReadfileState.stageCLEANUP h s i).2 = { s with node := node, stage := .DONE } := by
  have hComm : ∀ {result : Int}, result = -FhgfsOpsErr.COMMUNICATION.code → result < 0 := by
    rintro _ rfl
    decide
  unfold ReadfileState.stageCLEANUP RWfileStatesHelper.releaseNode
  cases hNode : s.node.isSome
  all_goals
    simp only [if_true, if_false, Bool.false_eq_true]
    split_ifs with hResult
    · exact ⟨_, Or.inl ⟨hComm hResult, rfl⟩⟩
    · exact ⟨_, Or.inr (Or.inl ⟨hComm hResult, rfl⟩)⟩
    · exact ⟨_, Or.inr (Or.inr rfl)⟩
    · exact ⟨_, Or.inr (Or.inr rfl)⟩

theorem sound_stageCLEANUP (hOffset : s.offset = w.offset) (hRight : w.Right s) :
    w.Sound (stageCLEANUP h s i).2 := by
  obtain ⟨node, ⟨hNeg, hEq⟩ | ⟨hNeg, hEq⟩ | hEq⟩ := stageCLEANUP_cases h s i
  · have hInterrupted : -FhgfsOpsErr.INTERRUPTED.code < 0 := by decide
    rw [hEq]
    exact ⟨hOffset, right_of_neg hInterrupted⟩
  · rw [hEq]
    exact ⟨hOffset, hNeg⟩
  · rw [hEq]
    exact ⟨hOffset, hRight⟩

theorem sound_stageSOCKETINVALIDATE (hOffset : s.offset = w.offset) (hNeg : s.nodeResult < 0) :
    w.Sound (stageCLEANUP (stageSOCKETINVALIDATE h s).1 (stageSOCKETINVALIDATE h s).2 i).2 :=
  sound_stageCLEANUP hOffset (right_of_neg hNeg)

section

variable (hWork : w.Valid) (hOffset : s.offset = w.offset) (hData : s.data = w.data)
  (hReply : ServerReply w.content s.offset s.data.count (i.serve s.offset s.data.count))
include hWork hOffset hData hReply

theorem sound_stageSEND : w.Sound (stageSEND h s i).2 := by
  unfold stageSEND
  split_ifs
  · exact ⟨hOffset, trivial⟩
  · rw [hOffset, hData] at hReply
    obtain ⟨r⟩ := hReply.replied hWork.content hWork.offset hWork.count
    have hIncoming : i.serve s.offset s.data.count = i.serve w.offset w.data.count := by
      rw [hOffset, hData]
    exact sound_header hOffset rfl (.start_reply r hIncoming rfl rfl hData rfl) rfl

theorem sound_stagePREPARE (hStage : s.stage = .PREPARE) :
    w.Sound (match stagePREPARE h s i with
      | (false, h, s) => (h, s)
      | (true, h, s) => stageSEND h s i).2 := by
  have hSpec := prepare_spec i.prepare h s
  unfold stagePREPARE
  generalize prepare i.prepare h s = prepared at hSpec
  obtain ⟨outcome, h', s'⟩ := prepared
  obtain ⟨hStage', hData', hOffset', -, hNeg⟩ := hSpec
  cases outcome with
  | cleanup => exact ⟨hOffset'.trans hOffset, right_of_neg hNeg⟩
  | unconnectable =>
    refine ⟨hOffset'.trans hOffset, ?_⟩
    rwa [hStage', hStage]
  | connected =>
    rw [← hOffset', ← hData'] at hReply
    exact sound_stageSEND hWork (hOffset'.trans hOffset) (hData'.trans hData) hReply

end

theorem sound_readStep (hWork : w.Valid) (hSound : w.Sound s)
    (hNothing : s.stage = .PREPARE → s.data = w.data)
    (hReply : s.stage = .PREPARE →
      ServerReply w.content s.offset s.data.count (i.serve s.offset s.data.count)) :
    w.Sound (readStep i h s).2 := by
  have hKept := hSound
  obtain ⟨hOffset, hStageSound⟩ := hSound
  unfold readStep
  cases hStage : s.stage
  all_goals
    rw [hStage] at hStageSound
    dsimp only
  case PREPARE => exact sound_stagePREPARE hWork hOffset (hNothing hStage) (hReply hStage) hStage
  case SEND => exact hStageSound.elim
  case RECVHEADER =>
    have hHeader := sound_stageRECVHEADER (h := h) (i := i) hWork hStage hKept
    split_ifs with hNext
    · exact sound_stageRECVDATA hNext hHeader
    · exact hHeader
  case RECVDATA => exact sound_stageRECVDATA hStage hKept
  case SOCKETEXCEPTION =>
    have hComm : -FhgfsOpsErr.COMMUNICATION.code < 0 := by decide
    exact sound_stageSOCKETINVALIDATE hOffset hComm
  case SOCKETINVALIDATE => exact sound_stageSOCKETINVALIDATE hOffset hStageSound
  case CLEANUP => exact sound_stageCLEANUP hOffset hStageSound
  case RETRYWAIT => exact hKept
  case DONE => exact hKept

theorem sound_retried {s' : ReadfileState} (hSound : w.Sound s)
    (hRetried : Retried .RETRYWAIT .PREPARE .DONE s s') : w.Sound s' := by
  obtain ⟨hOffset, hStageSound⟩ := hSound
  cases hRetried with
  | same => exact ⟨hOffset, hStageSound⟩
  | prepared useBuddyMirrorSecond hStage =>
    rw [hStage] at hStageSound
    exact ⟨hOffset, hStageSound⟩
  | cancelled useBuddyMirrorSecond hStage =>
    refine ⟨hOffset, right_of_neg (s := { s with
      useBuddyMirrorSecond := useBuddyMirrorSecond, stage := .DONE }) ?_⟩
    rcases hStage with hStage | hStage
    all_goals
      rwa [hStage] at hStageSound

end Stages

end ReadWork

/-! ## Runs -/

/-- The servers answer the requests that are sent. -/
def Serves (works : List ReadWork) (c : RWfileStatesHelper × List ReadfileState)
    (i : RoundInput ReadInput) : Prop :=
  ∀ (j : Nat) (w : ReadWork) (s : ReadfileState), works[j]? = some w → c.2[j]? = some s →
    s.stage = .PREPARE →
      ServerReply w.content s.offset s.data.count ((i.stages j).serve s.offset s.data.count)

/-- The states that are prepared again have not received data. -/
def NothingReceived (works : List ReadWork) (c : RWfileStatesHelper × List ReadfileState) : Prop :=
  ∀ (j : Nat) (w : ReadWork) (s : ReadfileState), works[j]? = some w → c.2[j]? = some s →
    s.stage = .PREPARE → s.data = w.data

/-- The states that are done have the right result. -/
def ReadsRight (works : List ReadWork) (c : RWfileStatesHelper × List ReadfileState) : Prop :=
  ∀ (j : Nat) (w : ReadWork) (s : ReadfileState), works[j]? = some w → c.2[j]? = some s →
    s.stage = .DONE → w.Right s

section Runs

variable {works : List ReadWork}

def AllSound (works : List ReadWork) (c : RWfileStatesHelper × List ReadfileState) : Prop :=
  ∀ (j : Nat) (w : ReadWork) (s : ReadfileState), works[j]? = some w → c.2[j]? = some s → w.Sound s

theorem allSound_assign (h : RWfileStatesHelper) :
    AllSound works (h, works.map ReadWork.assign) := by
  intro j w s hWork hState
  rw [getElem?_map, hWork] at hState
  cases hState
  exact ⟨rfl, (by decide : -FhgfsOpsErr.INTERNAL.code < 0)⟩

theorem allSound_round (hWorks : ∀ w ∈ works, w.Valid)
    {c : RWfileStatesHelper × List ReadfileState} {i : RoundInput ReadInput}
    (hSound : AllSound works c) (hServes : Serves works c i) (hNothing : NothingReceived works c) :
    AllSound works (readfileV2bCommunicate c i) := by
  intro j w s hWork hState
  refine round_keeps (fun i h => readRetryChoice i h.isBuddyMirror)
    (I := fun j s => ∀ w, works[j]? = some w → w.Sound s) ?_ ?_ ?_ hState w hWork
  · intro j h s hSome hBefore w hWork
    exact ReadWork.sound_readStep (hWorks w (mem_of_getElem? hWork)) (hBefore w hWork)
      (hNothing j w s hWork hSome) (hServes j w s hWork hSome)
  · intro j s s' hBefore hRetried w hWork
    exact ReadWork.sound_retried (hBefore w hWork) hRetried
  · intro j s hSome w hWork
    exact hSound j w s hWork hSome

theorem readsRight_of_allSound {c : RWfileStatesHelper × List ReadfileState}
    (hSound : AllSound works c) : ReadsRight works c := by
  intro j w s hWork hState hDone
  have hStage := (hSound j w s hWork hState).2
  rwa [hDone] at hStage

/-- If no attempt has received data before the read is tried again, every read that is done without
an error has the data of the chunk file. -/
theorem readsRight_of_nothingReceived (hWorks : ∀ w ∈ works, w.Valid) (h : RWfileStatesHelper)
    (is : List (RoundInput ReadInput))
    (hServes : EveryStep readfileV2bCommunicate (Serves works) (h, works.map ReadWork.assign) is)
    (hNothing : EveryStep readfileV2bCommunicate (fun c _ => NothingReceived works c)
      (h, works.map ReadWork.assign) is) :
    Throughout readfileV2bCommunicate (ReadsRight works) (h, works.map ReadWork.assign) is := by
  apply throughout_of_invariant readfileV2bCommunicate (I := AllSound works)
    (A := fun c i => Serves works c i ∧ NothingReceived works c)
  · intro c hSound
    exact readsRight_of_allSound hSound
  · intro c i hSound hAdmitted
    exact allSound_round hWorks hSound hAdmitted.1 hAdmitted.2
  · exact allSound_assign h
  · exact everyStep_and readfileV2bCommunicate hServes hNothing

/-! ## Two runs -/

/-- A chunk file of four bytes that is read completely. -/
def fourBytes : ReadWork := ⟨⟨0, 4⟩, 0, 1, false, fun _ => 0, [1, 2, 3, 4]⟩

def retryingHelper : RWfileStatesHelper := .start false true 0 fun _ => ⟨none, false⟩

/-- The server has buffers of 4 MiB and its disk works. -/
def serveFourBytes (offset : Int64) (count : Nat) : List UInt8 :=
  match incrementalReadStatefulAndSendV2 ⟨4096, 4194304, 32768, 0, 4194304⟩
      ⟨offset, Int64.ofNat count, false⟩
      (fun count offset => some (SparseFile.pread fourBytes.content count offset)) (fun _ => 0)
      (count + 1) (readAt 0) with
  | some reply => reply.sent
  | none => lengthInfo (-1)

/-- A round in which all goes well up to the data. -/
def roundWith (recvRes : RecvResult) : RoundInput ReadInput where
  stages := fun _ => ⟨⟨fun targetID _ => targetID, fun _ => some ⟨.ONLINE, .GOOD⟩, fun _ => 1,
    fun _ => true, fun _ => true, 100⟩, 100, serveFourBytes, false, recvRes, false⟩
  poll := ⟨1, fun _ => true⟩
  retry := ⟨fun targetID _ => targetID, fun _ => (true, ⟨.ONLINE, .GOOD⟩)⟩

section

variable (c : RWfileStatesHelper × List ReadfileState)

theorem serves_roundWith (recvRes : RecvResult) : Serves [fourBytes] c (roundWith recvRes) := by
  intro j w s hWork _ _
  obtain rfl := mem_singleton.mp (mem_of_getElem? hWork)
  show ServerReply _ _ _ (serveFourBytes s.offset s.data.count)
  unfold serveFourBytes
  split
  · rename_i reply hReply
    exact .read _ _ _ _ _ _ (by decide) (by decide) (fun _ _ => Or.inr rfl) hReply
  · exact .error (-1) (by decide)

theorem everyStep_serves_roundWith (received : List RecvResult) :
    EveryStep readfileV2bCommunicate (Serves [fourBytes]) c (received.map roundWith) := by
  apply everyStep_of_forall
  intro c i hIn
  obtain ⟨recvRes, -, rfl⟩ := mem_map.mp hIn
  exact serves_roundWith c recvRes

end

theorem valid_fourBytes : ∀ w ∈ [fourBytes], w.Valid := by
  intro w hIn
  obtain rfl := mem_singleton.mp hIn
  exact ⟨by decide, by decide, by decide⟩

def failedOnce : List RecvResult := [.failed, .failed] ++ List.replicate 5 (.received 4)

def resumed : List RecvResult :=
  [.received 2, .received 2, .failed, .failed] ++ List.replicate 4 (.received 2)

/-- A read that fails once before any data have come. -/
theorem readsRight_failedOnce :
    Throughout readfileV2bCommunicate (ReadsRight [fourBytes]) (retryingHelper, [fourBytes.assign])
      (failedOnce.map roundWith) := by
  have hUntouched : EveryStep readfileV2bCommunicate
      (fun c _ => ∀ s ∈ c.2, s.stage = .PREPARE → s.data = fourBytes.data)
      (retryingHelper, [fourBytes.assign])
      (failedOnce.map roundWith) := by decide +kernel
  apply readsRight_of_nothingReceived valid_fourBytes retryingHelper
  · exact everyStep_serves_roundWith _ _
  · refine everyStep_imp readfileV2bCommunicate (I := fun _ => True) (fun _ _ _ _ => trivial) ?_
      trivial hUntouched
    intro c i _ hStates j w s hWork hState
    obtain rfl := mem_singleton.mp (mem_of_getElem? hWork)
    exact hStates s (mem_of_getElem? hState)

/-- The connection breaks after two of the four bytes. The retry asks for two bytes from the old
offset on, and the read ends with a result of two bytes. -/
theorem not_readsRight_resumed :
    ¬∀ (works : List ReadWork) (h : RWfileStatesHelper) (is : List (RoundInput ReadInput)),
      (∀ w ∈ works, w.Valid) →
      EveryStep readfileV2bCommunicate (Serves works) (h, works.map ReadWork.assign) is →
      Throughout readfileV2bCommunicate (ReadsRight works) (h, works.map ReadWork.assign) is := by
  intro hAll
  have hRight := (throughout_iff readfileV2bCommunicate).mp
    (hAll [fourBytes] retryingHelper _ valid_fourBytes (everyStep_serves_roundWith _ resumed)) 8
  have hEnd : ((after readfileV2bCommunicate (retryingHelper, [fourBytes.assign])
      ((resumed.map roundWith).take 8)).2[0]?).map (fun s => (s.stage, s.nodeResult)) =
        some (.DONE, 2) := by decide +kernel
  obtain ⟨s, hState, hPair⟩ := Option.map_eq_some_iff.mp hEnd
  have hDone : s.stage = .DONE := congrArg Prod.fst hPair
  have hResult : s.nodeResult = 2 := congrArg Prod.snd hPair
  have hTwo := (hRight 0 fourBytes s rfl hState hDone (by omega)).1
  rw [hResult] at hTwo
  exact absurd hTwo (by decide)

end Runs

end Fhgfs.Client
