import Fhgfs.Client.ReadStream

/-!
# The protocol of reads

The reply of the server is received as the data that were asked for, and up to its last byte, for
every way in which the network cuts it (`streamsRight_iff`). For that the buffer of the server has
to have room for data, and the size of its reads must not be zero.
-/

namespace Fhgfs.Client

open Session Run ReadConfig SparseFile ReadfileState List Bool

/-! ## The network -/

/-- A stage has data, and receives some of them. -/
structure Delivers (h : RWfileStatesHelper) (s : ReadfileState) (i : ReadInput) : Prop where
  inTime : h.pollTimedOut = false
  available : (h.pollSocks s.pollSocksIndex).revents = true
  header : i.headerFailed = false
  data : ∃ bytes, i.recvRes = .received bytes ∧ 0 < bytes

/-- The steps of a state that receives a reply. The network gives any number of bytes of what is
on its way. -/
inductive Receives : ReadfileState → ReadfileState → Prop
  | header {s : ReadfileState} (h : RWfileStatesHelper) (i : ReadInput) :
      s.stage = .RECVHEADER → Delivers h s i → 8 ≤ s.own.incoming.length →
      Receives s (ReadfileState.stageRECVHEADER h s i).2
  | data {s : ReadfileState} (h : RWfileStatesHelper) (i : ReadInput) :
      s.stage = .RECVDATA → Delivers h s i → s.own.incoming ≠ [] →
      Receives s (ReadfileState.stageRECVDATA h s i).2

namespace ReadfileState

variable {h : RWfileStatesHelper} {s : ReadfileState} {i : ReadInput}

section

variable (hDelivers : Delivers h s i)
include hDelivers

theorem isDataAvailable_of_delivers : isDataAvailable h s = (true, h, s) := by
  unfold isDataAvailable
  rw [if_neg (by rw [hDelivers.inTime]; exact false_ne_true), hDelivers.available,
    if_neg (by decide)]

theorem stageRECVHEADER_of_delivers (hEight : 8 ≤ s.own.incoming.length) :
    (stageRECVHEADER h s i).2 = receiveHeader s := by
  unfold stageRECVHEADER
  rw [isDataAvailable_of_delivers hDelivers]
  dsimp only
  rw [hDelivers.header, if_neg (by simp; omega)]
  split <;> rfl

theorem stageRECVDATA_of_delivers (hIncoming : s.own.incoming ≠ [])
    (hMissing : 0 < missingLength s) :
    ∃ bytes, 0 < bytes ∧ bytes ≤ missingLength s ∧ bytes ≤ s.own.incoming.length ∧
      (stageRECVDATA h s i).2 = { receiveData s bytes with pollSocksIndex := h.numPollSocks } := by
  obtain ⟨bytes, hBytes, hPos⟩ := hDelivers.data
  have hLength := length_pos_of_ne_nil hIncoming
  refine ⟨min bytes (min (missingLength s) s.own.incoming.length), by omega, by omega, by omega, ?_⟩
  unfold stageRECVDATA
  rw [isDataAvailable_of_delivers hDelivers]
  rw [hBytes]
  dsimp only
  rw [if_neg (by omega)]
  rfl

end

end ReadfileState

/-! ## The client -/

/-- The data are received, and the reply is at its end. -/
structure Decoded (data : List UInt8) (start : Nat) (memory : Nat → UInt8) (s : ReadfileState) :
    Prop where
  stage : s.stage = .CLEANUP
  nodeResult : s.nodeResult = data.length
  memory_eq : s.own.memory = storeBytes memory start data
  incoming : s.own.incoming = []

/-- A reply without an error that is received, or has been received. -/
def ReceivingOrDecoded (content : List UInt8) (count offset start : Nat) (memory : Nat → UInt8)
    (s : ReadfileState) : Prop :=
  Decoded (SparseFile.pread content count offset) start memory s ∨
    ∃ r : Receiving content count offset start memory s, r.final = 0 ∧ r.rest = [] ∧
      (s.stage = .RECVHEADER ∧ r.piece = [] ∨ s.stage = .RECVDATA ∧ r.piece ≠ [])

section Client

variable {content : List UInt8} {count offset start : Nat} {memory : Nat → UInt8}
  {s s' : ReadfileState}

theorem receiveHeader_step (hCount : count < 2 ^ 63)
    (r : Receiving content count offset start memory s) (hFinal : r.final = 0) (hRest : r.rest = [])
    (hPiece : r.piece = []) :
    ReceivingOrDecoded content count offset start memory (receiveHeader s) := by
  cases hPieces : r.pieces with
  | nil =>
    have hGot : r.got = pread content count offset := by
      have hComplete := r.complete hFinal
      rwa [hPiece, hPieces, flatten_nil, append_nil, append_nil] at hComplete
    rw [(r.receiveHeader_nil hPiece hPieces).2, hFinal, hRest, hGot]
    exact Or.inl ⟨rfl, rfl, rfl, rfl⟩
  | cons piece pieces =>
    rw [(r.receiveHeader_cons hCount hPiece hPieces).2]
    have hNonempty : piece ≠ [] := r.nonempty piece (by rw [hPieces]; exact mem_cons_self)
    exact Or.inr ⟨r.header hPiece hPieces rfl rfl rfl rfl, hFinal, hRest, Or.inr ⟨rfl, hNonempty⟩⟩

theorem receives_step (hCount : count < 2 ^ 63)
    (hState : ReceivingOrDecoded content count offset start memory s) (hStep : Receives s s') :
    ReceivingOrDecoded content count offset start memory s' ∧
      s'.own.incoming.length < s.own.incoming.length := by
  cases hStep with
  | header h i hStage hDelivers hEight =>
    rw [stageRECVHEADER_of_delivers hDelivers hEight]
    rcases hState with hDecoded | ⟨r, hFinal, hRest, ⟨-, hPiece⟩ | ⟨hData, -⟩⟩
    · cases hStage.symm.trans hDecoded.stage
    · refine ⟨receiveHeader_step hCount r hFinal hRest hPiece, ?_⟩
      have hDrop : (receiveHeader s).own.incoming = s.own.incoming.drop 8 := by
        unfold receiveHeader
        split_ifs <;> rfl
      rw [hDrop, length_drop]
      omega
    · cases hStage.symm.trans hData
  | data h i hStage hDelivers hIncoming =>
    rcases hState with hDecoded | ⟨r, hFinal, hRest, ⟨hHeader, -⟩ | ⟨-, hPiece⟩⟩
    · cases hStage.symm.trans hDecoded.stage
    · cases hStage.symm.trans hHeader
    have hMissing := r.missingLength_eq
    have hPos := length_pos_of_ne_nil hPiece
    obtain ⟨bytes, hBytes, hLe, hIn, hEq⟩ :=
      stageRECVDATA_of_delivers hDelivers hIncoming (by omega)
    rw [hEq]
    rw [hMissing] at hLe
    refine ⟨Or.inr ⟨(r.receiveData hLe).of_eq rfl rfl rfl rfl, hFinal, hRest, ?_⟩, ?_⟩
    · have hStage' := r.stage_receiveData hLe
      by_cases hDone : r.piece.drop bytes = []
      · rw [if_pos hDone] at hStage'
        exact Or.inl ⟨hStage', hDone⟩
      · rw [if_neg hDone] at hStage'
        exact Or.inr ⟨hStage', hDone⟩
    · show (s.own.incoming.drop bytes).length < _
      rw [length_drop]
      omega

theorem exists_delivers (s : ReadfileState) : ∃ h i, Delivers h s i := by
  let slots : Nat → PollSocketEx := fun _ => ⟨none, true⟩
  let i : PrepareInput :=
    ⟨fun _ _ => 0, fun _ => none, fun _ => 0, fun _ => false, fun _ => false, 0⟩
  exact ⟨⟨false, false, 0, 0, 0, 0, 0, false, slots, 0, 0, .empty, .empty⟩,
    ⟨i, 0, fun _ _ => [], false, .received 1, false⟩, rfl, rfl, rfl, 1, rfl, one_pos⟩

theorem receives_or_decoded (hState : ReceivingOrDecoded content count offset start memory s)
    (hStop : ∀ s', ¬Receives s s') :
    Decoded (pread content count offset) start memory s := by
  obtain ⟨h, i, hDelivers⟩ := exists_delivers s
  rcases hState with hDecoded | ⟨r, -, -, ⟨hHeader, hPiece⟩ | ⟨hData, hPiece⟩⟩
  · exact hDecoded
  · exact absurd (Receives.header h i hHeader hDelivers (r.eight_le hPiece)) (hStop _)
  · refine absurd (Receives.data h i hData hDelivers fun hNil => hPiece ?_) (hStop _)
    have hIncoming := r.incoming
    rw [hNil] at hIncoming
    exact (append_eq_nil_iff.mp hIncoming.symm).1

/-- A client that has sent its request for `count` bytes and waits for the reply. -/
structure Waiting (sent : List UInt8) (count start : Nat) (memory : Nat → UInt8)
    (s : ReadfileState) : Prop where
  stage : s.stage = .RECVHEADER
  transmitted : s.transmitted = 0
  toBeTransmitted : s.toBeTransmitted = 0
  data : s.data = ⟨start, count⟩
  memory_eq : s.own.memory = memory
  incoming : s.own.incoming = sent

theorem endsIn_decoded (hCount : count < 2 ^ 63) (hNonzero : count ≠ 0) {sent : List UInt8}
    (r : Replied content count offset sent) (hFinal : r.final = 0)
    (hWaiting : Waiting sent count start memory s) :
    EndsIn Receives (Decoded (pread content count offset) start memory) s := by
  apply endsIn_of_decreasing (fun s : ReadfileState => s.own.incoming.length)
    (I := ReceivingOrDecoded content count offset start memory)
  · intro s s' hState hStep
    exact receives_step hCount hState hStep
  · intro s hState hStop
    exact receives_or_decoded hState hStop
  · exact Or.inr ⟨.start_reply r hWaiting.incoming hWaiting.transmitted hWaiting.toBeTransmitted
      hWaiting.data hWaiting.memory_eq, hFinal, r.rest_eq hNonzero, Or.inl ⟨hWaiting.stage, rfl⟩⟩

end Client

/-! ## The server -/

section Server

variable {cfg : ReadConfig}

theorem toSize_of_nonneg {value : Int} (h : 0 ≤ value) (hBound : value < 2 ^ 64) :
    (toSize value : Int) = value := by
  unfold toSize
  omega

theorem maxReadAtOnceLen_fits (hBuf : cfg.READ_BUF_LEN_PROTOCOL_CUTOFF < cfg.bufLen.toNat)
    (hSize : 0 < cfg.tuneFileReadSize.toInt) (file : SessionLocalFile) :
    maxReadAtOnceLen cfg file ≠ 0 ∧ fitsBuffer cfg (maxReadAtOnceLen cfg file) true = true := by
  have hLen : 0 < cfg.dataBufLen := by
    unfold dataBufLen
    omega
  have hBound : cfg.dataBufLen < 2 ^ 64 := by
    have hLt := cfg.bufLen.toNat_lt
    unfold dataBufLen
    omega
  have hMax : maxReadAtOnceLen cfg file ≠ 0 ∧
      (maxReadAtOnceLen cfg file : Int) ≤ cfg.dataBufLen := by
    unfold maxReadAtOnceLen
    split
    · have hMin : (toSize (min cfg.dataBufLen cfg.tuneFileReadSize.toInt) : Int) =
          min cfg.dataBufLen cfg.tuneFileReadSize.toInt := toSize_of_nonneg (by omega) (by omega)
      omega
    · have hAll := toSize_of_nonneg hLen.le hBound
      omega
  refine ⟨hMax.1, ?_⟩
  have hLe := hMax.2
  have hReserve : 8 ≤ cfg.READ_BUF_END_RESERVE := le_max_left _ _
  unfold dataBufLen READ_BUF_LEN_PROTOCOL_CUTOFF at hLe
  unfold fitsBuffer
  rw [decide_eq_true_eq, if_pos rfl]
  omega

theorem fitsBuffer_le {length : Nat} {isFinal : Bool}
    (h : fitsBuffer cfg length isFinal = true) : length ≤ cfg.bufLen.toNat := by
  unfold fitsBuffer at h
  rw [decide_eq_true_eq] at h
  omega

/-- Reads of nothing go on for ever, and reads behind the end of the buffer have no result. -/
theorem readLoop_eq_none {req : ReadRequest} {content : List UInt8} {stale : Nat → UInt8}
    {maxReadAtOnce toBeRead readOffset : Nat} {size : Int64} (hReads : req.disableIO = false)
    (hSome : toBeRead ≠ 0) (hMax : maxReadAtOnce = 0 ∨ toBeRead ≤ maxReadAtOnce ∧
      cfg.bufLen.toNat < toBeRead ∧ readOffset + toBeRead ≤ content.length)
    (rounds : Nat) (file : SessionLocalFile) :
    readLoop cfg req (fun count offset => some (pread content count offset)) stale
      maxReadAtOnce size rounds toBeRead readOffset file = none := by
  induction rounds generalizing file with
  | zero => rfl
  | succ rounds ih =>
    unfold readLoop
    dsimp only
    rw [hReads, if_neg Bool.false_ne_true]
    dsimp only
    have hLength := length_pread content readOffset (min maxReadAtOnce toBeRead)
    rcases hMax with rfl | ⟨hLarge, hOver, hContent⟩
    · rw [Nat.zero_min] at hLength ⊢
      have hNone : (pread content 0 readOffset).length = 0 := by omega
      rw [if_pos hNone, hNone, Nat.sub_zero, add_zero, decide_eq_false hSome,
        if_neg Bool.false_ne_true, ih]
      split <;> rfl
    rw [min_eq_right hLarge] at hLength ⊢
    rw [if_pos (by omega)]
    apply if_pos
    rw [not_eq_true', eq_false_iff]
    intro hFits
    have hLe := fitsBuffer_le hFits
    omega

end Server

/-! ## Both -/

/-- Every read of a chunk file is answered, the session file is then behind the data, and the
client receives these data and the whole reply. -/
def StreamsRight (cfg : ReadConfig) : Prop :=
  ∀ (content : List UInt8) (file : SessionLocalFile) (stale : Nat → UInt8) (offset count : Int64),
    content.length < 2 ^ 63 → 0 ≤ offset.toInt → 0 < count.toInt →
    ∃ rounds reply, incrementalReadStatefulAndSendV2 cfg ⟨offset, count, false⟩
        (fun count offset => some (SparseFile.pread content count offset)) stale rounds file =
          some reply ∧
      reply.file.offset.toInt = offset.toInt +
        (SparseFile.pread content count.toInt.toNat offset.toInt.toNat).length ∧
      ∀ start memory s, Waiting reply.sent count.toInt.toNat start memory s →
        EndsIn Receives
          (Decoded (SparseFile.pread content count.toInt.toNat offset.toInt.toNat) start memory) s

section Both

variable {cfg : ReadConfig}

/-- A session file whose next sequential read begins at offset 0 after `readCounter` bytes. -/
def readAt (readCounter : Int64) : SessionLocalFile :=
  { SessionLocalFile.new [] 0 [] 0 false false with offset := 0, readCounter := readCounter }

/-- A read of more than the buffer has no result if it is not cut into pieces, or into pieces of
no size. -/
theorem not_streamsRight {readCounter : Int64}
    (hMax : maxReadAtOnceLen cfg (readAt readCounter) = 0 ∨
      2 ^ 33 ≤ maxReadAtOnceLen cfg (readAt readCounter)) : ¬StreamsRight cfg := by
  intro hRight
  have hBuf := cfg.bufLen.toNat_lt
  have hCount : (Int64.ofNat (cfg.bufLen.toNat + 1)).toInt = (cfg.bufLen.toNat + 1 : Nat) :=
    Int64.toInt_ofNat_of_lt (by omega)
  have hToBe : (Int64.ofNat (cfg.bufLen.toNat + 1)).toUInt64.toNat = cfg.bufLen.toNat + 1 := by
    rw [toUInt64_of_nonneg (by omega), hCount, Int.toNat_natCast]
  obtain ⟨rounds, reply, hReply, -⟩ := hRight (replicate (cfg.bufLen.toNat + 1) 0)
    (readAt readCounter) (fun _ => 0) 0 (Int64.ofNat (cfg.bufLen.toNat + 1))
    (by rw [length_replicate]; omega) (by decide) (by omega)
  have hCounters : prepareCounters ⟨0, Int64.ofNat (cfg.bufLen.toNat + 1), false⟩
      (readAt readCounter) = readAt readCounter := if_neg (by simp [readAt])
  unfold incrementalReadStatefulAndSendV2 at hReply
  rw [hToBe, hCounters, readLoop_eq_none rfl (by omega)] at hReply
  · cases hReply
  · refine hMax.imp id fun hLarge => ⟨by omega, by omega, ?_⟩
    rw [length_replicate]
    exact (zero_add _).le

/-- The client receives what the server has sent, and the server sends what the chunk file has, if
and only if the reads of the server have a size. -/
theorem streamsRight_iff (cfg : ReadConfig) :
    StreamsRight cfg ↔ cfg.READ_BUF_LEN_PROTOCOL_CUTOFF < cfg.bufLen.toNat ∧
      0 < cfg.tuneFileReadSize.toInt := by
  constructor
  · intro hRight
    have hCutoff : cfg.READ_BUF_LEN_PROTOCOL_CUTOFF < cfg.bufLen.toNat := by
      by_contra hSmall
      have hMax : maxReadAtOnceLen cfg (readAt 0) = toSize cfg.dataBufLen := if_neg (by decide)
      have hPage := cfg.pageSize.toNat_lt
      have hNone : maxReadAtOnceLen cfg (readAt 0) = 0 ∨
          2 ^ 33 ≤ maxReadAtOnceLen cfg (readAt 0) := by
        rw [hMax]
        unfold toSize dataBufLen
        unfold READ_BUF_LEN_PROTOCOL_CUTOFF READ_BUF_OFFSET
          READ_BUF_END_RESERVE at hSmall ⊢
        omega
      exact not_streamsRight hNone hRight
    refine ⟨hCutoff, ?_⟩
    by_contra hNonpos
    have hMax : maxReadAtOnceLen cfg (readAt 4194304) =
        toSize (min cfg.dataBufLen cfg.tuneFileReadSize.toInt) := if_pos (by decide)
    have hGe := cfg.tuneFileReadSize.le_toInt
    have hLen : 0 < cfg.dataBufLen := by
      unfold dataBufLen
      omega
    have hNone : maxReadAtOnceLen cfg (readAt 4194304) = 0 ∨
        2 ^ 33 ≤ maxReadAtOnceLen cfg (readAt 4194304) := by
      rw [hMax]
      unfold toSize
      omega
    exact not_streamsRight hNone hRight
  · rintro ⟨hBuf, hSize⟩ content file stale offset count hContent hOffset hCount
    obtain ⟨hMax, hFits⟩ :=
      maxReadAtOnceLen_fits hBuf hSize (prepareCounters ⟨offset, count, false⟩ file)
    have hSome : ∃ rounds reply, incrementalReadStatefulAndSendV2 cfg ⟨offset, count, false⟩
        (fun count offset => some (pread content count offset)) stale rounds file =
          some reply := exists_incrementalRead hMax hFits
    obtain ⟨rounds, reply, hReply⟩ := hSome
    have hCountLt := count.toInt_lt
    obtain ⟨r, hWorks, hNewOffset⟩ :=
      replied_incrementalRead (fun _ _ => Or.inr rfl) hMax hContent hOffset hCount.le hReply
    have hFinal := hWorks fun _ _ => nofun
    refine ⟨rounds, reply, hReply, hNewOffset hFinal, fun start memory s hWaiting => ?_⟩
    exact endsIn_decoded (by omega) (by omega) r hFinal hWaiting

/-- A worker buffer of 8 KiB has no room for data with pages of 4 KiB. -/
theorem not_streamsRight_smallBuffer : ¬StreamsRight ⟨4096, 8192, 32768, 0, 4194304⟩ := by
  have hNone : maxReadAtOnceLen ⟨4096, 8192, 32768, 0, 4194304⟩ (readAt 0) = 0 := by decide
  exact not_streamsRight (Or.inl hNone)

end Both

end Fhgfs.Client
