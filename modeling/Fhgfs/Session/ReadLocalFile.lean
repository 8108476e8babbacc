import Fhgfs.Common.Serialization
import Fhgfs.Common.StorageDefinitions
import Fhgfs.Lib.SparseFile
import Fhgfs.Session.SessionLocalFileStore

/-!
# Reads of chunk files

`incrementalReadStatefulAndSendV2` of the storage server. The data are read in pieces that fit the
buffer, and each piece is sent behind its length. A length of zero is the end, or a negative one
an error.
-/

namespace Fhgfs.Session

open Wire

/-- The settings of a server. `bufLen` is the size of the buffer for the data and the lengths. -/
structure ReadConfig where
  pageSize : UInt32
  bufLen : UInt32
  tuneFileReadSize : Int64
  tuneFileReadAheadSize : Int64
  tuneFileReadAheadTriggerSize : Int64

namespace ReadConfig

variable (cfg : ReadConfig)

def READ_BUF_OFFSET : Nat := max 8 cfg.pageSize.toNat

def READ_BUF_END_RESERVE : Nat := max 8 cfg.pageSize.toNat

def READ_BUF_LEN_PROTOCOL_CUTOFF : Nat :=
  cfg.READ_BUF_OFFSET + cfg.READ_BUF_END_RESERVE

def dataBufLen : Int :=
  (cfg.bufLen.toNat : Int) - cfg.READ_BUF_LEN_PROTOCOL_CUTOFF

end ReadConfig

def READ_USE_TUNEFILEREAD_TRIGGER : Int := 4 * 1024 * 1024

def O_DIRECT : Int32 := 0x4000
def O_SYNC : Int32 := 0x101000

def SessionLocalFile.getIsDirectIO (file : SessionLocalFile) : Bool :=
  decide (file.openFlags &&& (O_DIRECT ||| O_SYNC) ≠ 0)

/-- A request. With `disableIO` the server sends what is in its buffer. -/
structure ReadRequest where
  offset : Int64
  count : Int64
  disableIO : Bool

def toSize (value : Int) : Nat := (value % 2 ^ 64).toNat

section Read

variable (cfg : ReadConfig) (req : ReadRequest)

variable (file : SessionLocalFile)

/-- The counter and the trigger of the read-ahead start again if the read does not continue at the
offset of the last one. -/
def prepareCounters : SessionLocalFile :=
  if file.offset < 0 ∨ file.offset ≠ req.offset then
    { file with readCounter := 0, lastReadAheadTrigger := 0 }
  else file

def maxReadAtOnceLen : Nat :=
  if file.readCounter.toInt ≥ READ_USE_TUNEFILEREAD_TRIGGER ∧ ¬file.getIsDirectIO then
    toSize (min cfg.dataBufLen cfg.tuneFileReadSize.toInt)
  else toSize cfg.dataBufLen

def readAheadSize : Int64 :=
  if req.disableIO ∨ file.getIsDirectIO then 0 else cfg.tuneFileReadAheadSize

/-- The read-ahead itself does not change anything. -/
def checkAndStartReadAhead (size : Int64) (file : SessionLocalFile) : SessionLocalFile :=
  if size = 0 then file
  else
    let nextReadAheadTrigger :=
      if file.lastReadAheadTrigger ≠ 0 then file.lastReadAheadTrigger + size
      else cfg.tuneFileReadAheadTriggerSize
    if file.readCounter < nextReadAheadTrigger then file
    else { file with lastReadAheadTrigger := file.readCounter }

end Read

/-! ## The reply -/

def lengthInfo (value : Int64) : List UInt8 := leBytes 8 value.toUInt64.toNat

def sendLengthInfoAndData (data : List UInt8) (isFinal : Bool) : List UInt8 :=
  lengthInfo (Int64.ofNat data.length) ++ data ++ if isFinal then lengthInfo 0 else []

/-- The data and the length behind them are in the buffer. -/
def fitsBuffer (cfg : ReadConfig) (length : Nat) (isFinal : Bool) : Bool :=
  decide (cfg.READ_BUF_OFFSET + length + (if isFinal then 8 else 0) ≤ cfg.bufLen.toNat)

/-- What a server has sent, and the session file. -/
structure ReadReply where
  sent : List UInt8
  file : SessionLocalFile

def ReadReply.prepend (sent : List UInt8) (reply : ReadReply) : ReadReply :=
  { reply with sent := sent ++ reply.sent }

/-- The loop of the read. `pread` is `none` for an error, and `stale` has the old content of the
buffer. There is no result if the loop has not ended after the given number of rounds, or when it
goes over the end of the buffer. -/
def readLoop (cfg : ReadConfig) (req : ReadRequest) (pread : Nat → Nat → Option (List UInt8))
    (stale : Nat → UInt8) (maxReadAtOnce : Nat) (size : Int64) :
    Nat → Nat → Nat → SessionLocalFile → Option ReadReply
  | 0, _, _, _ => none
  | rounds + 1, toBeRead, readOffset, file =>
    let readLength := min maxReadAtOnce toBeRead
    match if req.disableIO then some ((List.range readLength).map stale)
      else pread readLength readOffset with
    | none =>
      some ⟨lengthInfo (Int64.ofInt (-FhgfsOpsErr.INTERNAL.code)), { file with offset := -1 }⟩
    | some data =>
      let rest := toBeRead - data.length
      let counted := { file with
        offset := req.offset + req.count - Int64.ofNat rest
        readCounter := file.readCounter + Int64.ofNat data.length }
      if data.length = readLength then
        let isFinal := decide (rest = 0)
        let read := checkAndStartReadAhead cfg size counted
        if !fitsBuffer cfg data.length isFinal then none
        else if isFinal then some ⟨sendLengthInfoAndData data true, read⟩
        else
          (readLoop cfg req pread stale maxReadAtOnce size rounds rest (readOffset + data.length)
            read).map (ReadReply.prepend (sendLengthInfoAndData data false))
      else if data.length > 0 then
        if !fitsBuffer cfg data.length true then none
        else some ⟨sendLengthInfoAndData data true, counted⟩
      else some ⟨lengthInfo 0, counted⟩

def incrementalReadStatefulAndSendV2 (cfg : ReadConfig) (req : ReadRequest)
    (pread : Nat → Nat → Option (List UInt8)) (stale : Nat → UInt8) (rounds : Nat)
    (file : SessionLocalFile) : Option ReadReply :=
  let counted := prepareCounters req file
  readLoop cfg req pread stale (maxReadAtOnceLen cfg counted) (readAheadSize cfg req file) rounds
    req.count.toUInt64.toNat req.offset.toInt.toNat counted

end Fhgfs.Session

/-!
## The reply to a read

The reply has pieces of the data, none of them empty, and then a length of zero or an error. If it
ends with zero, the pieces are the data that were asked for, as far as the chunk file has them.
-/

namespace Fhgfs.Session

open Wire

def piecesBytes (pieces : List (List UInt8)) : List UInt8 :=
  pieces.flatMap fun piece => lengthInfo (Int64.ofNat piece.length) ++ piece

/-- What was sent for the bytes of the content from an offset on. `rest` is what comes behind the
end: nothing, unless nothing was asked for. -/
structure Replied (content : List UInt8) (count offset : Nat) (sent : List UInt8) where
  pieces : List (List UInt8)
  final : Int64
  rest : List UInt8
  sent_eq : sent = piecesBytes pieces ++ lengthInfo final ++ rest
  nonempty : ∀ piece ∈ pieces, piece ≠ []
  prefix_data : pieces.flatten <+: SparseFile.pread content count offset
  final_nonpos : final.toInt ≤ 0
  complete : final = 0 → pieces.flatten = SparseFile.pread content count offset
  rest_eq : count ≠ 0 → rest = []

/-- A disk that has the content of a chunk file, but may fail. -/
def DiskHas (content : List UInt8) (pread : Nat → Nat → Option (List UInt8)) : Prop :=
  ∀ count offset, pread count offset = none ∨
    pread count offset = some (SparseFile.pread content count offset)

namespace Replied

variable {content : List UInt8} {count offset : Nat}

def error {final : Int64} (h : final.toInt < 0) :
    Replied content count offset (lengthInfo final) where
  pieces := []
  final := final
  rest := []
  sent_eq := by rw [List.append_nil]; rfl
  nonempty := fun _ hIn => absurd hIn List.not_mem_nil
  prefix_data := List.nil_prefix
  final_nonpos := h.le
  complete := by
    rintro rfl
    exact absurd h (by decide)
  rest_eq := fun _ => rfl

def endOfFile (h : SparseFile.pread content count offset = []) :
    Replied content count offset (lengthInfo 0) where
  pieces := []
  final := 0
  rest := []
  sent_eq := by rw [List.append_nil]; rfl
  nonempty := fun _ hIn => absurd hIn List.not_mem_nil
  prefix_data := List.nil_prefix
  final_nonpos := le_rfl
  complete := fun _ => h.symm
  rest_eq := fun _ => rfl

def nothing : Replied content 0 offset (sendLengthInfoAndData [] true) where
  pieces := []
  final := 0
  rest := lengthInfo 0
  sent_eq := rfl
  nonempty := fun _ hIn => absurd hIn List.not_mem_nil
  prefix_data := List.nil_prefix
  final_nonpos := le_rfl
  complete := fun _ => rfl
  rest_eq := (absurd rfl ·)

def last (hData : SparseFile.pread content count offset ≠ []) : Replied content count offset
    (sendLengthInfoAndData (SparseFile.pread content count offset) true) where
  pieces := [SparseFile.pread content count offset]
  final := 0
  rest := []
  sent_eq := by
    unfold sendLengthInfoAndData piecesBytes
    rw [List.append_nil, List.flatMap_cons, List.flatMap_nil, List.append_nil, if_pos rfl]
  nonempty := by
    intro piece hIn
    rwa [List.mem_singleton.mp hIn]
  prefix_data := List.flatten_singleton.symm ▸ List.prefix_refl _
  final_nonpos := le_rfl
  complete := fun _ => List.flatten_singleton
  rest_eq := fun _ => rfl

def cons {more : Nat} {sent : List UInt8}
    (hFull : (SparseFile.pread content count offset).length = count) (hCount : count ≠ 0)
    (hMore : more ≠ 0) (r : Replied content more (offset + count) sent) :
    Replied content (count + more) offset
      (sendLengthInfoAndData (SparseFile.pread content count offset) false ++ sent) where
  pieces := SparseFile.pread content count offset :: r.pieces
  final := r.final
  rest := r.rest
  sent_eq := by
    have hSent := congrArg
      (sendLengthInfoAndData (SparseFile.pread content count offset) false ++ ·) r.sent_eq
    refine hSent.trans ?_
    unfold sendLengthInfoAndData piecesBytes
    rw [List.flatMap_cons]
    simp only [if_neg Bool.false_ne_true, List.append_nil, List.append_assoc]
  nonempty := by
    intro piece hIn
    rcases List.mem_cons.mp hIn with rfl | hLater
    · intro hNil
      rw [hNil] at hFull
      exact hCount hFull.symm
    · exact r.nonempty piece hLater
  prefix_data := by
    rw [SparseFile.pread_add, List.flatten_cons]
    exact (List.prefix_append_right_inj _).mpr r.prefix_data
  final_nonpos := r.final_nonpos
  complete := fun hFinal => by rw [SparseFile.pread_add, List.flatten_cons, r.complete hFinal]
  rest_eq := fun _ => r.rest_eq hMore

end Replied

section Loop

variable {cfg : ReadConfig} {req : ReadRequest} {content : List UInt8}
  {pread : Nat → Nat → Option (List UInt8)} {stale : Nat → UInt8} {maxReadAtOnce : Nat}
  {size : Int64}

theorem offset_checkAndStartReadAhead (cfg : ReadConfig) (size : Int64) (file : SessionLocalFile) :
    (checkAndStartReadAhead cfg size file).offset = file.offset := by
  unfold checkAndStartReadAhead
  dsimp only
  split_ifs <;> rfl

theorem replied_readLoop (hReads : req.disableIO = false) (hDisk : DiskHas content pread)
    (hMax : maxReadAtOnce ≠ 0) (rounds : Nat) {toBeRead readOffset : Nat}
    {file : SessionLocalFile} {reply : ReadReply}
    (hLoop : readLoop cfg req pread stale maxReadAtOnce size rounds toBeRead readOffset file =
      some reply) :
    ∃ r : Replied content toBeRead readOffset reply.sent,
      ((∀ count offset, pread count offset ≠ none) → r.final = 0) ∧ (r.final = 0 →
        reply.file.offset = req.offset + req.count -
          Int64.ofNat (toBeRead - (SparseFile.pread content toBeRead readOffset).length)) := by
  induction rounds generalizing toBeRead readOffset file reply with
  | zero => cases hLoop
  | succ rounds ih =>
    unfold readLoop at hLoop
    dsimp only at hLoop
    obtain ⟨more, hMore⟩ : ∃ more, toBeRead = min maxReadAtOnce toBeRead + more :=
      ⟨toBeRead - min maxReadAtOnce toBeRead, by omega⟩
    have hSome : min maxReadAtOnce toBeRead = 0 → toBeRead = 0 := by omega
    generalize min maxReadAtOnce toBeRead = readLength at hLoop hMore hSome
    rw [hReads, if_neg Bool.false_ne_true] at hLoop
    rcases hDisk readLength readOffset with hFailed | hRead
    · rw [hFailed] at hLoop
      cases hLoop
      refine ⟨.error (by decide), fun hWorks => absurd hFailed (hWorks _ _), fun hFinal => ?_⟩
      have hError : Int64.ofInt (-FhgfsOpsErr.INTERNAL.code) = 0 := hFinal
      exact absurd hError (by decide)
    rw [hRead] at hLoop
    dsimp only at hLoop
    split at hLoop
    · rename_i hFull
      split at hLoop
      · cases hLoop
      split at hLoop
      · -- the last piece ends where the request does
        rename_i hFinal
        cases hLoop
        have hRest : toBeRead - (SparseFile.pread content readLength readOffset).length = 0 :=
          of_decide_eq_true hFinal
        have hAll : readLength = toBeRead := by omega
        subst hAll
        rw [offset_checkAndStartReadAhead]
        by_cases hNone : readLength = 0
        · subst hNone
          exact ⟨.nothing, fun _ => rfl, fun _ => rfl⟩
        · refine ⟨.last ?_, fun _ => rfl, fun _ => rfl⟩
          intro hNil
          rw [hNil] at hFull
          exact hNone hFull.symm
      · -- there are more pieces
        rename_i hFinal
        have hRest : toBeRead - (SparseFile.pread content readLength readOffset).length ≠ 0 :=
          of_decide_eq_false (eq_false_of_ne_true hFinal)
        obtain ⟨later, hLater, rfl⟩ := Option.map_eq_some_iff.mp hLoop
        have hLeft :
            toBeRead - (SparseFile.pread content readLength readOffset).length = more := by
          omega
        rw [hLeft, hFull] at hLater
        obtain ⟨r, hWorks, hOffset⟩ := ih hLater
        subst hMore
        refine ⟨.cons hFull (fun hNone => ?_) (by omega) r, hWorks, fun hFinal => ?_⟩
        · have hZero := hSome hNone
          omega
        · rw [SparseFile.pread_add, List.length_append, hFull]
          refine (hOffset hFinal).trans ?_
          congr 2
          omega
    · rename_i hShort
      have hSame := SparseFile.pread_of_short more hShort
      rw [← hMore] at hSame
      split at hLoop
      · rename_i hSomething
        split at hLoop
        · cases hLoop
        cases hLoop
        rw [← hSame]
        refine ⟨.last ?_, fun _ => rfl, fun _ => rfl⟩
        rw [hSame]
        exact List.ne_nil_of_length_pos hSomething
      · rename_i hNothing
        cases hLoop
        have hNil : SparseFile.pread content toBeRead readOffset = [] := by
          rw [hSame]
          exact List.eq_nil_of_length_eq_zero (by omega)
        rw [← hSame]
        exact ⟨.endOfFile hNil, fun _ => rfl, fun _ => rfl⟩

theorem exists_readLoop (hReads : req.disableIO = false)
    (hFits : fitsBuffer cfg maxReadAtOnce true = true) (hMax : maxReadAtOnce ≠ 0) (rounds : Nat)
    {toBeRead readOffset : Nat} (hRounds : toBeRead < rounds) (file : SessionLocalFile) :
    ∃ reply, readLoop cfg req (fun count offset => some (SparseFile.pread content count offset))
      stale maxReadAtOnce size rounds toBeRead readOffset file = some reply := by
  induction rounds generalizing toBeRead readOffset file with
  | zero => exact absurd hRounds (Nat.not_lt_zero _)
  | succ rounds ih =>
    have hAllFit : ∀ (length : Nat) (isFinal : Bool), length ≤ maxReadAtOnce →
        fitsBuffer cfg length isFinal = true := by
      intro length isFinal hLength
      unfold fitsBuffer at hFits ⊢
      rw [decide_eq_true_eq] at hFits ⊢
      have hEight : (if isFinal then 8 else 0) ≤ 8 := by split <;> omega
      rw [if_pos rfl] at hFits
      omega
    have hLength := SparseFile.length_pread_le content readOffset (min maxReadAtOnce toBeRead)
    unfold readLoop
    dsimp only
    rw [hReads, if_neg Bool.false_ne_true]
    dsimp only
    split
    · rename_i hFull
      rw [hAllFit _ _ (by omega), if_neg (by decide)]
      split
      · exact ⟨_, rfl⟩
      rename_i hFinal
      have hRest : toBeRead - (SparseFile.pread content (min maxReadAtOnce toBeRead)
          readOffset).length ≠ 0 := of_decide_eq_false (eq_false_of_ne_true hFinal)
      have hFewer : toBeRead - (SparseFile.pread content (min maxReadAtOnce toBeRead)
          readOffset).length < rounds := by omega
      obtain ⟨reply, hReply⟩ := ih hFewer _
      exact ⟨_, Option.map_eq_some_iff.mpr ⟨reply, hReply, rfl⟩⟩
    · split
      · rw [hAllFit _ _ (by omega), if_neg (by decide)]
        exact ⟨_, rfl⟩
      · exact ⟨_, rfl⟩

end Loop

section Read

variable {cfg : ReadConfig} {content : List UInt8} {pread : Nat → Nat → Option (List UInt8)}
  {stale : Nat → UInt8} {offset count : Int64} {file : SessionLocalFile}

theorem toUInt64_of_nonneg (h : 0 ≤ count.toInt) : count.toUInt64.toNat = count.toInt.toNat := by
  have hNat : count.toBitVec.toInt = count.toInt := rfl
  show count.toBitVec.toNat = _
  rw [BitVec.toInt_eq_toNat_cond] at hNat
  split at hNat <;> omega

theorem toInt_newOffset (hContent : content.length < 2 ^ 63) (hOffset : 0 ≤ offset.toInt)
    (hCount : 0 ≤ count.toInt) :
    (offset + count - Int64.ofNat (count.toInt.toNat -
      (SparseFile.pread content count.toInt.toNat offset.toInt.toNat).length)).toInt =
        offset.toInt + (SparseFile.pread content count.toInt.toNat offset.toInt.toNat).length := by
  have hLength := SparseFile.length_pread content offset.toInt.toNat count.toInt.toNat
  generalize (SparseFile.pread content count.toInt.toNat offset.toInt.toNat).length = length
    at hLength ⊢
  have hOffsetLt := offset.toInt_lt
  have hCountLt := count.toInt_lt
  have hRest : (Int64.ofNat (count.toInt.toNat - length)).toInt =
      ((count.toInt.toNat - length : Nat) : Int) := Int64.toInt_ofNat_of_lt (by omega)
  rw [Int64.toInt_sub, Int64.toInt_add, hRest, Int.bmod_sub_bmod, Int.bmod_eq_of_le] <;> omega

/-- A read that comes to an end has sent a reply, and the session file is then behind its data. -/
theorem replied_incrementalRead (hDisk : DiskHas content pread)
    (hMax : maxReadAtOnceLen cfg (prepareCounters ⟨offset, count, false⟩ file) ≠ 0)
    (hContent : content.length < 2 ^ 63) (hOffset : 0 ≤ offset.toInt) (hCount : 0 ≤ count.toInt)
    {rounds : Nat} {reply : ReadReply}
    (hRead : incrementalReadStatefulAndSendV2 cfg ⟨offset, count, false⟩ pread stale rounds file =
      some reply) :
    ∃ r : Replied content count.toInt.toNat offset.toInt.toNat reply.sent,
      ((∀ count offset, pread count offset ≠ none) → r.final = 0) ∧ (r.final = 0 →
        reply.file.offset.toInt = offset.toInt +
          (SparseFile.pread content count.toInt.toNat offset.toInt.toNat).length) := by
  unfold incrementalReadStatefulAndSendV2 at hRead
  rw [toUInt64_of_nonneg hCount] at hRead
  obtain ⟨r, hWorks, hNewOffset⟩ := replied_readLoop rfl hDisk hMax rounds hRead
  refine ⟨r, hWorks, fun hFinal => ?_⟩
  rw [hNewOffset hFinal]
  exact toInt_newOffset hContent hOffset hCount

theorem exists_incrementalRead
    (hMax : maxReadAtOnceLen cfg (prepareCounters ⟨offset, count, false⟩ file) ≠ 0)
    (hFits : fitsBuffer cfg (maxReadAtOnceLen cfg (prepareCounters ⟨offset, count, false⟩ file))
      true = true) :
    ∃ rounds reply, incrementalReadStatefulAndSendV2 cfg ⟨offset, count, false⟩
      (fun count offset => some (SparseFile.pread content count offset)) stale rounds file =
        some reply := by
  unfold incrementalReadStatefulAndSendV2
  exact ⟨_, exists_readLoop rfl hFits hMax _ (Nat.lt_succ_self _) _⟩

end Read

end Fhgfs.Session
