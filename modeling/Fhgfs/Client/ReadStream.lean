import Fhgfs.Client.TransferStates
import Fhgfs.Session.ReadLocalFile

/-!
# Receiving the reply to a read

The invariant of a state that receives a reply: what it has got so far, and what is still to come
(`Receiving`). The stages `RECVHEADER` and `RECVDATA` keep it, however many bytes come at a time.
-/

namespace Fhgfs.Client

open Wire Session ReadfileState List

/-! ## Bytes -/

theorem deserializeLengthInfo_lengthInfo (value : Int64) :
    deserializeLengthInfo (lengthInfo value) = value.toInt := by
  unfold deserializeLengthInfo lengthInfo
  rw [ofLeBytes_leBytes value.toUInt64.toNat_lt, UInt64.ofNat_toNat]
  rfl

theorem length_lengthInfo (value : Int64) : (lengthInfo value).length = 8 := by
  unfold lengthInfo
  simp [leBytes]

section

variable (memory : Nat → UInt8) (pos : Nat)

theorem storeBytes_append (bytes bytes' : List UInt8) :
    storeBytes (storeBytes memory pos bytes) (pos + bytes.length) bytes' =
      storeBytes memory pos (bytes ++ bytes') := by
  funext p
  unfold storeBytes
  simp only [getD_eq_getElem?_getD, getElem?_append, length_append]
  split_ifs <;> first | omega | rfl | skip
  congr 2
  omega

theorem storeBytes_nil : storeBytes memory pos [] = memory := by
  funext p
  unfold storeBytes
  rw [if_neg]
  simp

end

/-! ## The invariant -/

/-- A state that has got some data of a reply and expects the rest of a piece and more pieces. -/
structure Receiving (content : List UInt8) (count offset start : Nat) (memory : Nat → UInt8)
    (s : ReadfileState) where
  got : List UInt8
  piece : List UInt8
  pieces : List (List UInt8)
  final : Int64
  rest : List UInt8
  incoming : s.own.incoming = piece ++ (piecesBytes pieces ++ lengthInfo final ++ rest)
  transmitted : s.transmitted = got.length
  toBeTransmitted : s.toBeTransmitted = got.length + piece.length
  data : s.data = ⟨start + got.length, count - got.length⟩
  memory_eq : s.own.memory = storeBytes memory start got
  nonempty : ∀ piece ∈ pieces, piece ≠ []
  prefix_data : got ++ piece ++ pieces.flatten <+: SparseFile.pread content count offset
  final_nonpos : final.toInt ≤ 0
  complete : final = 0 → got ++ piece ++ pieces.flatten = SparseFile.pread content count offset

namespace Receiving

variable {content : List UInt8} {count offset start : Nat} {memory : Nat → UInt8}
  {s : ReadfileState}

variable (r : Receiving content count offset start memory s)

theorem length_le : r.got.length + r.piece.length + r.pieces.flatten.length ≤ count := by
  have hLe := r.prefix_data.length_le
  have hCount := SparseFile.length_pread_le content offset count
  rw [length_append, length_append] at hLe
  omega

def start_reply {sent : List UInt8} (r : Replied content count offset sent)
    (hIncoming : s.own.incoming = sent) (hTransmitted : s.transmitted = 0)
    (hToBe : s.toBeTransmitted = 0) (hData : s.data = ⟨start, count⟩)
    (hMemory : s.own.memory = memory) : Receiving content count offset start memory s where
  got := []
  piece := []
  pieces := r.pieces
  final := r.final
  rest := r.rest
  incoming := by rw [hIncoming, List.nil_append]; exact r.sent_eq
  transmitted := hTransmitted
  toBeTransmitted := hToBe
  data := hData
  memory_eq := by rw [hMemory, storeBytes_nil]
  nonempty := r.nonempty
  prefix_data := r.prefix_data
  final_nonpos := r.final_nonpos
  complete := r.complete

def of_eq {s' : ReadfileState}
    (hOwn : s'.own = s.own) (hTransmitted : s'.transmitted = s.transmitted)
    (hToBe : s'.toBeTransmitted = s.toBeTransmitted) (hData : s'.data = s.data) :
    Receiving content count offset start memory s' where
  got := r.got
  piece := r.piece
  pieces := r.pieces
  final := r.final
  rest := r.rest
  incoming := by rw [hOwn]; exact r.incoming
  transmitted := hTransmitted.trans r.transmitted
  toBeTransmitted := hToBe.trans r.toBeTransmitted
  data := hData.trans r.data
  memory_eq := by rw [hOwn]; exact r.memory_eq
  nonempty := r.nonempty
  prefix_data := r.prefix_data
  final_nonpos := r.final_nonpos
  complete := r.complete

theorem eight_le (hPiece : r.piece = []) : 8 ≤ s.own.incoming.length := by
  rw [r.incoming, hPiece, nil_append]
  have hLast := length_lengthInfo r.final
  simp only [length_append]
  omega

/-! ## A length info -/

theorem nextLengthInfo_of_incoming {value : Int64} {behind : List UInt8}
    (hIncoming : s.own.incoming = lengthInfo value ++ behind) :
    nextLengthInfo s = value.toInt ∧ s.own.incoming.drop 8 = behind := by
  have hLength := length_lengthInfo value
  constructor
  · unfold nextLengthInfo
    rw [hIncoming, take_append_of_le_length hLength.ge, take_of_length_le hLength.le,
      deserializeLengthInfo_lengthInfo]
  · rw [hIncoming, drop_append_of_le_length hLength.ge, drop_of_length_le hLength.le, nil_append]

theorem receiveHeader_nil (hPiece : r.piece = []) (hPieces : r.pieces = []) :
    nextLengthInfo s = r.final.toInt ∧ receiveHeader s = { s with
        nodeResult := if r.final.toInt < 0 then r.final.toInt else r.got.length
        stage := .CLEANUP
        own := ⟨storeBytes memory start r.got, r.rest⟩ } := by
  have hIncoming : s.own.incoming = lengthInfo r.final ++ r.rest := by
    rw [r.incoming, hPiece, hPieces]
    rfl
  obtain ⟨hInfo, hDrop⟩ := nextLengthInfo_of_incoming hIncoming
  refine ⟨hInfo, ?_⟩
  unfold receiveHeader
  rw [hInfo, if_pos r.final_nonpos, hDrop, r.memory_eq, r.transmitted]

theorem receiveHeader_cons (hCount : count < 2 ^ 63) (hPiece : r.piece = []) {piece : List UInt8}
    {pieces : List (List UInt8)} (hPieces : r.pieces = piece :: pieces) :
    0 < nextLengthInfo s ∧ receiveHeader s = { s with
        toBeTransmitted := r.got.length + piece.length
        stage := .RECVDATA
        own := ⟨storeBytes memory start r.got,
          piece ++ (piecesBytes pieces ++ lengthInfo r.final ++ r.rest)⟩ } := by
  have hIncoming : s.own.incoming = lengthInfo (Int64.ofNat piece.length) ++
      (piece ++ (piecesBytes pieces ++ lengthInfo r.final ++ r.rest)) := by
    rw [r.incoming, hPiece, hPieces, piecesBytes, piecesBytes, flatMap_cons]
    simp only [nil_append, append_assoc]
  obtain ⟨hInfo, hDrop⟩ := nextLengthInfo_of_incoming hIncoming
  have hNonempty : piece ≠ [] := r.nonempty piece (by rw [hPieces]; exact mem_cons_self)
  have hPos := length_pos_of_ne_nil hNonempty
  have hLe := r.length_le
  rw [hPieces, flatten_cons, length_append] at hLe
  have hInt : (Int64.ofNat piece.length).toInt = piece.length := Int64.toInt_ofNat_of_lt (by omega)
  rw [hInt] at hInfo
  have hData : s.data.count = count - r.got.length := by rw [r.data]
  have hToBe : s.toBeTransmitted = r.got.length := by
    rw [r.toBeTransmitted, hPiece]
    rfl
  refine ⟨by omega, ?_⟩
  unfold receiveHeader
  rw [hInfo, if_neg (by omega), if_neg (by omega), hDrop, r.memory_eq, hToBe]
  rfl

def header {s' : ReadfileState}
    (hPiece : r.piece = []) {piece : List UInt8} {pieces : List (List UInt8)}
    (hPieces : r.pieces = piece :: pieces) (hTransmitted : s'.transmitted = s.transmitted)
    (hToBe : s'.toBeTransmitted = r.got.length + piece.length) (hData : s'.data = s.data)
    (hOwn : s'.own = ⟨storeBytes memory start r.got,
      piece ++ (piecesBytes pieces ++ lengthInfo r.final ++ r.rest)⟩) :
    Receiving content count offset start memory s' where
  got := r.got
  piece := piece
  pieces := pieces
  final := r.final
  rest := r.rest
  incoming := by rw [hOwn]
  transmitted := hTransmitted.trans r.transmitted
  toBeTransmitted := hToBe
  data := hData.trans r.data
  memory_eq := by rw [hOwn]
  nonempty := fun p hIn => r.nonempty p (by rw [hPieces]; exact List.mem_cons_of_mem _ hIn)
  prefix_data := by
    have hPrefix := r.prefix_data
    rwa [hPiece, hPieces, List.flatten_cons, List.append_nil, ← List.append_assoc] at hPrefix
  final_nonpos := r.final_nonpos
  complete := by
    have hComplete := r.complete
    rwa [hPiece, hPieces, List.flatten_cons, List.append_nil, ← List.append_assoc] at hComplete

/-! ## Data -/

def receiveData (r : Receiving content count offset start memory s) {bytes : Nat}
    (hBytes : bytes ≤ r.piece.length) :
    Receiving content count offset start memory (ReadfileState.receiveData s bytes) where
  got := r.got ++ r.piece.take bytes
  piece := r.piece.drop bytes
  pieces := r.pieces
  final := r.final
  rest := r.rest
  incoming := by
    show s.own.incoming.drop bytes = _
    rw [r.incoming, List.drop_append_of_le_length hBytes]
  transmitted := by
    show s.transmitted + bytes = _
    rw [r.transmitted, List.length_append, List.length_take, min_eq_left hBytes]
  toBeTransmitted := by
    show s.toBeTransmitted = _
    rw [r.toBeTransmitted, List.length_append, List.length_take, List.length_drop]
    omega
  data := by
    show s.data.advance bytes = _
    rw [r.data, List.length_append, List.length_take, min_eq_left hBytes, ← add_assoc,
      Nat.sub_add_eq]
    rfl
  memory_eq := by
    show storeBytes s.own.memory s.data.iovOffset (s.own.incoming.take bytes) = _
    rw [r.memory_eq, r.data, r.incoming, List.take_append_of_le_length hBytes, storeBytes_append]
  nonempty := r.nonempty
  prefix_data := by
    have hPrefix := r.prefix_data
    rwa [List.append_assoc r.got, List.take_append_drop]
  final_nonpos := r.final_nonpos
  complete := by
    intro hFinal
    rw [List.append_assoc r.got, List.take_append_drop]
    exact r.complete hFinal

theorem missingLength_eq : missingLength s = r.piece.length := by
  have hLe := r.length_le
  unfold missingLength
  rw [r.data, r.toBeTransmitted, r.transmitted]
  show min (count - r.got.length) _ = _
  omega

theorem stage_receiveData {bytes : Nat} (hBytes : bytes ≤ r.piece.length) :
    (ReadfileState.receiveData s bytes).stage =
      if r.piece.drop bytes = [] then .RECVHEADER else .RECVDATA := by
  show (if s.toBeTransmitted = s.transmitted + bytes then _ else _) = _
  rw [r.toBeTransmitted, r.transmitted]
  congr 1
  rw [drop_eq_nil_iff]
  apply propext
  omega

end Receiving

end Fhgfs.Client
