import Fhgfs.Common.StorageDefinitions
import Fhgfs.Locking.LockStateSerialization

/-!
# Serialization of entries

`EntryInfo` as it is stored and sent, aligned to four bytes. The reader does not accept an entry
without an ID.
-/

namespace Fhgfs

open Wire Serialization Locking List Rejects Reads

namespace DirEntryType

def toUInt : DirEntryType → UInt32
  | .INVALID => 0
  | .DIRECTORY => 1
  | .REGULARFILE => 2
  | .SYMLINK => 3
  | .BLOCKDEV => 4
  | .CHARDEV => 5
  | .FIFO => 6
  | .SOCKET => 7

/-- The cast of a number. Other numbers are not written. -/
def ofUInt (n : UInt32) : DirEntryType :=
  match n.toNat with
  | 1 => .DIRECTORY
  | 2 => .REGULARFILE
  | 3 => .SYMLINK
  | 4 => .BLOCKDEV
  | 5 => .CHARDEV
  | 6 => .FIFO
  | 7 => .SOCKET
  | _ => .INVALID

theorem ofUInt_toUInt (t : DirEntryType) : ofUInt t.toUInt = t := by cases t <;> rfl

end DirEntryType

namespace EntryInfo

def MIN_ENTRY_ID_LEN : Nat := 1

def serialize (info : EntryInfo) : Written :=
  Written.all [.of (serializeUInt info.entryType.toUInt), .of (serializeInt info.statFlags.toInt32),
    writeStrAlign4 (idBytes info.parentEntryID), writeStrAlign4 (idBytes info.entryID),
    writeStrAlign4 (idBytes info.fileName), .of (serializeUInt16 info.ownerNodeID),
    .of [none, none]]

/-! The position in the buffer is an `unsigned` while an entry is read. -/

def deserializeParent : Reader (UInt32 × Int32 × List UInt8) := reportingLen do
  let entryType ← deserializeUInt
  let statFlags ← deserializeInt
  let parentEntryID ← deserializeStrAlign4
  -- the root directory has no parent
  ensure !(decide (parentEntryID.length < MIN_ENTRY_ID_LEN) && decide (0 < parentEntryID.length))
  pure (entryType, statFlags, parentEntryID)

def deserializeID : Reader ((UInt32 × Int32 × List UInt8) × List UInt8) := reportingLen do
  let fields ← deserializeParent
  let entryID ← deserializeStrAlign4
  ensure !decide (entryID.length < MIN_ENTRY_ID_LEN)
  pure (fields, entryID)

def deserializeName : Reader (((UInt32 × Int32 × List UInt8) × List UInt8) × List UInt8) :=
  reportingLen do
    let fields ← deserializeID
    let fileName ← deserializeStrAlign4
    pure (fields, fileName)

def deserialize : Reader EntryInfo := reportingLen do
  let (((entryType, statFlags, parentEntryID), entryID), fileName) ← deserializeName
  let ownerNodeID ← deserializeUInt16
  skip 2
  pure {
    ownerNodeID := ownerNodeID
    parentEntryID := idOfBytes parentEntryID
    entryID := idOfBytes entryID
    fileName := idOfBytes fileName
    entryType := .ofUInt entryType
    statFlags := statFlags.toUInt32 }

def serialLen (info : EntryInfo) : Nat :=
  (4 + 4 + serialLenStrAlign4 ((idBytes info.parentEntryID).length % 2 ^ 32) +
    serialLenStrAlign4 ((idBytes info.entryID).length % 2 ^ 32) +
    serialLenStrAlign4 ((idBytes info.fileName).length % 2 ^ 32) + 2 + 2) % 2 ^ 32

/-! ## What is written -/

/-- The strings came in messages. -/
structure Received (info : EntryInfo) : Prop where
  parentEntryID : ReceivedID info.parentEntryID
  entryID : ReceivedID info.entryID
  fileName : ReceivedID info.fileName

def encoding (info : EntryInfo) : Encoding :=
  serializeUInt info.entryType.toUInt ++ (serializeInt info.statFlags.toInt32 ++
    (serializeStrAlign4 (idBytes info.parentEntryID) ++
      (serializeStrAlign4 (idBytes info.entryID) ++
      (serializeStrAlign4 (idBytes info.fileName) ++ (serializeUInt16 info.ownerNodeID ++
        [none, none])))))

def encodedLen (info : EntryInfo) : Nat :=
  idLen info.parentEntryID + idLen info.entryID + idLen info.fileName + 12

theorem parentAccepted (n : Nat) : (!(decide (n < MIN_ENTRY_ID_LEN) && decide (0 < n))) = true := by
  rw [Bool.not_eq_true', Bool.and_eq_false_iff, decide_eq_false_iff_not, decide_eq_false_iff_not,
    MIN_ENTRY_ID_LEN]
  omega

theorem encoding_eq (info : EntryInfo) : info.encoding = ((serializeUInt info.entryType.toUInt ++
          (serializeInt info.statFlags.toInt32 ++
            serializeStrAlign4 (idBytes info.parentEntryID)) ++
        serializeStrAlign4 (idBytes info.entryID)) ++ serializeStrAlign4 (idBytes info.fileName)) ++
      (serializeUInt16 info.ownerNodeID ++ [none, none]) := by
  simp only [encoding, append_assoc]

section Received

variable {info : EntryInfo} (h : info.Received)
include h

theorem length_encoding : info.encoding.length = info.encodedLen := by
  simp only [encoding, encodedLen, length_append, length_id h.parentEntryID,
    length_id h.entryID, length_id h.fileName, serializeInt, length_serializeUInt,
    length_serializeUInt16, length_cons, length_nil]
  omega

theorem serialize_eq : info.serialize = .of info.encoding := by
  have hAll := Written.all_of [serializeUInt info.entryType.toUInt,
    serializeInt info.statFlags.toInt32, serializeStrAlign4 (idBytes info.parentEntryID),
    serializeStrAlign4 (idBytes info.entryID), serializeStrAlign4 (idBytes info.fileName),
    serializeUInt16 info.ownerNodeID, [none, none]]
  simp only [map_cons, map_nil, flatten_cons, flatten_nil, append_nil] at hAll
  rw [serialize, writeStrAlign4_eq (length_idBytes h.parentEntryID),
    writeStrAlign4_eq (length_idBytes h.entryID), writeStrAlign4_eq (length_idBytes h.fileName),
    hAll, encoding]

theorem serialLen_eq : info.serialLen = info.encoding.length % 2 ^ 32 := by
  rw [length_encoding h, serialLen, serialLen_id h.parentEntryID, serialLen_id h.entryID,
    serialLen_id h.fileName, encodedLen]
  congr 1
  omega

theorem reads_parent (hFits : info.encoding.length < 2 ^ 32) :
    Reads deserializeParent (serializeUInt info.entryType.toUInt ++
        (serializeInt info.statFlags.toInt32 ++ serializeStrAlign4 (idBytes info.parentEntryID)))
      (info.entryType.toUInt, info.statFlags.toInt32, idBytes info.parentEntryID) := by
  simp only [encoding, length_append] at hFits
  apply Reads.reportingLen _ (by simp only [length_append]; omega)
  apply (reads_uint _).bind
  apply (reads_int _).bind
  apply (reads_strAlign4 (length_idBytes h.parentEntryID)).bind_of_nil
  apply (Reads.ensure (parentAccepted _)).bind_of_nil
  exact .pure _

theorem reads_encoding (hID : info.entryID ≠ "") (hFits : info.encoding.length < 2 ^ 32) :
    Reads deserialize info.encoding info := by
  have hEntryID : (idBytes info.entryID).length ≠ 0 := by
    intro hEmpty
    apply hID
    rw [← String.utf8ByteSize_eq_zero_iff]
    exact hEmpty
  have hParent := reads_parent h hFits
  rw [encoding_eq] at hFits ⊢
  simp only [length_append] at hFits
  apply Reads.reportingLen _ (by simp only [length_append]; omega)
  apply Reads.bind (v := (((info.entryType.toUInt, info.statFlags.toInt32,
    idBytes info.parentEntryID), idBytes info.entryID), idBytes info.fileName))
  · apply Reads.reportingLen _ (by simp only [length_append]; omega)
    apply Reads.bind (v := ((info.entryType.toUInt, info.statFlags.toInt32,
      idBytes info.parentEntryID), idBytes info.entryID))
    · apply Reads.reportingLen _ (by simp only [length_append]; omega)
      apply hParent.bind
      apply (reads_strAlign4 (length_idBytes h.entryID)).bind_of_nil
      apply (Reads.ensure _).bind_of_nil
      · exact .pure _
      · rw [Bool.not_eq_true', decide_eq_false_iff_not, MIN_ENTRY_ID_LEN]
        omega
    · apply (reads_strAlign4 (length_idBytes h.fileName)).bind_of_nil
      exact .pure _
  · apply (reads_uint16 _).bind
    apply (Reads.skip 2).bind_of_nil
    apply (Reads.pure _).of_eq
    simp only [idOfBytes_idBytes, DirEntryType.ofUInt_toUInt, UInt32.toUInt32_toInt32]

theorem rejects_encoding (hID : info.entryID = "") (hFits : info.encoding.length < 2 ^ 32) :
    Rejects deserialize info.encoding := by
  have hParent := reads_parent h hFits
  have hEntryID : (idBytes info.entryID).length = 0 := by rw [hID]; rfl
  rw [encoding_eq]
  apply Rejects.reportingLen
  apply Rejects.append
  apply Rejects.bind
  apply Rejects.reportingLen
  apply Rejects.append
  apply Rejects.bind
  apply Rejects.reportingLen
  apply hParent.bind_rejects
  have hEnsured : Rejects (deserializeStrAlign4 >>= fun entryID => do
      ensure !decide (entryID.length < MIN_ENTRY_ID_LEN)
      pure ((info.entryType.toUInt, info.statFlags.toInt32, idBytes info.parentEntryID), entryID))
      (serializeStrAlign4 (idBytes info.entryID) ++ []) := by
    apply (reads_strAlign4 (length_idBytes h.entryID)).bind_rejects
    apply Rejects.bind
    exact Rejects.ensure (by rw [hEntryID]; rfl)
  rwa [append_nil] at hEnsured

end Received

end EntryInfo

end Fhgfs
