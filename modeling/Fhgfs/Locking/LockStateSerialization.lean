import Mathlib.Algebra.Order.BigOperators.Group.List
import Mathlib.Algebra.Order.Ring.Nat
import Fhgfs.Common.Serialization
import Fhgfs.Lib.Decoder
import Fhgfs.Locking.FileInodeLocks

/-!
# Serialization of the locks of a file inode

The granted locks of an inode are saved with the sessions when a server stops. The queues of the
waiters and the sets of their IDs are not: clients request a lock again while they wait for it.
-/

namespace Fhgfs.Locking

open Wire Serialization

/-! ## Fields of locks -/

def idBytes (id : String) : List UInt8 := id.toByteArray.data.toList

def idOfBytes (bytes : List UInt8) : String :=
  if h : (ByteArray.mk bytes.toArray).IsValidUTF8 then .ofByteArray _ h else ""

def serializeFlags (lockTypeFlags : LockTypeFlags) : Encoding := serializeUInt ⟨lockTypeFlags⟩

def deserializeFlags : Reader LockTypeFlags := UInt32.toBitVec <$> deserializeUInt

/-! ## Locks -/

namespace EntryLockDetails

def serialize (l : EntryLockDetails) : Written :=
  (Written.all [writeStrAlign4 (idBytes l.clientID), .of (serializeInt64 (.ofInt l.clientFD)),
    .of (serializeInt (.ofInt l.ownerPID)), writeStrAlign4 (idBytes l.lockAckID),
    .of (serializeFlags l.lockTypeFlags)]).asUnsigned

def deserialize : Reader EntryLockDetails := reportingLen do
  let clientID ← deserializeStrAlign4
  let clientFD ← deserializeInt64
  let ownerPID ← deserializeInt
  let lockAckID ← deserializeStrAlign4
  let lockTypeFlags ← deserializeFlags
  pure ⟨idOfBytes clientID, clientFD.toInt, ownerPID.toInt, idOfBytes lockAckID, lockTypeFlags⟩

def serialLen (l : EntryLockDetails) : Nat :=
  (serialLenStrAlign4 ((idBytes l.clientID).length % 2 ^ 32) + 8 + 4 +
    serialLenStrAlign4 ((idBytes l.lockAckID).length % 2 ^ 32) + 4) % 2 ^ 32

end EntryLockDetails

namespace RangeLockDetails

def serialize (l : RangeLockDetails) : Written :=
  (Written.all [writeStrAlign4 (idBytes l.clientID), .of (serializeInt (.ofInt l.ownerPID)),
    writeStrAlign4 (idBytes l.lockAckID), .of (serializeFlags l.lockTypeFlags),
    .of (serializeUInt64 l.start), .of (serializeUInt64 l.stop)]).asUnsigned

def deserialize : Reader RangeLockDetails := reportingLen do
  let clientID ← deserializeStrAlign4
  let ownerPID ← deserializeInt
  let lockAckID ← deserializeStrAlign4
  let lockTypeFlags ← deserializeFlags
  let start ← deserializeUInt64
  let stop ← deserializeUInt64
  pure ⟨idOfBytes clientID, ownerPID.toInt, idOfBytes lockAckID, lockTypeFlags, start, stop⟩

def serialLen (l : RangeLockDetails) : Nat :=
  (serialLenStrAlign4 ((idBytes l.clientID).length % 2 ^ 32) + 4 +
    serialLenStrAlign4 ((idBytes l.lockAckID).length % 2 ^ 32) + 4 + 8 + 8) % 2 ^ 32

end RangeLockDetails

/-! ## Sets of locks -/

namespace LockingTk

section Sets

variable {α κ : Type} [LinearOrder κ] {key : α → κ}

def serialLenSet (serialLen : α → Nat) (set : OrderedSet key) : Nat :=
  (8 + (set.elems.map serialLen).sum) % 2 ^ 32

/-- The length and the number of elements in front. -/
def serializeSet (serialLen : α → Nat) (serialize : α → Written) (set : OrderedSet key) : Written :=
  let setSize := set.elems.length % 2 ^ 32
  (Written.of ((leBytes 4 (serialLenSet serialLen set)).map some ++
    (leBytes 4 setSize).map some)).loop (set.elems.take setSize) serialize

def deserializeSetPreprocess (c : Wire.Cursor) : Except ReadError VectorInfo :=
  match readLe 4 c with
  | .error e => .error e
  | .ok (outLen, c') =>
    match readLe 4 c' with
    | .error e => .error e
    | .ok (outElemNum, setStart) =>
      if outLen > c.bufLen ∨ outLen < 8 then .error .rejected
      else .ok ⟨outElemNum, setStart.mem, outLen⟩

def deserializeSet (deserialize : Reader α) (info : VectorInfo) (set : OrderedSet key) :
    Except ReadError (OrderedSet key) :=
  match readMany deserialize info.elemNum ⟨info.vecStart, 2 ^ 64 - 1⟩ with
  | .error e => .error e
  | .ok (elems, _) => .ok (elems.foldl OrderedSet.insert set)

/-- Both passes. The caller goes on behind the length that the first one reports. -/
def readSet (preprocess : Wire.Cursor → Except ReadError VectorInfo)
    (deserialize : VectorInfo → OrderedSet key → Except ReadError (OrderedSet key))
    (set : OrderedSet key) : Reader (OrderedSet key) := fun c =>
  match preprocess c with
  | .error e => .error e
  | .ok info =>
    match deserialize info set with
    | .error e => .error e
    | .ok set' => .ok (set', c.advance info.vecBufLen)

end Sets

def serialLenEntryLockDetailsSet (set : EntryLockDetailsSet) : Nat :=
  serialLenSet EntryLockDetails.serialLen set

def serializeEntryLockDetailsSet (set : EntryLockDetailsSet) : Written :=
  { serializeSet EntryLockDetails.serialLen EntryLockDetails.serialize set with
    used := serialLenEntryLockDetailsSet set }

def deserializeEntryLockDetailsSetPreprocess : Wire.Cursor → Except ReadError VectorInfo :=
  deserializeSetPreprocess

def deserializeEntryLockDetailsSet : VectorInfo → EntryLockDetailsSet →
    Except ReadError EntryLockDetailsSet :=
  deserializeSet EntryLockDetails.deserialize

def serialLenRangeLockExclSet (set : RangeLockExclSet) : Nat :=
  serialLenSet RangeLockDetails.serialLen set

def serializeRangeLockExclSet (set : RangeLockExclSet) : Written :=
  (serializeSet RangeLockDetails.serialLen RangeLockDetails.serialize set).asUnsigned

def deserializeRangeLockExclSetPreprocess : Wire.Cursor → Except ReadError VectorInfo :=
  deserializeSetPreprocess

def deserializeRangeLockExclSet : VectorInfo → RangeLockExclSet →
    Except ReadError RangeLockExclSet :=
  deserializeSet RangeLockDetails.deserialize

def serialLenRangeLockSharedSet (set : RangeLockSharedSet) : Nat :=
  serialLenSet RangeLockDetails.serialLen set

def serializeRangeLockSharedSet (set : RangeLockSharedSet) : Written :=
  (serializeSet RangeLockDetails.serialLen RangeLockDetails.serialize set).asUnsigned

def deserializeRangeLockSharedSetPreprocess : Wire.Cursor → Except ReadError VectorInfo :=
  deserializeSetPreprocess

def deserializeRangeLockSharedSet : VectorInfo → RangeLockSharedSet →
    Except ReadError RangeLockSharedSet :=
  deserializeSet RangeLockDetails.deserialize

end LockingTk

/-! ## The locks of an inode -/

namespace FileInodeLocks

open LockingTk

variable (locks : FileInodeLocks)

def serializeLockState : Written :=
  (Written.all [locks.exclAppendLock.serialize, locks.flock.exclLock.serialize,
    serializeEntryLockDetailsSet locks.flock.sharedLocks,
    serializeRangeLockExclSet locks.range.exclRangeFLocks,
    serializeRangeLockSharedSet locks.range.sharedRangeFLocks]).asUnsigned

def deserializeLockState : Reader FileInodeLocks := reportingLen do
  let exclAppendLock ← EntryLockDetails.deserialize
  let exclFLock ← EntryLockDetails.deserialize
  let sharedFLocks ← readSet deserializeEntryLockDetailsSetPreprocess
    deserializeEntryLockDetailsSet locks.flock.sharedLocks
  let exclRangeFLocks ← readSet deserializeRangeLockExclSetPreprocess
    deserializeRangeLockExclSet locks.range.exclRangeFLocks
  let sharedRangeFLocks ← readSet deserializeRangeLockSharedSetPreprocess
    deserializeRangeLockSharedSet locks.range.sharedRangeFLocks
  pure { locks with
    exclAppendLock := exclAppendLock
    flock := { locks.flock with exclLock := exclFLock, sharedLocks := sharedFLocks }
    range := { locks.range with
      exclRangeFLocks := exclRangeFLocks
      sharedRangeFLocks := sharedRangeFLocks } }

def serialLenLockState : Nat :=
  (locks.exclAppendLock.serialLen + locks.flock.exclLock.serialLen +
    serialLenEntryLockDetailsSet locks.flock.sharedLocks +
    serialLenRangeLockExclSet locks.range.exclRangeFLocks +
    serialLenRangeLockSharedSet locks.range.sharedRangeFLocks) % 2 ^ 32

end FileInodeLocks

end Fhgfs.Locking

/-!
## The locks of a file inode are restored

The bytes that are written of the locks give an inode without locks the same granted locks, and
leave it without waiters.

* `codes_entryLock`, `codes_rangeLock`: one lock.
* `codes_set`: a set of locks, which is built again in its own order.
* `lockState_restored`: the locks that a run of requests has left behind.
-/

namespace Fhgfs

theorem OrderedSet.foldl_insert_elems {α κ : Type} [LinearOrder κ] {key : α → κ}
    (s : OrderedSet key) : s.elems.foldl insert empty = s := by
  apply ext_mem
  intro x
  constructor
  · intro hx
    rcases mem_foldl_insert hx with hx | hx
    · exact absurd hx (not_mem_empty x)
    · exact hx
  · intro hx
    apply mem_foldl_insert_of_fresh hx
    · intro y _ z hz
      exact absurd hz (not_mem_empty z)
    · exact s.ascending.imp fun hlt => hlt.ne

namespace Locking

open Wire Serialization

theorem idOfBytes_idBytes (id : String) : idOfBytes (idBytes id) = id := by
  have hBytes : ByteArray.mk (idBytes id).toArray = id.toByteArray := by
    rw [idBytes, Array.toArray_toList]
  unfold idOfBytes
  rw [dif_pos (hBytes ▸ id.isValidUTF8)]
  exact String.toByteArray_inj.mp hBytes

theorem reads_flags (lockTypeFlags : LockTypeFlags) :
    Reads deserializeFlags (serializeFlags lockTypeFlags) lockTypeFlags :=
  (reads_uint ⟨lockTypeFlags⟩).map UInt32.toBitVec

def idLen (id : String) : Nat := ((idBytes id).length + 8) / 4 * 4

section ID

variable {id : String} (h : ReceivedID id)
include h

theorem length_idBytes : (idBytes id).length + 8 < 2 ^ 32 := h

theorem serialLen_id : serialLenStrAlign4 ((idBytes id).length % 2 ^ 32) = idLen id := by
  have hLen := length_idBytes h
  rw [Nat.mod_eq_of_lt (by omega), serialLenStrAlign4_of_lt hLen, idLen]

theorem length_id : (serializeStrAlign4 (idBytes id)).length = idLen id := by
  have hLen := length_idBytes h
  rw [length_serializeStrAlign4 hLen, serialLenStrAlign4_of_lt hLen, idLen]

end ID

/-! ## Locks -/

section EntryLock

variable {l : EntryLockDetails}

def EntryLockDetails.encoding (l : EntryLockDetails) : Encoding :=
  serializeStrAlign4 (idBytes l.clientID) ++ (serializeInt64 (.ofInt l.clientFD) ++
    (serializeInt (.ofInt l.ownerPID) ++ (serializeStrAlign4 (idBytes l.lockAckID) ++
      serializeFlags l.lockTypeFlags)))

def EntryLockDetails.encodedLen (l : EntryLockDetails) : Nat :=
  idLen l.clientID + 8 + 4 + idLen l.lockAckID + 4

theorem length_entryLock (h : l.Typed) : l.encoding.length = l.encodedLen := by
  simp only [EntryLockDetails.encoding, EntryLockDetails.encodedLen, List.length_append,
    length_id h.clientID, length_id h.lockAckID, serializeInt64, serializeInt, serializeFlags,
    length_serializeUInt64, length_serializeUInt]
  omega

theorem serialize_entryLock (h : l.Typed) : l.serialize = (Written.of l.encoding).asUnsigned := by
  have hAll := Written.all_of [serializeStrAlign4 (idBytes l.clientID),
    serializeInt64 (.ofInt l.clientFD), serializeInt (.ofInt l.ownerPID),
    serializeStrAlign4 (idBytes l.lockAckID), serializeFlags l.lockTypeFlags]
  simp only [List.map_cons, List.map_nil, List.flatten_cons, List.flatten_nil,
    List.append_nil] at hAll
  rw [EntryLockDetails.serialize, writeStrAlign4_eq (length_idBytes h.clientID),
    writeStrAlign4_eq (length_idBytes h.lockAckID), hAll, EntryLockDetails.encoding]

theorem codes_entryLock (h : l.Typed) (hFits : l.encodedLen < 2 ^ 32) :
    Coded l.serialize l.serialLen EntryLockDetails.deserialize l.encoding l := by
  have hLength := length_entryLock h
  refine ⟨?_, ?_, ?_⟩
  · rw [serialize_entryLock h]
    exact Written.asUnsigned_of (hLength ▸ hFits)
  · rw [hLength, EntryLockDetails.serialLen, serialLen_id h.clientID, serialLen_id h.lockAckID]
    exact Nat.mod_eq_of_lt hFits
  · apply Reads.reportingLen _ (hLength ▸ hFits)
    apply (reads_strAlign4 (length_idBytes h.clientID)).bind
    apply (reads_int64 _).bind
    apply (reads_int _).bind
    apply (reads_strAlign4 (length_idBytes h.lockAckID)).bind
    apply (reads_flags _).bind_of_nil
    apply (Reads.pure _).of_eq
    rw [idOfBytes_idBytes, idOfBytes_idBytes, Int64.toInt_ofInt_of_le h.clientFD.1 h.clientFD.2,
      Int32.toInt_ofInt_of_le h.ownerPID.1 h.ownerPID.2]

end EntryLock

section RangeLock

variable {l : RangeLockDetails}

def RangeLockDetails.encoding (l : RangeLockDetails) : Encoding :=
  serializeStrAlign4 (idBytes l.clientID) ++ (serializeInt (.ofInt l.ownerPID) ++
    (serializeStrAlign4 (idBytes l.lockAckID) ++ (serializeFlags l.lockTypeFlags ++
      (serializeUInt64 l.start ++ serializeUInt64 l.stop))))

def RangeLockDetails.encodedLen (l : RangeLockDetails) : Nat :=
  idLen l.clientID + 4 + idLen l.lockAckID + 4 + 8 + 8

theorem length_rangeLock (h : l.Typed) : l.encoding.length = l.encodedLen := by
  simp only [RangeLockDetails.encoding, RangeLockDetails.encodedLen, List.length_append,
    length_id h.clientID, length_id h.lockAckID, serializeInt, serializeFlags,
    length_serializeUInt64, length_serializeUInt]
  omega

theorem serialize_rangeLock (h : l.Typed) : l.serialize = (Written.of l.encoding).asUnsigned := by
  have hAll := Written.all_of [serializeStrAlign4 (idBytes l.clientID),
    serializeInt (.ofInt l.ownerPID), serializeStrAlign4 (idBytes l.lockAckID),
    serializeFlags l.lockTypeFlags, serializeUInt64 l.start, serializeUInt64 l.stop]
  simp only [List.map_cons, List.map_nil, List.flatten_cons, List.flatten_nil,
    List.append_nil] at hAll
  rw [RangeLockDetails.serialize, writeStrAlign4_eq (length_idBytes h.clientID),
    writeStrAlign4_eq (length_idBytes h.lockAckID), hAll, RangeLockDetails.encoding]

theorem codes_rangeLock (h : l.Typed) (hFits : l.encodedLen < 2 ^ 32) :
    Coded l.serialize l.serialLen RangeLockDetails.deserialize l.encoding l := by
  have hLength := length_rangeLock h
  refine ⟨?_, ?_, ?_⟩
  · rw [serialize_rangeLock h]
    exact Written.asUnsigned_of (hLength ▸ hFits)
  · rw [hLength, RangeLockDetails.serialLen, serialLen_id h.clientID, serialLen_id h.lockAckID]
    exact Nat.mod_eq_of_lt hFits
  · apply Reads.reportingLen _ (hLength ▸ hFits)
    apply (reads_strAlign4 (length_idBytes h.clientID)).bind
    apply (reads_int _).bind
    apply (reads_strAlign4 (length_idBytes h.lockAckID)).bind
    apply (reads_flags _).bind
    apply (reads_uint64 _).bind
    apply (reads_uint64 _).bind_of_nil
    apply (Reads.pure _).of_eq
    rw [idOfBytes_idBytes, idOfBytes_idBytes, Int32.toInt_ofInt_of_le h.ownerPID.1 h.ownerPID.2]

end RangeLock

/-! ## Sets of locks -/

section LockSet

open LockingTk

variable {α κ : Type} [LinearOrder κ] {key : α → κ} {serialLen : α → Nat}
  {serialize : α → Written} {deserialize : Reader α} {encoding : α → Encoding}
  {set : OrderedSet key}

/-- The elements are one after the other, behind the length and their number. -/
def setEncoding (encoding : α → Encoding) (set : OrderedSet key) : Encoding :=
  (leBytes 4 (8 + (set.elems.flatMap encoding).length)).map some ++
    ((leBytes 4 set.elems.length).map some ++ set.elems.flatMap encoding)

theorem length_setEncoding (encoding : α → Encoding) (set : OrderedSet key) :
    (setEncoding encoding set).length = 8 + (set.elems.flatMap encoding).length := by
  simp only [setEncoding, List.length_append, List.length_map, length_leBytes]
  omega

theorem codes_set (hCoded : ∀ l ∈ set, Coded (serialize l) (serialLen l) deserialize (encoding l) l)
    (hNum : set.elems.length < 2 ^ 32)
    (hFits : 8 + (set.elems.flatMap encoding).length < 2 ^ 32) :
    Coded (serializeSet serialLen serialize set) (serialLenSet serialLen set)
      (readSet deserializeSetPreprocess (deserializeSet deserialize) OrderedSet.empty)
      (setEncoding encoding set) set := by
  have hSum : (set.elems.map serialLen).sum = (set.elems.flatMap encoding).length := by
    rw [List.length_flatMap]
    congr 1
    apply List.map_congr_left
    intro l hl
    exact (hCoded l hl).announced
  have hLen : serialLenSet serialLen set = 8 + (set.elems.flatMap encoding).length := by
    rw [serialLenSet, hSum, Nat.mod_eq_of_lt hFits]
  refine ⟨?_, ?_, ?_⟩
  · have hLoop := Written.loop_of (fun l hl => (hCoded l hl).written)
      ((leBytes 4 (8 + (set.elems.flatMap encoding).length)).map some ++
        (leBytes 4 set.elems.length).map some)
    rw [List.append_assoc] at hLoop
    unfold serializeSet
    dsimp only
    rw [hLen, Nat.mod_eq_of_lt hNum, List.take_length, hLoop, setEncoding]
  · rw [hLen, length_setEncoding]
  intro mem rest bufLen hFills hBufLen
  have hTotal := hFills.length_eq
  have hAdvance := advance_append rest hBufLen
  rw [length_setEncoding] at hTotal
  rw [hTotal] at hAdvance hBufLen ⊢
  obtain ⟨lenField, tail, rfl, hLenField, hTail⟩ := fills_append hFills
  obtain ⟨numField, elems, rfl, hNumField, hElems⟩ := fills_append hTail
  have hLenFieldLen : lenField.length = 4 := by
    rw [hLenField.length_eq, List.length_map, length_leBytes]
  have hNumFieldLen : numField.length = 4 := by
    rw [hNumField.length_eq, List.length_map, length_leBytes]
  rw [List.length_append, List.length_append] at hTotal
  have hReadLen := Reads.readLe_leBytes 4 hFits lenField (numField ++ elems ++ rest) bufLen
    hLenField (by omega)
  have hReadNum := Reads.readLe_leBytes 4 hNum numField (elems ++ rest)
    (bufLen - lenField.length) hNumField (by omega)
  have hReadElems := reads_readMany_map (fun l hl => (hCoded l hl).reads) elems rest (2 ^ 64 - 1)
    hElems (by omega)
  rw [← List.append_assoc] at hReadLen hReadNum
  rw [List.map_id'] at hReadElems
  have hPreprocess : deserializeSetPreprocess ⟨lenField ++ (numField ++ elems) ++ rest, bufLen⟩ =
      .ok ⟨set.elems.length, elems ++ rest, 8 + (set.elems.flatMap encoding).length⟩ := by
    unfold deserializeSetPreprocess
    rw [hReadLen]
    dsimp only
    rw [hReadNum]
    dsimp only
    rw [if_neg (by omega)]
  unfold readSet
  rw [hPreprocess]
  dsimp only [deserializeSet]
  rw [hReadElems]
  dsimp only
  rw [set.foldl_insert_elems, hAdvance]

def setLen (encodedLen : α → Nat) (set : OrderedSet key) : Nat :=
  8 + (set.elems.map encodedLen).sum

section Lengths

variable {encodedLen : α → Nat} (hLen : ∀ l ∈ set, (encoding l).length = encodedLen l)
include hLen

theorem length_elems : (set.elems.flatMap encoding).length = (set.elems.map encodedLen).sum := by
  rw [List.length_flatMap]
  congr 1
  apply List.map_congr_left
  intro l hl
  exact hLen l hl

theorem length_set : (setEncoding encoding set).length = setLen encodedLen set := by
  rw [length_setEncoding, length_elems hLen, setLen]

theorem codes_set_of_fits (hPos : ∀ l, 1 ≤ encodedLen l) (hElem : ∀ l ∈ set, encodedLen l < 2 ^ 32 →
      Coded (serialize l) (serialLen l) deserialize (encoding l) l)
    (hFits : setLen encodedLen set < 2 ^ 32) :
    Coded (serializeSet serialLen serialize set) (serialLenSet serialLen set)
      (readSet deserializeSetPreprocess (deserializeSet deserialize) OrderedSet.empty)
      (setEncoding encoding set) set := by
  have hEach : ∀ l ∈ set, Coded (serialize l) (serialLen l) deserialize (encoding l) l := by
    intro l hl
    apply hElem l hl
    have hLe := List.single_le_sum (fun _ _ => Nat.zero_le _) _
      (List.mem_map_of_mem (f := encodedLen) (OrderedSet.mem_def.mp hl))
    unfold setLen at hFits
    omega
  have hNum := List.length_le_sum_of_one_le (set.elems.map encodedLen) <| by
    intro n hn
    obtain ⟨l, -, rfl⟩ := List.mem_map.mp hn
    exact hPos l
  rw [List.length_map] at hNum
  unfold setLen at hFits
  exact codes_set hEach (by omega) (length_elems hLen ▸ hFits)

theorem long_set (hPlain : ∀ l ∈ set, (serialize l).Plain (encoding l))
    (hNum : set.elems.length < 2 ^ 32) (hLong : 2 ^ 32 ≤ setLen encodedLen set) :
    2 ^ 32 ≤ (serializeSet serialLen serialize set).bytes.length := by
  have hLoop := (Written.Plain.of ((leBytes 4 (serialLenSet serialLen set)).map some ++
    (leBytes 4 set.elems.length).map some)).loop hPlain
  unfold serializeSet
  dsimp only
  rw [Nat.mod_eq_of_lt hNum, List.take_length]
  apply hLoop.tooLong
  simp only [List.length_append, List.length_map, length_leBytes, length_elems hLen]
  unfold setLen at hLong
  omega

end Lengths

theorem encodedLen_entryLock_pos (l : EntryLockDetails) : 1 ≤ l.encodedLen := by
  unfold EntryLockDetails.encodedLen
  omega

theorem encodedLen_rangeLock_pos (l : RangeLockDetails) : 1 ≤ l.encodedLen := by
  unfold RangeLockDetails.encodedLen
  omega

section EntrySet

variable {set : EntryLockDetailsSet} (h : ∀ l ∈ set, l.Typed)
include h

theorem length_entrySet : (setEncoding EntryLockDetails.encoding set).length =
    setLen EntryLockDetails.encodedLen set := length_set fun l hl => length_entryLock (h l hl)

theorem codes_entrySet (hFits : setLen EntryLockDetails.encodedLen set < 2 ^ 32) :
    Coded (serializeEntryLockDetailsSet set) (serialLenEntryLockDetailsSet set)
      (readSet deserializeEntryLockDetailsSetPreprocess deserializeEntryLockDetailsSet
        OrderedSet.empty)
      (setEncoding EntryLockDetails.encoding set) set := by
  obtain ⟨hWritten, hAnnounced, hReads⟩ := codes_set_of_fits
    (fun l hl => length_entryLock (h l hl)) encodedLen_entryLock_pos
    (fun l hl hLen => codes_entryLock (h l hl) hLen) hFits
  refine ⟨?_, hAnnounced, hReads⟩
  rw [serializeEntryLockDetailsSet, hWritten, serialLenEntryLockDetailsSet, hAnnounced, Written.of]

theorem plain_entrySet (hNum : set.elems.length < 2 ^ 32) :
    (serializeEntryLockDetailsSet set).Plain (setEncoding EntryLockDetails.encoding set) := by
  have hLength := length_entrySet h
  constructor
  · intro hFits
    rw [(codes_entrySet h (hLength ▸ hFits)).written]
    exact ⟨rfl, rfl⟩
  · intro hLong
    refine long_set (fun l hl => length_entryLock (h l hl)) ?_ hNum (hLength ▸ hLong)
    intro l hl
    rw [serialize_entryLock (h l hl)]
    exact (Written.Plain.of _).asUnsigned

end EntrySet

/-! ### Range locks in either order -/

section RangeSet

variable {rangeKey : RangeLockDetails → κ} {set : OrderedSet rangeKey} (h : ∀ l ∈ set, l.Typed)
include h

theorem length_rangeSet : (setEncoding RangeLockDetails.encoding set).length =
    setLen RangeLockDetails.encodedLen set := length_set fun l hl => length_rangeLock (h l hl)

theorem codes_rangeSet (hFits : setLen RangeLockDetails.encodedLen set < 2 ^ 32) :
    Coded (serializeSet RangeLockDetails.serialLen RangeLockDetails.serialize set).asUnsigned
      (serialLenSet RangeLockDetails.serialLen set)
      (readSet deserializeSetPreprocess (deserializeSet RangeLockDetails.deserialize)
        OrderedSet.empty)
      (setEncoding RangeLockDetails.encoding set) set := by
  have hLength := length_rangeSet h
  obtain ⟨hWritten, hAnnounced, hReads⟩ := codes_set_of_fits
    (fun l hl => length_rangeLock (h l hl)) encodedLen_rangeLock_pos
    (fun l hl hLen => codes_rangeLock (h l hl) hLen) hFits
  refine ⟨?_, hAnnounced, hReads⟩
  rw [hWritten]
  exact Written.asUnsigned_of (hLength ▸ hFits)

theorem plain_rangeSet (hNum : set.elems.length < 2 ^ 32) :
    (serializeSet RangeLockDetails.serialLen RangeLockDetails.serialize set).asUnsigned.Plain
      (setEncoding RangeLockDetails.encoding set) := by
  have hLength := length_rangeSet h
  constructor
  · intro hFits
    rw [(codes_rangeSet h (hLength ▸ hFits)).written]
    exact ⟨rfl, rfl⟩
  · intro hLong
    refine long_set (fun l hl => length_rangeLock (h l hl)) ?_ hNum (hLength ▸ hLong)
    intro l hl
    rw [serialize_rangeLock (h l hl)]
    exact (Written.Plain.of _).asUnsigned

end RangeSet

/-! ### The number of elements that are read -/

theorem length_foldl_insert (xs : List α) (s : OrderedSet key) :
    (xs.foldl OrderedSet.insert s).elems.length ≤ s.elems.length + xs.length := by
  have hInsert : ∀ (x : α) (l : List α), (OrderedSet.insertElem key x l).length ≤ l.length + 1 := by
    intro x l
    induction l with
    | nil => exact le_rfl
    | cons y ys ih =>
      unfold OrderedSet.insertElem
      split
      · exact le_rfl
      · split
        · exact Nat.succ_le_succ ih
        · exact Nat.le_succ _
  induction xs generalizing s with
  | nil => exact le_rfl
  | cons x xs ih =>
    have hRest := ih (s.insert x)
    have hFirst : (s.insert x).elems.length ≤ s.elems.length + 1 := hInsert x s.elems
    rw [List.foldl_cons, List.length_cons]
    omega

theorem length_readMany {r : Reader α} {n : Nat} {c c' : Wire.Cursor} {elems : List α}
    (h : readMany r n c = .ok (elems, c')) : elems.length = n := by
  induction n generalizing c c' elems with
  | zero =>
    obtain ⟨rfl, -⟩ := Prod.mk.inj (Except.ok.inj h)
    rfl
  | succ n ih =>
    obtain ⟨value, c₁, -, hRest⟩ := bind_eq_ok h
    obtain ⟨values, c₂, hMany, hPure⟩ := bind_eq_ok hRest
    obtain ⟨rfl, -⟩ := Prod.mk.inj (Except.ok.inj hPure)
    rw [List.length_cons, ih hMany]

theorem num_setPreprocess {c : Wire.Cursor} {info : VectorInfo}
    (h : deserializeSetPreprocess c = .ok info) : info.elemNum < 2 ^ 32 := by
  unfold deserializeSetPreprocess at h
  cases hLen : readLe 4 c with
  | error e =>
    rw [hLen] at h
    cases h
  | ok p =>
    rw [hLen] at h
    dsimp only at h
    cases hNum : readLe 4 p.2 with
    | error e =>
      rw [hNum] at h
      cases h
    | ok q =>
      rw [hNum] at h
      dsimp only at h
      split at h
      · cases h
      · rw [← Except.ok.inj h]
        exact readLe_lt hNum

theorem num_readSet {c c' : Wire.Cursor} {set' : OrderedSet key}
    (h : readSet deserializeSetPreprocess (deserializeSet deserialize) OrderedSet.empty c =
      .ok (set', c')) : set'.elems.length < 2 ^ 32 := by
  unfold readSet at h
  cases hPreprocess : deserializeSetPreprocess c with
  | error e =>
    rw [hPreprocess] at h
    cases h
  | ok info =>
    have hNum : info.elemNum < 2 ^ 32 := num_setPreprocess hPreprocess
    rw [hPreprocess] at h
    dsimp only [deserializeSet] at h
    cases hMany : readMany deserialize info.elemNum ⟨info.vecStart, 2 ^ 64 - 1⟩ with
    | error e =>
      rw [hMany] at h
      cases h
    | ok p =>
      rw [hMany] at h
      obtain ⟨rfl, -⟩ := Prod.mk.inj (Except.ok.inj h)
      have hLength := length_foldl_insert p.1 (OrderedSet.empty : OrderedSet key)
      rw [length_readMany hMany] at hLength
      exact lt_of_le_of_lt hLength (by simpa [OrderedSet.empty] using hNum)

end LockSet

/-! ## The locks of an inode -/

namespace FileInodeLocks

open LockingTk

variable {locks : FileInodeLocks}

/-- The length of the encoding of the granted locks. -/
def lockStateLen (locks : FileInodeLocks) : Nat :=
  locks.exclAppendLock.encodedLen + locks.flock.exclLock.encodedLen +
    setLen EntryLockDetails.encodedLen locks.flock.sharedLocks +
    setLen RangeLockDetails.encodedLen locks.range.exclRangeFLocks +
    setLen RangeLockDetails.encodedLen locks.range.sharedRangeFLocks

def granted (locks : FileInodeLocks) : FileInodeLocks where
  exclAppendLock := locks.exclAppendLock
  waitersExclAppendLock := []
  waitersLockIDsAppendLock := OrderedSet.empty
  flock := ⟨locks.flock.exclLock, locks.flock.sharedLocks, [], [], OrderedSet.empty⟩
  range := ⟨locks.range.exclRangeFLocks, locks.range.sharedRangeFLocks, [], [], OrderedSet.empty⟩

/-- What is written is as long as announced. Read into an inode without locks, all of it is used,
and the inode gets the locks `restored`. -/
structure RestoredAs (locks restored : FileInodeLocks) : Prop where
  used : locks.serializeLockState.used = locks.serialLenLockState
  length : locks.serializeLockState.bytes.length = locks.serialLenLockState
  read : ∀ junkAppend junkFLock mem rest, Fills locks.serializeLockState.bytes mem →
    (init junkAppend junkFLock).deserializeLockState (.of (mem ++ rest)) = .ok (restored, .of rest)

def encoding (locks : FileInodeLocks) : Encoding :=
  locks.exclAppendLock.encoding ++ (locks.flock.exclLock.encoding ++
    (setEncoding EntryLockDetails.encoding locks.flock.sharedLocks ++
      (setEncoding RangeLockDetails.encoding locks.range.exclRangeFLocks ++
        setEncoding RangeLockDetails.encoding locks.range.sharedRangeFLocks)))

section Typed

variable (h : locks.Typed)
include h

theorem length_lockState : locks.encoding.length = locks.lockStateLen := by
  simp only [encoding, lockStateLen, List.length_append, length_entryLock h.exclAppend,
    length_entryLock h.flock.excl, length_entrySet h.flock.shared, length_rangeSet h.range.excl,
    length_rangeSet h.range.shared]
  omega

theorem restoredAs_granted (hFits : locks.lockStateLen < 2 ^ 32) :
    locks.RestoredAs locks.granted := by
  have hLength := length_lockState h
  have hParts := hFits
  unfold lockStateLen at hParts
  have hAppend := codes_entryLock h.exclAppend (by omega)
  have hFLock := codes_entryLock h.flock.excl (by omega)
  have hShared := codes_entrySet h.flock.shared (by omega)
  have hRangeExcl := codes_rangeSet h.range.excl (by omega)
  have hRangeShared := codes_rangeSet h.range.shared (by omega)
  have hWritten : locks.serializeLockState = .of locks.encoding := by
    have hAll := Written.all_of [locks.exclAppendLock.encoding, locks.flock.exclLock.encoding,
      setEncoding EntryLockDetails.encoding locks.flock.sharedLocks,
      setEncoding RangeLockDetails.encoding locks.range.exclRangeFLocks,
      setEncoding RangeLockDetails.encoding locks.range.sharedRangeFLocks]
    simp only [List.map_cons, List.map_nil, List.flatten_cons, List.flatten_nil,
      List.append_nil] at hAll
    rw [serializeLockState, hAppend.written, hFLock.written, hShared.written,
      serializeRangeLockExclSet, hRangeExcl.written, serializeRangeLockSharedSet,
      hRangeShared.written, hAll]
    exact Written.asUnsigned_of (hLength ▸ hFits)
  have hSerialLen : locks.serialLenLockState = locks.encoding.length := by
    rw [← Nat.mod_eq_of_lt (hLength ▸ hFits : locks.encoding.length < 2 ^ 32), serialLenLockState,
      hAppend.announced, hFLock.announced, hShared.announced, serialLenRangeLockExclSet,
      hRangeExcl.announced, serialLenRangeLockSharedSet, hRangeShared.announced, encoding]
    simp only [List.length_append, add_assoc]
  have hBytes : locks.serializeLockState.bytes = locks.encoding := by rw [hWritten, Written.of]
  refine ⟨?_, ?_, ?_⟩
  · rw [hWritten, hSerialLen, Written.of]
  · rw [hBytes, hSerialLen]
  intro junkAppend junkFLock mem rest hFills
  rw [hBytes] at hFills
  have hReads : Reads (init junkAppend junkFLock).deserializeLockState locks.encoding
      locks.granted := by
    apply Reads.reportingLen _ (hLength ▸ hFits)
    apply hAppend.reads.bind
    apply hFLock.reads.bind
    apply hShared.reads.bind
    apply hRangeExcl.reads.bind
    apply hRangeShared.reads.bind_of_nil
    exact .pure _
  have hRead := hReads mem rest (mem ++ rest).length hFills (by rw [List.length_append]; omega)
  have hLeft : (mem ++ rest).length - mem.length = rest.length := by
    rw [List.length_append, Nat.add_sub_cancel_left]
  rwa [hLeft] at hRead

theorem plain_lockState (hShared : locks.flock.sharedLocks.elems.length < 2 ^ 32)
    (hRangeExcl : locks.range.exclRangeFLocks.elems.length < 2 ^ 32)
    (hRangeShared : locks.range.sharedRangeFLocks.elems.length < 2 ^ 32) :
    locks.serializeLockState.Plain locks.encoding := by
  have hEntry : ∀ {l : EntryLockDetails}, l.Typed → l.serialize.Plain l.encoding := by
    intro l hl
    rw [serialize_entryLock hl]
    exact (Written.Plain.of _).asUnsigned
  have hAll := Written.Plain.all (.cons (hEntry h.exclAppend) (.cons (hEntry h.flock.excl)
    (.cons (plain_entrySet h.flock.shared hShared) (.cons (plain_rangeSet h.range.excl hRangeExcl)
      (.cons (plain_rangeSet h.range.shared hRangeShared) .nil)))))
  simp only [List.flatten_cons, List.flatten_nil, List.append_nil] at hAll
  exact hAll.asUnsigned

end Typed

theorem num_deserializeLockState {junkAppend junkFLock : EntryLockDetails} {c c' : Wire.Cursor}
    (h : (init junkAppend junkFLock).deserializeLockState c = .ok (locks, c')) :
    locks.flock.sharedLocks.elems.length < 2 ^ 32 ∧
      locks.range.exclRangeFLocks.elems.length < 2 ^ 32 ∧
      locks.range.sharedRangeFLocks.elems.length < 2 ^ 32 := by
  obtain ⟨c₀, h⟩ := reportingLen_eq_ok h
  obtain ⟨exclAppendLock, c₁, -, h⟩ := bind_eq_ok h
  obtain ⟨exclFLock, c₂, -, h⟩ := bind_eq_ok h
  obtain ⟨sharedFLocks, c₃, hShared, h⟩ := bind_eq_ok h
  obtain ⟨exclRangeFLocks, c₄, hRangeExcl, h⟩ := bind_eq_ok h
  obtain ⟨sharedRangeFLocks, c₅, hRangeShared, h⟩ := bind_eq_ok h
  obtain ⟨rfl, -⟩ := Prod.mk.inj (Except.ok.inj h)
  exact ⟨num_readSet hShared, num_readSet hRangeExcl, num_readSet hRangeShared⟩

theorem restoredAs_granted_iff (h : locks.Typed) :
    locks.RestoredAs locks.granted ↔ locks.lockStateLen < 2 ^ 32 := by
  constructor
  · intro hRestored
    by_contra hLong
    have hRead := hRestored.read locks.exclAppendLock locks.exclAppendLock _ []
      (fills_fill (fun _ => 0) _)
    obtain ⟨hShared, hRangeExcl, hRangeShared⟩ := num_deserializeLockState hRead
    have hPlain := plain_lockState h hShared hRangeExcl hRangeShared
    have hBytes := hPlain.tooLong (by rw [length_lockState h]; omega)
    rw [hRestored.length, serialLenLockState] at hBytes
    omega
  · exact restoredAs_granted h

/-- The locks after any requests. Waiters are not restored. -/
theorem lockState_restored_iff {junkAppend junkFLock : EntryLockDetails} {ops : List LockOp}
    (hAppend : junkAppend.Typed) (hFLock : junkFLock.Typed) (hOps : ∀ op ∈ ops, op.Typed) :
    (Run.after step (init junkAppend junkFLock) ops).RestoredAs
        (Run.after step (init junkAppend junkFLock) ops).granted ↔
      (Run.after step (init junkAppend junkFLock) ops).lockStateLen < 2 ^ 32 :=
  restoredAs_granted_iff (typed_after hAppend hFLock hOps)

/-- A client that has the lock, and a client that waits for it. -/
def writerWaits : List LockOp :=
  [.entry ⟨"client1", 1, 11, "ack1", LockTypeFlags.ENTRYLOCKTYPE_EXCLUSIVE⟩,
    .entry ⟨"client2", 2, 12, "ack2", LockTypeFlags.ENTRYLOCKTYPE_EXCLUSIVE⟩]

def junk : EntryLockDetails := ⟨"", 0, 0, "", 0⟩

theorem typed_junk : junk.Typed := ⟨by decide, by decide, by decide, by decide⟩

theorem typed_writerWaits : ∀ op ∈ writerWaits, op.Typed := by
  intro op hOp
  rcases List.mem_cons.mp hOp with rfl | hOp
  · exact ⟨by decide, by decide, by decide, by decide⟩
  · rw [List.mem_singleton.mp hOp]
    exact ⟨by decide, by decide, by decide, by decide⟩

theorem lockState_restored_iff_writerWaits :
    (Run.after step (init junk junk) writerWaits).RestoredAs
        (Run.after step (init junk junk) writerWaits).granted ↔
      (Run.after step (init junk junk) writerWaits).lockStateLen < 2 ^ 32 :=
  lockState_restored_iff typed_junk typed_junk typed_writerWaits

/-- The second client does not wait any more. -/
theorem not_waiters_restored :
    ¬ ∀ (junkAppend junkFLock : EntryLockDetails) (ops : List LockOp), junkAppend.Typed →
      junkFLock.Typed → (∀ op ∈ ops, op.Typed) →
      (Run.after step (init junkAppend junkFLock) ops).RestoredAs
        (Run.after step (init junkAppend junkFLock) ops) := by
  intro h
  have hRestored := h junk junk writerWaits typed_junk typed_junk typed_writerWaits
  have hGranted := restoredAs_granted (typed_after typed_junk typed_junk typed_writerWaits)
    (by decide)
  have hRead := hRestored.read junk junk _ [] (fills_fill (fun _ => 0) _)
  have hReadGranted := hGranted.read junk junk _ [] (fills_fill (fun _ => 0) _)
  have hSame := congrArg Prod.fst (Except.ok.inj (hRead.symm.trans hReadGranted))
  have hWaiters := congrArg (fun locks => locks.flock.waitersExclLock.length) hSame
  revert hWaiters
  decide

end FileInodeLocks

end Locking

end Fhgfs
