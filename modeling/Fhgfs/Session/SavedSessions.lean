import Mathlib.Data.List.TakeWhile
import Fhgfs.Session.SessionSerialization

/-!
# The bytes of saved sessions

The bytes of a file, a session and a store one after the other, without the 32-bit lengths that
the writers return. The writers write exactly these as long as there are less than 2^32 of them
(`Written.Plain`), their announced lengths are the numbers of these bytes modulo 2^32, and the
readers read them back.

`getTargetIDFromKey` finds the target of a key that `generateMapKey` made only if the handle has a
single piece between its `@` characters (`getTargetIDFromKey_generateMapKey`).
-/

namespace Fhgfs.Session

open List ByteString SessionLocalFile

/-! ## The target of a key -/

section

variable (fileHandleID : ByteString)

def handlePart (isMirrorSession : Bool) : ByteString :=
  if isMirrorSession then fileHandleID ++ SESSIONLOCALFILESTORE_MIRROR_KEY_SUFFIX else fileHandleID

variable (targetID : UInt16)

section

variable (isMirrorSession : Bool)

theorem generateMapKey_eq : generateMapKey fileHandleID targetID isMirrorSession =
      handlePart fileHandleID isMirrorSession ++ 0x40 :: uintToHexStr targetID.toNat := by
  have hAt : ofText ['@'] = [0x40] := by decide
  unfold generateMapKey handlePart
  rw [hAt]
  split <;> rfl

theorem explode_generateMapKey :
    explode (generateMapKey fileHandleID targetID isMirrorSession) 0x40 =
      explode (handlePart fileHandleID isMirrorSession) 0x40 ++ [uintToHexStr targetID.toNat] := by
  rw [generateMapKey_eq]
  apply explode_append (uintToHexStr_ne_nil _)
  exact fun hIn => (mem_uintToHexStr hIn).2 rfl

theorem getTargetIDFromKey_generateMapKey :
    getTargetIDFromKey (generateMapKey fileHandleID targetID isMirrorSession) =
      if (explode (handlePart fileHandleID isMirrorSession) 0x40).length = 1 then
        targetID
      else 0 := by
  unfold getTargetIDFromKey
  rw [explode_generateMapKey]
  generalize explode (handlePart fileHandleID isMirrorSession) 0x40 = pieces
  match pieces with
  | [] => rfl
  | [piece] =>
    have hLt : targetID.toNat < 2 ^ 32 := lt_trans targetID.toNat_lt (by decide)
    simp only [singleton_append, length_singleton, if_true]
    rw [strHexToUInt_uintToHexStr hLt, UInt16.ofNat_toNat]
  | piece :: piece' :: rest =>
    rw [if_neg (by simp)]
    cases rest <;> rfl

end

theorem cString_eq {s : ByteString} (h : (0 : UInt8) ∉ s) : cString s = s := by
  unfold cString
  rw [takeWhile_eq_self_iff]
  intro b hb
  simp only [decide_eq_true_eq]
  rintro rfl
  exact h hb

theorem zero_not_mem_generateMapKey {fileHandleID : ByteString} (h : (0 : UInt8) ∉ fileHandleID)
    (targetID : UInt16) (isMirrorSession : Bool) :
    (0 : UInt8) ∉ generateMapKey fileHandleID targetID isMirrorSession := by
  have hSuffix : (0 : UInt8) ∉ SESSIONLOCALFILESTORE_MIRROR_KEY_SUFFIX := by decide
  have hHex : (0 : UInt8) ∉ uintToHexStr targetID.toNat :=
    fun hIn => absurd (mem_uintToHexStr hIn).1 (by decide)
  rw [generateMapKey_eq, handlePart]
  split <;> simp [h, hSuffix, hHex]

theorem length_generateMapKey_le (isMirrorSession : Bool) :
    (generateMapKey fileHandleID targetID isMirrorSession).length ≤ fileHandleID.length + 11 := by
  have hHex := length_uintToHexStr_le targetID.toNat
  have hSuffix : SESSIONLOCALFILESTORE_MIRROR_KEY_SUFFIX.length = 2 := by decide
  rw [generateMapKey_eq, handlePart, length_append, length_cons]
  split
  · rw [length_append, hSuffix]
    omega
  · omega

end

/-! ## The bytes -/

open Wire Serialization

/-- An ID from a message: a C string, shorter than what a message can have. -/
structure AcceptedID (id : ByteString) : Prop where
  noZero : (0 : UInt8) ∉ id
  length : id.length + 16 < 2 ^ 32

namespace SessionLocalFile

structure Accepted (file : SessionLocalFile) : Prop where
  fileHandleID : AcceptedID file.fileHandleID
  fileID : AcceptedID file.fileID

/-- The mirror node of the session is found when the session is loaded. -/
def MirrorNodeKnown (known : UInt16 → Bool) (file : SessionLocalFile) : Prop :=
  ∀ mirrorNode ∈ file.mirrorNode, mirrorNode ≠ 0 ∧ known mirrorNode = true

def savedBytes (file : SessionLocalFile) : Encoding :=
  serializeBool file.removeOnRelease ++ (strBytes file.fileHandleID ++
    (serializeUInt16 file.targetID ++ (strBytes file.fileID ++ (serializeInt file.openFlags ++
      (serializeInt64 file.offset ++ (serializeBool file.isMirrorSession ++
        (serializeBool file.serverCrashed ++ (serializeUInt16 (file.mirrorNode.getD 0) ++
          (serializeInt64 file.writeCounter ++ (serializeInt64 file.readCounter ++
            serializeInt64 file.lastReadAheadTrigger))))))))))

variable {file : SessionLocalFile}

theorem plain_serialize (h : file.Accepted) : file.serialize.Plain file.savedBytes := by
  have hHandle : file.fileHandleID.length < 2 ^ 32 := by
    have hLen := h.fileHandleID.length
    omega
  have hFile : file.fileID.length < 2 ^ 32 := by
    have hLen := h.fileID.length
    omega
  have hAll := Written.Plain.all (.cons (.of (serializeBool file.removeOnRelease))
    (.cons (plain_str hHandle) (.cons (.of (serializeUInt16 file.targetID))
      (.cons (plain_str hFile) (.cons (.of (serializeInt file.openFlags))
        (.cons (.of (serializeInt64 file.offset)) (.cons (.of (serializeBool file.isMirrorSession))
          (.cons (.of (serializeBool file.serverCrashed))
            (.cons (.of (serializeUInt16 (file.mirrorNode.getD 0)))
              (.cons (.of (serializeInt64 file.writeCounter))
                (.cons (.of (serializeInt64 file.readCounter))
                  (.cons (.of (serializeInt64 file.lastReadAheadTrigger)) .nil))))))))))))
  exact hAll.asUnsigned

theorem length_savedBytes (file : SessionLocalFile) :
    file.savedBytes.length = file.fileHandleID.length + file.fileID.length + 53 := by
  simp only [savedBytes, length_append, serializeBool, serializeInt, serializeInt64,
    length_serializeUInt8, length_serializeUInt16, length_serializeUInt, length_serializeUInt64,
    length_strBytes]
  omega

theorem serialLen_eq (file : SessionLocalFile) :
    file.serialLen = file.savedBytes.length % 2 ^ 32 := by
  rw [length_savedBytes]
  unfold serialLen serialLenStr
  omega

theorem reads_mirrorNode {known : UInt16 → Bool} (h : file.MirrorNodeKnown known) :
    Reads (deserializeMirrorNode known) (serializeUInt16 (file.mirrorNode.getD 0))
      file.mirrorNode := by
  apply (reads_uint16 _).bind_of_nil
  cases hNode : file.mirrorNode with
  | none => exact .pure none
  | some mirrorNode =>
    obtain ⟨hNonzero, hKnown⟩ := h mirrorNode (by rw [hNode]; rfl)
    simp only [Option.getD_some]
    rw [if_neg hNonzero]
    apply (Reads.ensure hKnown).bind_of_nil
    exact .pure _

theorem reads_serialize {known : UInt16 → Bool} (h : file.Accepted)
    (hKnown : file.MirrorNodeKnown known) :
    Reads (deserialize known) file.savedBytes file.stored := by
  have hHandle := h.fileHandleID.length
  have hFile := h.fileID.length
  apply (reads_bool _).bind
  apply (reads_str (by omega)).bind
  apply (reads_uint16 _).bind
  apply (reads_str (by omega)).bind
  apply (reads_int _).bind
  apply (reads_int64 _).bind
  apply (reads_bool _).bind
  apply (reads_bool _).bind
  apply (reads_mirrorNode hKnown).bind
  apply (reads_int64 _).bind
  apply (reads_int64 _).bind
  apply (reads_int64 _).bind_of_nil
  rw [cString_eq h.fileHandleID.noZero, cString_eq h.fileID.noZero]
  exact .pure _

end SessionLocalFile

/-! ## The chunk files of a session -/

namespace LocalFiles

/-- The keys are those of the files. The number of files fits the counter of the loops. -/
structure WellFormed (files : LocalFiles) : Prop where
  key : ∀ entry ∈ files.elems, entry.2.referencedObject.mapKey = entry.1
  accepted : ∀ entry ∈ files.elems, entry.2.referencedObject.Accepted
  count : files.elems.length < 2 ^ 32

def entryBytes (entry : ByteString × ObjectReferencer SessionLocalFile) : Encoding :=
  strBytes entry.1 ++ entry.2.referencedObject.savedBytes

def savedBytes (files : LocalFiles) (targetID : UInt16) : Encoding :=
  serializeUInt (UInt32.ofNat (files.entriesOf targetID).length) ++
    (files.entriesOf targetID).flatMap entryBytes

variable {files : LocalFiles} {targetID : UInt16}

variable {entry : ByteString × ObjectReferencer SessionLocalFile}

section

variable (h : files.WellFormed)
include h

theorem mem_entriesOf :
    entry ∈ files.entriesOf targetID ↔
      entry ∈ files.elems ∧ getTargetIDFromKey entry.1 = targetID := by
  unfold entriesOf loopElems
  rw [Nat.mod_eq_of_lt h.count, take_length, mem_filter, decide_eq_true_eq]

theorem length_entriesOf_lt : (files.entriesOf targetID).length < 2 ^ 32 := by
  unfold entriesOf loopElems
  rw [Nat.mod_eq_of_lt h.count, take_length]
  exact lt_of_le_of_lt (length_filter_le _ _) h.count

theorem length_key (hIn : entry ∈ files.elems) : entry.1.length + 5 < 2 ^ 32 := by
  have hLen := (h.accepted entry hIn).fileHandleID.length
  have hKey := length_generateMapKey_le entry.2.referencedObject.fileHandleID
    entry.2.referencedObject.targetID entry.2.referencedObject.isMirrorSession
  rw [← h.key entry hIn, mapKey]
  omega

theorem cString_key (hIn : entry ∈ files.elems) : cString entry.1 = entry.1 := by
  apply cString_eq
  rw [← h.key entry hIn]
  exact zero_not_mem_generateMapKey (h.accepted entry hIn).fileHandleID.noZero _ _

theorem plain_serializeForTarget (targetID : UInt16) :
    (files.serializeForTarget targetID).Plain (files.savedBytes targetID) := by
  apply Written.Plain.asUnsigned
  apply (Written.Plain.of _).loop
  intro entry hEntry
  have hIn := ((mem_entriesOf h).mp hEntry).1
  have hKey := length_key h hIn
  exact (plain_str (by omega)).andThen
    (plain_serialize (h.accepted entry hIn))

end

theorem sum_mod {α : Type} {xs : List α} {f g : α → Nat}
    (h : ∀ x ∈ xs, f x % 2 ^ 32 = g x % 2 ^ 32) :
    (xs.map f).sum % 2 ^ 32 = (xs.map g).sum % 2 ^ 32 := by
  rw [sum_nat_mod, sum_nat_mod (xs.map g), map_map, map_map]
  exact congrArg (sum · % 2 ^ 32) (map_congr_left h)

theorem serialLenForTarget_eq (files : LocalFiles) (targetID : UInt16) :
    files.serialLenForTarget targetID = (files.savedBytes targetID).length % 2 ^ 32 := by
  unfold serialLenForTarget savedBytes
  rw [length_append, length_flatMap, length_serializeUInt, Nat.add_mod 4, Nat.add_mod 4]
  congr 2
  apply sum_mod
  intro entry _
  rw [serialLen_eq, entryBytes, length_append, length_strBytes, serialLenStr]
  omega

def loadEntries (entries : List (ByteString × ObjectReferencer SessionLocalFile))
    (files : LocalFiles) : LocalFiles :=
  entries.foldl (fun m entry =>
    insertNew m entry.1 (ObjectReferencer.new entry.2.referencedObject.stored)) files

theorem reads_elems {known : UInt16 → Bool}
    {entries : List (ByteString × ObjectReferencer SessionLocalFile)} (h : files.WellFormed)
    (hEntries : ∀ entry ∈ entries, entry ∈ files.elems ∧ getTargetIDFromKey entry.1 = targetID)
    (hKnown : ∀ entry ∈ entries, entry.2.referencedObject.MirrorNodeKnown known)
    (acc : LocalFiles) :
    Reads (deserializeElems known targetID entries.length acc) (entries.flatMap entryBytes)
      (loadEntries entries acc) := by
  induction entries generalizing acc with
  | nil => exact .pure acc
  | cons entry entries ih =>
    obtain ⟨hIn, hTarget⟩ := hEntries entry mem_cons_self
    have hKey := cString_key h hIn
    rw [flatMap_cons, entryBytes, append_assoc]
    apply (reads_str (length_key h hIn)).bind
    apply (reads_serialize (h.accepted entry hIn) (hKnown entry mem_cons_self)).bind
    have hEnsure : decide (getTargetIDFromKey (cString entry.1) = targetID) = true := by
      rwa [hKey, decide_eq_true_eq]
    have hRest := ih (fun e he => hEntries e (mem_cons_of_mem _ he))
      (fun e he => hKnown e (mem_cons_of_mem _ he))
      (insertNew acc entry.1 (ObjectReferencer.new entry.2.referencedObject.stored))
    have hBind := (Reads.ensure hEnsure).bind (f := fun _ => deserializeElems known targetID
      entries.length (insertNew acc (cString entry.1)
        (ObjectReferencer.new entry.2.referencedObject.stored))) (by rw [hKey]; exact hRest)
    exact hBind

theorem reads_serializeForTarget {known : UInt16 → Bool} (h : files.WellFormed)
    (hKnown : ∀ entry ∈ files.entriesOf targetID, entry.2.referencedObject.MirrorNodeKnown known) :
    Reads (deserializeForTarget known targetID) (files.savedBytes targetID)
      (loadEntries (files.entriesOf targetID) OrderedSet.empty) := by
  have hCount : (UInt32.ofNat (files.entriesOf targetID).length).toNat =
      (files.entriesOf targetID).length := by
    rw [UInt32.toNat_ofNat']
    exact Nat.mod_eq_of_lt (length_entriesOf_lt h)
  apply (reads_uint _).bind
  rw [hCount]
  exact reads_elems h (fun entry hEntry => (mem_entriesOf h).mp hEntry) hKnown _

end LocalFiles

/-! ## Sessions -/

namespace ClientSession

variable {session : ClientSession}

structure WellFormed (session : ClientSession) : Prop where
  sessionID : AcceptedID session.sessionID
  localFiles : session.localFiles.WellFormed

def savedBytes (session : ClientSession) (targetID : UInt16) : Encoding :=
  strBytes session.sessionID ++ session.localFiles.savedBytes targetID

theorem plain_serializeForTarget (h : session.WellFormed) (targetID : UInt16) :
    (session.serializeForTarget targetID).Plain (session.savedBytes targetID) := by
  have hLen := h.sessionID.length
  apply Written.Plain.asUnsigned
  exact (plain_str (by omega)).andThen (LocalFiles.plain_serializeForTarget h.localFiles targetID)

theorem serialLenForTarget_eq (session : ClientSession) (targetID : UInt16) :
    session.serialLenForTarget targetID = (session.savedBytes targetID).length % 2 ^ 32 := by
  unfold serialLenForTarget savedBytes
  rw [length_append, length_strBytes, LocalFiles.serialLenForTarget_eq, serialLenStr]
  omega

def loaded (session : ClientSession) (targetID : UInt16) : ClientSession :=
  ⟨session.sessionID,
    LocalFiles.loadEntries (session.localFiles.entriesOf targetID) OrderedSet.empty⟩

theorem reads_serializeForTarget {known : UInt16 → Bool} {targetID : UInt16}
    (h : session.WellFormed) (hKnown : ∀ entry ∈ session.localFiles.entriesOf targetID,
      entry.2.referencedObject.MirrorNodeKnown known) :
    Reads (deserializeForTarget known targetID) (session.savedBytes targetID)
      (session.loaded targetID) := by
  have hLen := h.sessionID.length
  apply (reads_str (by omega)).bind
  apply (LocalFiles.reads_serializeForTarget h.localFiles hKnown).bind_of_nil
  exact .pure _

end ClientSession

namespace SessionStore

/-- The sessions are found by their own IDs. -/
structure WellFormed (store : SessionStore) : Prop where
  key : ∀ entry ∈ store.sessions.elems, entry.2.referencedObject.sessionID = entry.1
  session : ∀ entry ∈ store.sessions.elems, entry.2.referencedObject.WellFormed
  count : store.sessions.elems.length < 2 ^ 32

def entryBytes (targetID : UInt16) (entry : ByteString × ObjectReferencer ClientSession) :
    Encoding :=
  strBytes entry.1 ++ entry.2.referencedObject.savedBytes targetID

def savedBytes (store : SessionStore) (targetID : UInt16) : Encoding :=
  serializeUInt (UInt32.ofNat store.sessions.elems.length) ++
    store.sessions.elems.flatMap (entryBytes targetID)

variable {store : SessionStore}

variable (h : store.WellFormed)
include h

theorem loopElems_eq : loopElems store.sessions = store.sessions.elems := by
  unfold loopElems
  rw [Nat.mod_eq_of_lt h.count, take_length]

theorem acceptedID_key {entry : ByteString × ObjectReferencer ClientSession}
    (hIn : entry ∈ store.sessions.elems) : AcceptedID entry.1 :=
  h.key entry hIn ▸ (h.session entry hIn).sessionID

section

variable (targetID : UInt16)

theorem plain_serializeForTarget :
    (store.serializeForTarget targetID).Plain (store.savedBytes targetID) := by
  unfold serializeForTarget
  rw [loopElems_eq h]
  apply Written.Plain.asUnsigned
  apply (Written.Plain.of _).loop
  intro entry hIn
  have hLen := (acceptedID_key h hIn).length
  exact (plain_str (by omega)).andThen
    (ClientSession.plain_serializeForTarget (h.session entry hIn) targetID)

theorem serialLenForTarget_eq :
    store.serialLenForTarget targetID = (store.savedBytes targetID).length % 2 ^ 32 := by
  unfold serialLenForTarget savedBytes
  rw [loopElems_eq h, length_append, length_flatMap, length_serializeUInt,
    Nat.add_mod 4, Nat.add_mod 4]
  congr 2
  apply LocalFiles.sum_mod
  intro entry _
  rw [ClientSession.serialLenForTarget_eq, entryBytes, length_append, length_strBytes, serialLenStr]
  omega

theorem serialLen_eq_written_iff :
    (store.serializeForTarget targetID).bytes.length = store.serialLenForTarget targetID ↔
      (store.savedBytes targetID).length < 2 ^ 32 := by
  rw [serialLenForTarget_eq h]
  exact (plain_serializeForTarget h targetID).length_eq_iff

end

end SessionStore

end Fhgfs.Session
