import Fhgfs.Common.Serialization
import Fhgfs.Session.SessionLocalFileStore

/-!
# Saved sessions

The sessions of a storage server are saved with one file for each target, which has all sessions,
each with its chunk files on this target. The target is taken from the key of a chunk file. The
files of all targets are loaded one by one, and sessions that exist already are merged.

Keys and IDs are C strings where they are read, so they end at the first zero byte.
-/

namespace Fhgfs.Session

open Wire Serialization

def getTargetIDFromKey (key : ByteString) : UInt16 :=
  match ByteString.explode key 0x40 with
  | [_, targetID] => UInt16.ofNat (ByteString.strHexToUInt targetID)
  | _ => 0

def cString (bytes : ByteString) : ByteString := bytes.takeWhile (· ≠ 0)

/-- The elements of a loop that counts with an `unsigned`. -/
def loopElems {υ : Type} (m : OrderedMap ByteString υ) : List (ByteString × υ) :=
  m.elems.take (m.elems.length % 2 ^ 32)

/-- `std::map::insert`: an element with the key stays. -/
def insertNew {υ : Type} (m : OrderedMap ByteString υ) (key : ByteString) (value : υ) :
    OrderedMap ByteString υ :=
  match m.find key with
  | some _ => m
  | none => m.put key value

/-! ## Chunk files -/

namespace SessionLocalFile

variable (file : SessionLocalFile)

def serialize : Written :=
  (Written.all [.of (serializeBool file.removeOnRelease), serializeStr file.fileHandleID,
    .of (serializeUInt16 file.targetID), serializeStr file.fileID,
    .of (serializeInt file.openFlags), .of (serializeInt64 file.offset),
    .of (serializeBool file.isMirrorSession), .of (serializeBool file.serverCrashed),
    .of (serializeUInt16 (file.mirrorNode.getD 0)), .of (serializeInt64 file.writeCounter),
    .of (serializeInt64 file.readCounter),
    .of (serializeInt64 file.lastReadAheadTrigger)]).asUnsigned

def serialLen : Nat :=
  (1 + serialLenStr file.fileHandleID.length + 2 + serialLenStr file.fileID.length + 4 + 8 + 1 +
    1 + 2 + 8 + 8 + 8) % 2 ^ 32

/-- `known` are the nodes that `referenceNode` finds. -/
def deserializeMirrorNode (known : UInt16 → Bool) : Reader (Option UInt16) := do
  let mirrorNodeID ← deserializeUInt16
  if mirrorNodeID = 0 then pure none
  else
    ensure (known mirrorNodeID)
    pure (some mirrorNodeID)

def deserialize (known : UInt16 → Bool) : Reader SessionLocalFile := do
  let removeOnRelease ← deserializeBool
  let fileHandleID ← deserializeStr
  let targetID ← deserializeUInt16
  let fileID ← deserializeStr
  let openFlags ← deserializeInt
  let offset ← deserializeInt64
  let isMirrorSession ← deserializeBool
  let serverCrashed ← deserializeBool
  let mirrorNode ← deserializeMirrorNode known
  let writeCounter ← deserializeInt64
  let readCounter ← deserializeInt64
  let lastReadAheadTrigger ← deserializeInt64
  pure {
    removeOnRelease := removeOnRelease
    fileHandleID := cString fileHandleID
    targetID := targetID
    fileID := cString fileID
    openFlags := openFlags
    fileDescriptor := -1
    offset := offset
    mirrorNode := mirrorNode
    isMirrorSession := isMirrorSession
    writeCounter := writeCounter
    readCounter := readCounter
    lastReadAheadTrigger := lastReadAheadTrigger
    serverCrashed := serverCrashed }

def stored : SessionLocalFile := { file with fileDescriptor := -1 }

end SessionLocalFile

abbrev LocalFiles := SessionLocalFileMap SessionLocalFile

namespace LocalFiles

variable (files : LocalFiles)

variable (targetID : UInt16)

def entriesOf : List (ByteString × ObjectReferencer SessionLocalFile) :=
  (loopElems files).filter fun entry => decide (getTargetIDFromKey entry.1 = targetID)

def serializeForTarget : Written :=
  let entries := files.entriesOf targetID
  ((Written.of (serializeUInt (UInt32.ofNat entries.length))).loop entries fun entry =>
    (serializeStr entry.1).andThen entry.2.referencedObject.serialize).asUnsigned

def serialLenForTarget : Nat :=
  (4 + ((files.entriesOf targetID).map fun entry =>
    serialLenStr entry.1.length + entry.2.referencedObject.serialLen).sum) % 2 ^ 32

/-- The loop over the elements of a file. An element of another target is an error. -/
def deserializeElems (known : UInt16 → Bool) (targetID : UInt16) :
    Nat → LocalFiles → Reader LocalFiles
  | 0, files => pure files
  | n + 1, files => do
    let key ← deserializeStr
    let file ← SessionLocalFile.deserialize known
    ensure (decide (getTargetIDFromKey (cString key) = targetID))
    deserializeElems known targetID n (insertNew files (cString key) (ObjectReferencer.new file))

def deserializeForTarget (known : UInt16 → Bool) (targetID : UInt16) : Reader LocalFiles := do
  let elemNumField ← deserializeUInt
  deserializeElems known targetID elemNumField.toNat OrderedSet.empty

def mergeSessionLocalFiles (files files' : LocalFiles) : LocalFiles :=
  files'.elems.foldl (fun m entry => insertNew m entry.1 entry.2) files

end LocalFiles

/-! ## Sessions -/

/-- The `Session` of a client. -/
structure ClientSession where
  sessionID : ByteString
  localFiles : LocalFiles
deriving DecidableEq

namespace ClientSession

def serializeForTarget (session : ClientSession) (targetID : UInt16) : Written :=
  ((serializeStr session.sessionID).andThen
    (session.localFiles.serializeForTarget targetID)).asUnsigned

def serialLenForTarget (session : ClientSession) (targetID : UInt16) : Nat :=
  (serialLenStr session.sessionID.length + session.localFiles.serialLenForTarget targetID) % 2 ^ 32

def deserializeForTarget (known : UInt16 → Bool) (targetID : UInt16) : Reader ClientSession := do
  let sessionID ← deserializeStr
  let localFiles ← LocalFiles.deserializeForTarget known targetID
  pure ⟨sessionID, localFiles⟩

end ClientSession

/-- The sessions of all clients. -/
structure SessionStore where
  sessions : OrderedMap ByteString (ObjectReferencer ClientSession)
deriving DecidableEq

namespace SessionStore

def empty : SessionStore := ⟨OrderedSet.empty⟩

def serializeForTarget (store : SessionStore) (targetID : UInt16) : Written :=
  ((Written.of (serializeUInt (UInt32.ofNat store.sessions.elems.length))).loop
    (loopElems store.sessions) fun entry => (serializeStr entry.1).andThen
      (entry.2.referencedObject.serializeForTarget targetID)).asUnsigned

def serialLenForTarget (store : SessionStore) (targetID : UInt16) : Nat :=
  (4 + ((loopElems store.sessions).map fun entry => serialLenStr entry.1.length +
    entry.2.referencedObject.serialLenForTarget targetID).sum) % 2 ^ 32

variable (store : SessionStore)

/-- A session that exists already gets the chunk files. -/
def addOrMerge (key : ByteString) (session : ClientSession) : SessionStore :=
  match store.sessions.find key with
  | none => ⟨store.sessions.put key (ObjectReferencer.new session)⟩
  | some sessionRefer => ⟨store.sessions.put key { sessionRefer with
      referencedObject := { sessionRefer.referencedObject with
        localFiles := sessionRefer.referencedObject.localFiles.mergeSessionLocalFiles
          session.localFiles } }⟩

/-- The loop over the sessions of a file. What was loaded before an error stays. -/
def deserializeSessions (known : UInt16 → Bool) (targetID : UInt16) :
    Nat → SessionStore → Wire.Cursor → Bool × SessionStore
  | 0, store, _ => (true, store)
  | n + 1, store, c =>
    match deserializeStr c with
    | .error _ => (false, store)
    | .ok (key, c') =>
      match ClientSession.deserializeForTarget known targetID c' with
      | .error _ => (false, store)
      | .ok (session, c'') =>
        deserializeSessions known targetID n (store.addOrMerge (cString key) session) c''

def deserializeForTarget (known : UInt16 → Bool) (targetID : UInt16)
    (buf : List UInt8) : Bool × SessionStore :=
  match deserializeUInt ⟨buf, buf.length⟩ with
  | .error _ => (false, store)
  | .ok (elemNumField, c) => deserializeSessions known targetID elemNumField.toNat store c

def saveToFile (holes : Nat → UInt8) (targetID : UInt16) : List UInt8 :=
  let written := store.serializeForTarget targetID
  fill holes (written.bytes.take written.used)

/-- `restoreSessions` of the targets. `saved` has their files. -/
def restoreSessions (known : UInt16 → Bool) (saved : UInt16 → List UInt8) (targetIDs : List UInt16)
    (store : SessionStore) : SessionStore :=
  targetIDs.foldl (fun store targetID =>
    (store.deserializeForTarget known targetID (saved targetID)).2) store

def file (sessionID key : ByteString) : Option SessionLocalFile :=
  (store.sessions.find sessionID).bind fun sessionRefer =>
    (sessionRefer.referencedObject.localFiles.find key).map ObjectReferencer.referencedObject

end SessionStore

end Fhgfs.Session
