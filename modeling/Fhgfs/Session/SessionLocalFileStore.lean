import Fhgfs.Common.ByteString
import Fhgfs.Common.ObjectReferencer
import Fhgfs.Lib.Lifetimes
import Fhgfs.Lib.Run

/-!
# Sessions of chunk files

`SessionLocalFile` of the storage server, and the keys of the map in which a client's session has
its files.
-/

namespace Fhgfs.Session

/-- The session of an open chunk file. `mirrorNode` is the number of the referenced node. -/
structure SessionLocalFile where
  removeOnRelease : Bool
  fileHandleID : ByteString
  targetID : UInt16
  fileID : ByteString
  openFlags : Int32
  fileDescriptor : Int
  offset : Int64
  mirrorNode : Option UInt16
  isMirrorSession : Bool
  writeCounter : Int64
  readCounter : Int64
  lastReadAheadTrigger : Int64
  serverCrashed : Bool
deriving DecidableEq

abbrev SessionLocalFileMap (σ : Type) := OrderedMap ByteString (ObjectReferencer σ)

/-- `.m` comes behind the handles of mirror sessions. -/
def SESSIONLOCALFILESTORE_MIRROR_KEY_SUFFIX : ByteString := ByteString.ofText ['.', 'm']

def generateMapKey (fileHandleID : ByteString) (targetID : UInt16) (isMirrorSession : Bool) :
    ByteString :=
  if isMirrorSession then
    fileHandleID ++ SESSIONLOCALFILESTORE_MIRROR_KEY_SUFFIX ++
      (ByteString.ofText ['@'] ++ ByteString.uintToHexStr targetID.toNat)
  else fileHandleID ++ (ByteString.ofText ['@'] ++ ByteString.uintToHexStr targetID.toNat)

namespace SessionLocalFile

variable (file : SessionLocalFile)

def mapKey : ByteString :=
  generateMapKey file.fileHandleID file.targetID file.isMirrorSession

/-- A session that has not been opened yet. `setIsMirrorSession` follows at once. -/
def new (fileHandleID : ByteString) (targetID : UInt16) (fileID : ByteString) (openFlags : Int32)
    (serverCrashed isMirrorSession : Bool) : SessionLocalFile where
  removeOnRelease := false
  fileHandleID := fileHandleID
  targetID := targetID
  fileID := fileID
  openFlags := openFlags
  fileDescriptor := -1
  offset := -1
  mirrorNode := none
  isMirrorSession := isMirrorSession
  writeCounter := 0
  readCounter := 0
  lastReadAheadTrigger := 0
  serverCrashed := serverCrashed

/-- `openRes` is the descriptor that the system gives, or -1. -/
def openFile (openRes : Int) : SessionLocalFile :=
  if file.fileDescriptor ≠ -1 then file
  else { file with fileDescriptor := openRes, offset := 0 }

/-- A node that is already set stays, and the reference to the given one is not needed. -/
def setMirrorNodeExclusive (mirrorNode : UInt16) : SessionLocalFile :=
  match file.mirrorNode with
  | some _ => file
  | none => { file with mirrorNode := some mirrorNode }

end SessionLocalFile

end Fhgfs.Session

/-!
## The store of chunk file sessions

`SessionLocalFileStore` of the storage server: the chunk files of one client by their key, each
with a reference count. A session that is to be removed while it is referenced is marked, and the
release of its last reference removes it. Every operation runs under the mutex of the store.

A session has duties at its end: its descriptor has to be closed, and the reference to its mirror
node released. The ledgers of `ChunkSessions` have what was done of them, by whom ever: the store
itself in `releaseSession`, or the callers that get a session handed out.
-/

namespace Fhgfs.Session

/-- A `SessionLocalFile*`, the address and the session that is stored there. -/
structure SessionObject where
  addr : Nat
  file : SessionLocalFile
deriving DecidableEq

namespace SessionObject

def openFDs (session : SessionObject) : List (Nat × Int) :=
  if session.file.fileDescriptor = -1 then [] else [(session.addr, session.file.fileDescriptor)]

def nodeRefs (session : SessionObject) : List (Nat × UInt16) :=
  match session.file.mirrorNode with
  | none => []
  | some mirrorNode => [(session.addr, mirrorNode)]

end SessionObject

abbrev SessionLocalFileReferencer := ObjectReferencer SessionObject

namespace SessionLocalFileReferencer

/-- A change of the session that leaves the references alone. -/
def modifyFile (sessionRefer : SessionLocalFileReferencer)
    (f : SessionLocalFile → SessionLocalFile) : SessionLocalFileReferencer :=
  { sessionRefer with
    referencedObject := { sessionRefer.referencedObject with
      file := f sessionRefer.referencedObject.file } }

def setRemoveOnRelease (sessionRefer : SessionLocalFileReferencer) : SessionLocalFileReferencer :=
  sessionRefer.modifyFile fun file => { file with removeOnRelease := true }

end SessionLocalFileReferencer

structure SessionLocalFileStore where
  sessions : SessionLocalFileMap SessionObject
deriving DecidableEq

namespace SessionLocalFileStore

/-- The session that is referenced now, and the given one if it was discarded. -/
def addAndReferenceSession (store : SessionLocalFileStore) (session : SessionObject) :
    SessionObject × Option SessionObject × SessionLocalFileStore :=
  let key := session.file.mapKey
  match store.sessions.find key with
  | some sessionRefer => (sessionRefer.referencedObject, some session,
      ⟨store.sessions.put key sessionRefer.reference⟩)
  | none => (session, none, ⟨store.sessions.put key (ObjectReferencer.new session).reference⟩)

def referenceSession (store : SessionLocalFileStore) (key : ByteString) :
    Option SessionObject × SessionLocalFileStore :=
  match store.sessions.find key with
  | none => (none, store)
  | some sessionRefer =>
    (some sessionRefer.referencedObject, ⟨store.sessions.put key sessionRefer.reference⟩)

/-- `key` is the key of the released session. The session that is removed now is cleaned up by
the store itself. -/
def releaseSession (store : SessionLocalFileStore) (key : ByteString) :
    Option SessionObject × SessionLocalFileStore :=
  match store.sessions.find key with
  | none => (none, store)
  | some sessionRefer =>
    let fileNonRef := sessionRefer.referencedObject
    if sessionRefer.release.refCount = 0 ∧ fileNonRef.file.removeOnRelease = true then
      (some fileNonRef, ⟨store.sessions.remove key⟩)
    else (none, ⟨store.sessions.put key sessionRefer.release⟩)

/-- Whether the session is gone, and the removed one for the caller. -/
def removeSession (store : SessionLocalFileStore) (key : ByteString) :
    Bool × Option SessionObject × SessionLocalFileStore :=
  match store.sessions.find key with
  | none => (true, none, store)
  | some sessionRefer =>
    if sessionRefer.refCount ≠ 0 then
      (false, none,
        ⟨store.sessions.put key (SessionLocalFileReferencer.setRemoveOnRelease sessionRefer)⟩)
    else (true, some sessionRefer.referencedObject, ⟨store.sessions.remove key⟩)

/-- The removed sessions for the caller, and the keys of those that were referenced. -/
def removeAllSessions (store : SessionLocalFileStore) :
    List SessionObject × List ByteString × SessionLocalFileStore :=
  (store.sessions.elems.map fun entry => entry.2.referencedObject,
    (store.sessions.elems.filter fun entry => decide (entry.2.refCount ≠ 0)).map Prod.fst,
    ⟨OrderedSet.empty⟩)

/-- Whether `removeAllMirrorSessions` looks for the session. -/
def isMirrorSessionOf (targetID : UInt16) (sessionRefer : SessionLocalFileReferencer) : Bool :=
  decide (sessionRefer.referencedObject.file.targetID = targetID) &&
    sessionRefer.referencedObject.file.isMirrorSession

/-- One round of the loop. The sessions in the list are deleted. -/
def removeMirrorSession (targetID : UInt16) (acc : List SessionObject × SessionLocalFileStore)
    (entry : ByteString × SessionLocalFileReferencer) :
    List SessionObject × SessionLocalFileStore :=
  if isMirrorSessionOf targetID entry.2 then
    if entry.2.refCount ≠ 0 then
      (acc.1, ⟨acc.2.sessions.put entry.1 (SessionLocalFileReferencer.setRemoveOnRelease entry.2)⟩)
    else (acc.1 ++ [entry.2.referencedObject], ⟨acc.2.sessions.remove entry.1⟩)
  else acc

def removeAllMirrorSessions (store : SessionLocalFileStore) (targetID : UInt16) :
    List SessionObject × SessionLocalFileStore :=
  store.sessions.elems.foldl (removeMirrorSession targetID) ([], store)

section Specs

variable {store : SessionLocalFileStore} {session : SessionObject}
  {sessionRefer : SessionLocalFileReferencer}

theorem addAndReferenceSession_of_find
    (h : store.sessions.find session.file.mapKey = some sessionRefer) :
    store.addAndReferenceSession session = (sessionRefer.referencedObject, some session,
      ⟨store.sessions.put session.file.mapKey sessionRefer.reference⟩) := by
  unfold addAndReferenceSession
  simp only [h]

theorem addAndReferenceSession_of_none (h : store.sessions.find session.file.mapKey = none) :
    store.addAndReferenceSession session = (session, none,
      ⟨store.sessions.put session.file.mapKey (ObjectReferencer.new session).reference⟩) := by
  unfold addAndReferenceSession
  simp only [h]

end Specs

end SessionLocalFileStore

/-! ## Runs -/

/-- A reference, by the key and the address of the session. -/
abbrev SessionHandle := ByteString × Nat

/-- The store with the references that were handed out, and the sessions that do not exist any
more, as they were at last. The ledgers have the closed descriptors and the released nodes. -/
structure ChunkSessions where
  store : SessionLocalFileStore
  nextAddr : Nat
  handles : List SessionHandle
  destroyed : List SessionObject
  closedFDs : List (Nat × Int)
  releasedNodes : List (Nat × UInt16)
deriving DecidableEq

/-- The operations of the store, and what the holder of a reference does with a session. -/
inductive ChunkSessionOp
  | addAndReferenceSession (fileHandleID : ByteString) (targetID : UInt16) (fileID : ByteString)
      (openFlags : Int32) (serverCrashed isMirrorSession : Bool)
  | referenceSession (fileHandleID : ByteString) (targetID : UInt16) (isMirrorSession : Bool)
  | openFile (handle : SessionHandle) (openRes : Int)
  | setMirrorNodeExclusive (handle : SessionHandle) (mirrorNode : UInt16)
  | releaseSession (handle : SessionHandle)
  | removeSession (fileHandleID : ByteString) (targetID : UInt16) (isMirrorSession : Bool)
  | removeAllSessions
  | removeAllMirrorSessions (targetID : UInt16)
deriving DecidableEq

namespace ChunkSessions

variable (s : ChunkSessions)

def delete (session : SessionObject) : ChunkSessions :=
  { s with destroyed := s.destroyed ++ [session] }

/-- The descriptor is closed and the node released, then the session is deleted. -/
def cleanup (session : SessionObject) : ChunkSessions :=
  { s with
    destroyed := s.destroyed ++ [session]
    closedFDs := s.closedFDs ++ session.openFDs
    releasedNodes := s.releasedNodes ++ session.nodeRefs }

def setStore (store : SessionLocalFileStore) : ChunkSessions :=
  { s with store := store }

/-- The holder of a reference changes the session. -/
def modifySession (key : ByteString) (f : SessionLocalFile → SessionLocalFile) : ChunkSessions :=
  match s.store.sessions.find key with
  | none => s
  | some sessionRefer =>
    s.setStore ⟨s.store.sessions.put key (SessionLocalFileReferencer.modifyFile sessionRefer f)⟩

def addAndReferenceSession (s : ChunkSessions) (file : SessionLocalFile) : ChunkSessions :=
  let added := s.store.addAndReferenceSession ⟨s.nextAddr, file⟩
  { s with
    store := added.2.2
    nextAddr := s.nextAddr + 1
    handles := s.handles ++ [(file.mapKey, added.1.addr)]
    destroyed := s.destroyed ++ added.2.1.toList }

def referenceSession (s : ChunkSessions) (key : ByteString) : ChunkSessions :=
  match s.store.referenceSession key with
  | (none, _) => s
  | (some session, store) =>
    { s with store := store, handles := s.handles ++ [(key, session.addr)] }

def releaseSession (s : ChunkSessions) (handle : SessionHandle) : ChunkSessions :=
  let released := s.store.releaseSession handle.1
  released.1.toList.foldl cleanup
    { s with store := released.2, handles := s.handles.erase handle }

def removeSession (s : ChunkSessions) (key : ByteString) : ChunkSessions :=
  let removed := s.store.removeSession key
  removed.2.1.toList.foldl cleanup (s.setStore removed.2.2)

def removeAllSessions (s : ChunkSessions) : ChunkSessions :=
  let removed := s.store.removeAllSessions
  removed.1.foldl cleanup (s.setStore removed.2.2)

/-- The sessions are deleted by their referencers. -/
def removeAllMirrorSessions (s : ChunkSessions) (targetID : UInt16) : ChunkSessions :=
  let removed := s.store.removeAllMirrorSessions targetID
  removed.1.foldl delete (s.setStore removed.2)

def step : ChunkSessionOp → ChunkSessions
  | .addAndReferenceSession fileHandleID targetID fileID openFlags serverCrashed isMirrorSession =>
    s.addAndReferenceSession
      (.new fileHandleID targetID fileID openFlags serverCrashed isMirrorSession)
  | .referenceSession fileHandleID targetID isMirrorSession =>
    s.referenceSession (generateMapKey fileHandleID targetID isMirrorSession)
  | .openFile handle openRes => s.modifySession handle.1 fun file => file.openFile openRes
  | .setMirrorNodeExclusive handle mirrorNode =>
    s.modifySession handle.1 fun file => file.setMirrorNodeExclusive mirrorNode
  | .releaseSession handle => s.releaseSession handle
  | .removeSession fileHandleID targetID isMirrorSession =>
    s.removeSession (generateMapKey fileHandleID targetID isMirrorSession)
  | .removeAllSessions => s.removeAllSessions
  | .removeAllMirrorSessions targetID => s.removeAllMirrorSessions targetID

/-- Sessions are used and released by those who have a reference. -/
def Admitted : ChunkSessionOp → Prop
  | .openFile handle _ => handle ∈ s.handles
  | .setMirrorNodeExclusive handle _ => handle ∈ s.handles
  | .releaseSession handle => handle ∈ s.handles
  | _ => True

instance (s : ChunkSessions) (op : ChunkSessionOp) : Decidable (s.Admitted op) := by
  cases op <;> unfold Admitted <;> infer_instance

def empty : ChunkSessions := ⟨⟨OrderedSet.empty⟩, 0, [], [], [], []⟩

/-! ## Sound runs -/

/-- The counts are those of the references, no destroyed session is referenced, and each one has
met its duties once. -/
structure Sound (s : ChunkSessions) : Prop where
  counts : ∀ key sessionRefer, s.store.sessions.find key = some sessionRefer →
    sessionRefer.refCount = handlesTo s.handles sessionRefer.referencedObject.addr
  referenced : ∀ handle ∈ s.handles, handle.2 ∉ s.destroyed.map SessionObject.addr
  once : (s.destroyed.map SessionObject.addr).Nodup
  closed : ∀ session ∈ s.destroyed,
    s.closedFDs.filter (fun e => decide (e.1 = session.addr)) = session.openFDs
  released : ∀ session ∈ s.destroyed,
    s.releasedNodes.filter (fun e => decide (e.1 = session.addr)) = session.nodeRefs

/-- The step does not delete a session that is referenced, or still has a duty. Only the bulk
removals do. -/
def Careful : ChunkSessionOp → Prop
  | .removeAllSessions => ∀ entry ∈ s.store.sessions.elems, entry.2.refCount = 0
  | .removeAllMirrorSessions targetID => ∀ entry ∈ s.store.sessions.elems,
      SessionLocalFileStore.isMirrorSessionOf targetID entry.2 = true → entry.2.refCount = 0 →
        entry.2.referencedObject.file.fileDescriptor = -1 ∧
          entry.2.referencedObject.file.mirrorNode = none
  | _ => True

instance (s : ChunkSessions) (op : ChunkSessionOp) : Decidable (s.Careful op) := by
  cases op <;> unfold Careful <;> infer_instance

end ChunkSessions

end Fhgfs.Session
