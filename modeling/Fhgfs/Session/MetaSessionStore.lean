import Fhgfs.Common.EntryInfoSerialization
import Fhgfs.Session.SavedSessions
import Fhgfs.Session.SessionFileStore
import Fhgfs.Storage.MetaStore

/-!
# Saved sessions of a metadata server

A metadata server saves its sessions, with the open files of each, and then the locks of each
inode that is open, with the entry of a file that has it open. When the sessions are loaded, the
files are opened again, and the locks are read into the inodes.

`ι` is the type of pointers to open inodes. The pointers of loaded files are kept by their keys,
in `LoadState.inodes`.
-/

namespace Fhgfs.Session

open Wire Serialization Locking Storage

variable {ι : Type}

/-! ## Files -/

namespace SessionFile

def serialize (file : SessionFile ι) : Written :=
  (Written.all [.of (serializeUInt file.accessFlags), .of (serializeUInt (.ofNat file.sessionID)),
    file.entryInfo.serialize, .of (serializeBool file.useAsyncCleanup)]).asUnsigned

def deserialize : Reader (SessionFile Unit) := reportingLen do
  let accessFlags ← deserializeUInt
  let sessionID ← deserializeUInt
  let entryInfo ← EntryInfo.deserialize
  let useAsyncCleanup ← deserializeBool
  pure {
    inode := ()
    accessFlags := accessFlags
    sessionID := sessionID.toNat
    useAsyncCleanup := useAsyncCleanup
    entryInfo := entryInfo }

def serialLen (file : SessionFile ι) : Nat := (4 + 4 + file.entryInfo.serialLen + 1) % 2 ^ 32

def stored (file : SessionFile ι) : SessionFile Unit := { file with inode := () }

end SessionFile

/-- `SessionFileStore`, with the last ID that it has generated. -/
structure NumberedFileStore (ι : Type) extends SessionFileStore ι where
  lastSessionID : UInt32

namespace NumberedFileStore

def serialize (files : NumberedFileStore ι) : Written :=
  ((Written.all [.of (serializeUInt files.lastSessionID),
    .of (serializeUInt (.ofNat files.sessions.elems.length))]).loop files.sessions.elems
    fun entry =>
      (Written.of (serializeUInt (.ofNat entry.1))).andThen
        entry.2.referencedObject.serialize).asUnsigned

def readFile (sessions : OrderedMap Nat (SessionFileReferencer Unit)) :
    Reader (OrderedMap Nat (SessionFileReferencer Unit)) := do
  let key ← deserializeUInt
  let sessionFile ← SessionFile.deserialize
  pure (OrderedSet.insert sessions (key.toNat, ObjectReferencer.new sessionFile))

def deserialize : Reader (NumberedFileStore Unit) := reportingLen do
  let lastSessionID ← deserializeUInt
  let elemNumField ← deserializeUInt
  let sessions ← readFold readFile elemNumField.toNat OrderedSet.empty
  pure ⟨⟨sessions⟩, lastSessionID⟩

def serialLen (files : NumberedFileStore ι) : Nat :=
  (4 + 4 + (files.sessions.elems.map fun entry =>
    4 + entry.2.referencedObject.serialLen).sum) % 2 ^ 32

def mergeSessionFiles (files files' : NumberedFileStore ι) : NumberedFileStore ι :=
  { files with sessions := files'.sessions.elems.foldl OrderedSet.insert files.sessions }

end NumberedFileStore

/-! ## Sessions -/

/-- The `Session` of a client. -/
structure MetaSession (ι : Type) where
  sessionID : ByteString
  files : NumberedFileStore ι

namespace MetaSession

def serialize (session : MetaSession ι) : Written :=
  ((serializeStr session.sessionID).andThen session.files.serialize).asUnsigned

def deserialize : Reader (MetaSession Unit) := reportingLen do
  let sessionID ← deserializeStr
  let files ← NumberedFileStore.deserialize
  pure ⟨sessionID, files⟩

def serialLen (session : MetaSession ι) : Nat :=
  (serialLenStr session.sessionID.length + session.files.serialLen) % 2 ^ 32

end MetaSession

/-- The sessions of all clients. -/
structure MetaSessionStore (ι : Type) where
  sessions : OrderedMap ByteString (ObjectReferencer (MetaSession ι))

/-- The first file of each inode, apart from the inodes that were seen before. -/
def filesOfInodes [DecidableEq ι] (inodesSeen : List ι) :
    List (SessionFile ι) → List (SessionFile ι)
  | [] => []
  | file :: files =>
    if file.inode ∈ inodesSeen then filesOfInodes inodesSeen files
    else file :: filesOfInodes (file.inode :: inodesSeen) files

namespace MetaSessionStore

def empty : MetaSessionStore ι := ⟨OrderedSet.empty⟩

variable (store : MetaSessionStore ι)

def file (sessionID : ByteString) (key : Nat) : Option (SessionFile ι) :=
  (store.sessions.find sessionID).bind fun sessionRefer =>
    (sessionRefer.referencedObject.files.sessions.find key).map ObjectReferencer.referencedObject

/-- The files of all sessions, in the order of the loops over them. -/
def allFiles : List (ByteString × Nat × SessionFile ι) :=
  store.sessions.elems.flatMap fun session =>
    session.2.referencedObject.files.sessions.elems.map fun entry =>
      (session.1, entry.1, entry.2.referencedObject)

def serializeSessions : Written :=
  (Written.of (serializeUInt (.ofNat store.sessions.elems.length))).loop (loopElems store.sessions)
    fun entry => (serializeStr entry.1).andThen entry.2.referencedObject.serialize

variable [DecidableEq ι]

def lockedFiles : List (SessionFile ι) :=
  filesOfInodes [] (store.allFiles.map fun entry => entry.2.2)

/-- The number of inodes is written when they have been counted. -/
def serialize (locks : ι → FileInodeLocks) (store : MetaSessionStore ι) : Written :=
  let sessions := store.serializeSessions
  let lenPos := sessions.used % 2 ^ 32
  let counted := sessions.andThen (.of (serializeUInt 0))
  let states := counted.loop store.lockedFiles fun file =>
    file.entryInfo.serialize.andThen (locks file.inode).serializeLockState
  Written.asUnsigned
    ⟨overlay states.bytes lenPos (serializeUInt (.ofNat store.lockedFiles.length)), states.used⟩

def serialLen (locks : ι → FileInodeLocks) (store : MetaSessionStore ι) : Nat :=
  (4 + ((loopElems store.sessions).map fun entry =>
      serialLenStr entry.1.length + entry.2.referencedObject.serialLen).sum +
    (4 + (store.lockedFiles.map fun file =>
      file.entryInfo.serialLen + (locks file.inode).serialLenLockState).sum)) % 2 ^ 32

def saveToFile (locks : ι → FileInodeLocks) (store : MetaSessionStore ι) (holes : Nat → UInt8) :
    List UInt8 :=
  let written := store.serialize locks
  fill holes (written.bytes.take written.used)

/-- A session that exists already gets the files. -/
def addOrMerge (key : ByteString) (session : MetaSession ι) : MetaSessionStore ι :=
  match store.sessions.find key with
  | none => ⟨store.sessions.put key (ObjectReferencer.new session)⟩
  | some sessionRefer => ⟨store.sessions.put key { sessionRefer with
      referencedObject := { sessionRefer.referencedObject with
        files := sessionRefer.referencedObject.files.mergeSessionFiles session.files } }⟩

def readSession (store : MetaSessionStore Unit) : Reader (MetaSessionStore Unit) := do
  let key ← deserializeStr
  let session ← MetaSession.deserialize
  pure (store.addOrMerge (cString key) session)

def deserialize : Reader (MetaSessionStore Unit) := reportingLen do
  let elemNumField ← deserializeUInt
  readFold readSession elemNumField.toNat empty

end MetaSessionStore

/-! ## Loading -/

/-- What a server finds when it loads its sessions: the outcomes of its calls, which inodes can be
read from disk (with the directory and the ID of the file), and the unset locks of new inode
objects. -/
structure LoadEnv where
  posixTID : Int
  choices : Nat → DirStoreOutcomes
  onDisk : String → String → Bool
  unsetLocks : Nat → EntryLockDetails × EntryLockDetails

/-- The inodes are those of the loaded files, the locks those of the inode objects. -/
structure LoadState where
  metaStore : MetaStore
  inodes : ByteString → Nat → Option FileInode
  locks : Nat → FileInodeLocks
  numCalls : Nat

namespace LoadEnv

variable (env : LoadEnv)

def start (tuneDirMetadataCacheLimit : Nat) : LoadState where
  metaStore := .empty tuneDirMetadataCacheLimit
  inodes := fun _ _ => none
  locks := fun address => .init (env.unsetLocks address).1 (env.unsetLocks address).2
  numCalls := 0

def outcomes (entryInfo : EntryInfo) (numCalls : Nat) : StoreOutcomes where
  toDirStoreOutcomes := env.choices numCalls
  createFromEntryInfo := env.onDisk entryInfo.parentEntryID entryInfo.entryID

def relinkInode (entry : ByteString × Nat × SessionFile Unit) (s : LoadState) : LoadState × Bool :=
  let entryInfo := entry.2.2.entryInfo
  let opened := s.metaStore.openFile env.posixTID (env.outcomes entryInfo s.numCalls) entryInfo
  ({ s with
      metaStore := opened.1
      inodes := fun sessionID key =>
        if sessionID = entry.1 ∧ key = entry.2.1 then opened.2.toOption else s.inodes sessionID key
      numCalls := s.numCalls + 1 }, opened.2.toBool)

/-- All files are opened, also after one that could not be opened. -/
def relinkInodes : List (ByteString × Nat × SessionFile Unit) → LoadState → LoadState × Bool
  | [], s => (s, true)
  | entry :: entries, s =>
    let relinked := env.relinkInode entry s
    let rest := relinkInodes entries relinked.1
    (rest.1, relinked.2 && rest.2)

/-- The loop over the lock states of a file. Without a result, it fails. -/
def readLockStates : Nat → LoadState → Wire.Cursor → Option LoadState
  | 0, s, _ => some s
  | states + 1, s, c =>
    match EntryInfo.deserialize c with
    | .error _ => none
    | .ok (info, c') =>
      let referenced := s.metaStore.referenceFileUnlocked env.posixTID
        (env.outcomes info s.numCalls) info
      match referenced.2 with
      -- the pointer is not checked
      | none => none
      | some inode =>
        match (s.locks inode.address).deserializeLockState c' with
        | .error _ => none
        | .ok (locks, c'') =>
          readLockStates states
            { s with
              metaStore := (referenced.1.releaseFileUnlocked (env.outcomes info (s.numCalls + 1))
                info.parentEntryID inode).1
              locks := Function.update s.locks inode.address locks
              numCalls := s.numCalls + 2 } c''

def deserializeLockStates (s : LoadState) (c : Wire.Cursor) : Option LoadState :=
  match deserializeUInt c with
  | .error _ => none
  | .ok (states, c') => env.readLockStates states.toNat s c'

/-- Files of older releases end before the locks. -/
def loadFromFile (buf : List UInt8) (s : LoadState) : Option (MetaSessionStore Unit × LoadState) :=
  match MetaSessionStore.deserialize (.of buf) with
  | .error _ => none
  | .ok (store, c) =>
    let relinked := env.relinkInodes store.allFiles s
    if relinked.2 then
      if (Wire.Cursor.of buf).moved c < buf.length then
        (env.deserializeLockStates relinked.1 c).map fun s' => (store, s')
      else some (store, relinked.1)
    else none

end LoadEnv

end Fhgfs.Session
