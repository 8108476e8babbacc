import Fhgfs.Session.MetaSessionRestore

/-!
# Saved sessions of a metadata server are restored

`MetaSessionStore.metaSessions_restored_iff`, for a store whose files have the inode objects
of a meta store. Lock requests that wait are not saved, so that what is restored of the locks of an
inode are the granted ones.
-/

namespace Fhgfs.Session

open Wire Serialization Locking Storage List FileInodeLocks Written.Plain

variable {ι : Type}

namespace MetaSessionStore

/-! ## Files of a store -/

theorem mem_allFiles {store : MetaSessionStore ι} {sessionID : ByteString} {key : Nat}
    {file : SessionFile ι} :
    (sessionID, key, file) ∈ store.allFiles ↔ store.file sessionID key = some file := by
  simp only [allFiles, MetaSessionStore.file, mem_flatMap, mem_map, Prod.mk.injEq,
    Option.bind_eq_some_iff, Option.map_eq_some_iff, OrderedMap.find_eq_some]
  constructor
  · rintro ⟨session, hSession, entry, hEntry, rfl, rfl, rfl⟩
    exact ⟨session.2, hSession, entry.2, hEntry, rfl⟩
  · rintro ⟨r, hSession, r', hEntry, rfl⟩
    exact ⟨(sessionID, r), hSession, (key, r'), hEntry, rfl, rfl, rfl⟩

theorem nodup_keys (store : MetaSessionStore ι) :
    (store.allFiles.map fun entry => (entry.1, entry.2.1)).Nodup := by
  rw [allFiles, map_flatMap, nodup_flatMap]
  constructor
  · intro session _
    have hKeys := session.2.referencedObject.files.sessions.nodup_keys
    rw [map_map]
    apply List.Nodup.of_map Prod.snd
    rwa [map_map]
  · apply store.sessions.ascending.imp
    intro session other hLt
    show Disjoint _ _
    rw [disjoint_left]
    intro p hp hp'
    simp only [map_map, mem_map, Function.comp_apply] at hp hp'
    obtain ⟨entry, -, rfl⟩ := hp
    obtain ⟨entry', -, hSame⟩ := hp'
    exact hLt.ne (Prod.mk.inj hSame).1.symm

theorem hasIDs_iff (store : MetaSessionStore ι) : store.HasIDs ↔
    ∀ entry ∈ store.allFiles, entry.2.2.entryInfo.entryID ≠ "" := by
  simp only [HasIDs, NumberedFileStore.HasIDs, allFiles, mem_flatMap, mem_map]
  constructor
  · rintro h _ ⟨session, hSession, entry, hEntry, rfl⟩
    exact h session hSession entry hEntry
  · intro h session hSession entry hEntry
    exact h _ ⟨session, hSession, entry, hEntry, rfl⟩

variable {entry : ByteString × Nat × SessionFile ι}

theorem accepted_of_mem {store : MetaSessionStore ι} (h : store.SessionsWellFormed)
    (hIn : entry ∈ store.allFiles) :
    entry.2.2.Accepted := by
  simp only [allFiles, mem_flatMap, mem_map] at hIn
  obtain ⟨session, hSession, entry, hEntry, rfl⟩ := hIn
  exact (h.session session hSession).files.accepted entry hEntry

variable [DecidableEq ι] {store : MetaSessionStore ι} {locks : ι → FileInodeLocks}

/-! ## Stores that a server can have -/

/-- The meta store gives one inode object for each directory and ID. -/
structure WellFormed (store : MetaSessionStore ι) (locks : ι → FileInodeLocks) : Prop where
  sessions : store.SessionsWellFormed
  storable : ∀ entry ∈ store.allFiles, Storable (locks entry.2.2.inode)
  inode : ∀ entry ∈ store.allFiles, ∀ other ∈ store.allFiles,
    entry.2.2.inode = other.2.2.inode ↔
      entry.2.2.entryInfo.parentEntryID = other.2.2.entryInfo.parentEntryID ∧
        entry.2.2.entryInfo.entryID = other.2.2.entryInfo.entryID
  count : store.lockedFiles.length < 2 ^ 32

def savedBytes (locks : ι → FileInodeLocks) (store : MetaSessionStore ι) : Encoding :=
  store.sessionsBytes ++ (serializeUInt (.ofNat store.lockedFiles.length) ++
    store.lockedFiles.flatMap (stateBytes locks))

theorem entry_of_lockedFiles {file : SessionFile ι} (h : file ∈ store.lockedFiles) :
    ∃ entry ∈ store.allFiles, entry.2.2 = file :=
  mem_map.mp (mem_of_filesOfInodes h).1

theorem exists_lockedFile (h : entry ∈ store.allFiles) :
    ∃ file ∈ store.lockedFiles, file.inode = entry.2.2.inode :=
  exists_filesOfInodes (mem_map_of_mem h) not_mem_nil

theorem length_encoding_le (locks : ι → FileInodeLocks) (hIn : entry ∈ store.allFiles) :
    (locks entry.2.2.inode).encoding.length ≤ (store.savedBytes locks).length := by
  obtain ⟨file, hFile, hInode⟩ := exists_lockedFile hIn
  have hState := length_le_flatMap (stateBytes locks) hFile
  rw [stateBytes, length_append, hInode] at hState
  simp only [savedBytes, length_append]
  omega

section WellFormed

variable (h : store.WellFormed locks)
include h

theorem received_of_lockedFiles {file : SessionFile ι} (hIn : file ∈ store.lockedFiles) :
    file.entryInfo.Received ∧ Storable (locks file.inode) := by
  obtain ⟨entry, hEntry, rfl⟩ := entry_of_lockedFiles hIn
  exact ⟨(accepted_of_mem h.sessions hEntry).entryInfo, h.storable entry hEntry⟩

theorem plain_serialize : (store.serialize locks).Plain (store.savedBytes locks) := by
  have hSessions := plain_serializeSessions h.sessions
  have hStates : ((store.serializeSessions.andThen (.of (serializeUInt 0))).loop
      store.lockedFiles fun file =>
        file.entryInfo.serialize.andThen (locks file.inode).serializeLockState).Plain
      (store.sessionsBytes ++ (serializeUInt 0 ++
        store.lockedFiles.flatMap (stateBytes locks))) := by
    rw [← append_assoc]
    apply (hSessions.andThen (.of _)).loop
    intro file hIn
    obtain ⟨hReceived, hStorable⟩ := received_of_lockedFiles h hIn
    rw [EntryInfo.serialize_eq hReceived]
    exact (of _).andThen hStorable.plain
  apply asUnsigned
  exact hSessions.patch hStates (by rw [length_serializeUInt, length_serializeUInt])

theorem serialLenLockState_eq {entry : ByteString × Nat × SessionFile ι}
    (hIn : entry ∈ store.allFiles) (hFits : (locks entry.2.2.inode).encoding.length < 2 ^ 32) :
    (locks entry.2.2.inode).serialLenLockState = (locks entry.2.2.inode).encoding.length := by
  have hStorable := h.storable entry hIn
  rw [← (hStorable.restored hFits).length, (hStorable.plain.fits hFits).1]

theorem serialLen_eq (hFits : (store.savedBytes locks).length < 2 ^ 32) :
    store.serialLen locks = (store.savedBytes locks).length % 2 ^ 32 := by
  have hStates : (store.lockedFiles.map fun file =>
      file.entryInfo.serialLen + (locks file.inode).serialLenLockState).sum % 2 ^ 32 =
      (store.lockedFiles.flatMap (stateBytes locks)).length % 2 ^ 32 := by
    rw [length_flatMap]
    apply LocalFiles.sum_mod
    intro file hIn
    obtain ⟨entry, hEntry, rfl⟩ := entry_of_lockedFiles hIn
    have hLe := length_encoding_le locks hEntry
    rw [EntryInfo.serialLen_eq (received_of_lockedFiles h hIn).1,
      serialLenLockState_eq h hEntry (by omega), stateBytes, length_append]
    omega
  have hSessions : ((loopElems store.sessions).map fun entry =>
      serialLenStr entry.1.length + entry.2.referencedObject.serialLen).sum % 2 ^ 32 =
      (store.sessions.elems.flatMap entryBytes).length % 2 ^ 32 := by
    rw [loopElems_eq h.sessions, length_flatMap]
    apply LocalFiles.sum_mod
    intro entry hIn
    rw [MetaSession.serialLen_eq (h.sessions.session entry hIn), entryBytes, length_append,
      length_strBytes, serialLenStr]
    omega
  simp only [serialLen, savedBytes, sessionsBytes, length_append, length_serializeUInt]
  omega

end WellFormed

/-! ## Announced lengths -/

/-- Each writer writes as many bytes as announced. -/
structure AnnouncesLengths (store : MetaSessionStore ι) (locks : ι → FileInodeLocks) : Prop where
  whole : (store.serialize locks).Announced (store.serialLen locks)
  session : ∀ entry ∈ store.sessions.elems,
    entry.2.referencedObject.serialize.Announced entry.2.referencedObject.serialLen
  files : ∀ entry ∈ store.sessions.elems,
    entry.2.referencedObject.files.serialize.Announced entry.2.referencedObject.files.serialLen
  file : ∀ entry ∈ store.allFiles, entry.2.2.serialize.Announced entry.2.2.serialLen
  entryInfo : ∀ entry ∈ store.allFiles,
    entry.2.2.entryInfo.serialize.Announced entry.2.2.entryInfo.serialLen
  lockState : ∀ entry ∈ store.allFiles, (locks entry.2.2.inode).serializeLockState.Announced
    (locks entry.2.2.inode).serialLenLockState

theorem announcesLengths (h : store.WellFormed locks)
    (hFits : (store.savedBytes locks).length < 2 ^ 32) : store.AnnouncesLengths locks := by
  have hSession : ∀ entry ∈ store.sessions.elems,
      entry.2.referencedObject.savedBytes.length < 2 ^ 32 := by
    intro entry hIn
    have hEntry := length_le_flatMap entryBytes hIn
    rw [entryBytes, length_append] at hEntry
    simp only [savedBytes, sessionsBytes, length_append] at hFits
    omega
  have hFiles : ∀ entry ∈ store.sessions.elems,
      entry.2.referencedObject.files.savedBytes.length < 2 ^ 32 := by
    intro entry hIn
    have hEntry := hSession entry hIn
    rw [MetaSession.savedBytes, length_append] at hEntry
    omega
  have hFile : ∀ entry ∈ store.allFiles, entry.2.2.savedBytes.length < 2 ^ 32 := by
    intro entry hIn
    simp only [allFiles, mem_flatMap, mem_map] at hIn
    obtain ⟨session, hSession, entry, hEntry, rfl⟩ := hIn
    have hLe := length_le_flatMap NumberedFileStore.entryBytes hEntry
    have hLt := hFiles session hSession
    rw [NumberedFileStore.entryBytes, length_append] at hLe
    simp only [NumberedFileStore.savedBytes, length_append] at hLt
    show entry.2.referencedObject.savedBytes.length < 2 ^ 32
    omega
  constructor
  · rw [serialLen_eq h hFits]
    exact (plain_serialize h).announced hFits
  · intro entry hIn
    have hWellFormed := h.sessions.session entry hIn
    rw [MetaSession.serialLen_eq hWellFormed]
    exact (MetaSession.plain_serialize hWellFormed).announced (hSession entry hIn)
  · intro entry hIn
    have hWellFormed := (h.sessions.session entry hIn).files
    rw [NumberedFileStore.serialLen_eq hWellFormed]
    exact (NumberedFileStore.plain_serialize hWellFormed).announced (hFiles entry hIn)
  · intro entry hIn
    have hAccepted := accepted_of_mem h.sessions hIn
    rw [SessionFile.serialLen_eq hAccepted]
    exact (SessionFile.plain_serialize hAccepted).announced (hFile entry hIn)
  · intro entry hIn
    have hReceived := (accepted_of_mem h.sessions hIn).entryInfo
    have hLength := SessionFile.length_savedBytes entry.2.2
    have hLt := hFile entry hIn
    rw [EntryInfo.serialLen_eq hReceived, EntryInfo.serialize_eq hReceived]
    exact (of _).announced (by omega)
  · intro entry hIn
    have hLe := length_encoding_le locks hIn
    have hLt : (locks entry.2.2.inode).encoding.length < 2 ^ 32 := by omega
    rw [serialLenLockState_eq h hIn hLt, ← Nat.mod_eq_of_lt hLt]
    exact (h.storable entry hIn).plain.announced hLt

/-! ## Restored stores -/

/-- Each inode can be read from disk when the sessions are loaded. -/
def OnDisk (store : MetaSessionStore ι) (env : LoadEnv) : Prop :=
  ∀ entry ∈ store.allFiles, env.OnDisk entry.2.2.entryInfo

/-- The saved store is loaded into an empty one, `kept` of the locks of the inodes with it. -/
structure Restored (store : MetaSessionStore ι) (locks : ι → FileInodeLocks) (env : LoadEnv)
    (tuneDirMetadataCacheLimit : Nat) (kept : FileInodeLocks → FileInodeLocks) : Prop where
  announced : store.AnnouncesLengths locks
  loaded : ∀ holes, ∃ s, env.loadFromFile (store.saveToFile locks holes)
      (env.start tuneDirMetadataCacheLimit) = some (store.stored, s) ∧
    ∀ sessionID key file, store.file sessionID key = some file →
      ∃ inode, s.inodes sessionID key = some inode ∧ s.locks inode.address = kept (locks file.inode)

section WellFormed

variable (h : store.WellFormed locks) (hFits : (store.savedBytes locks).length < 2 ^ 32)
include h hFits

theorem fills_saveToFile (holes : Nat → UInt8) :
    Fills (store.savedBytes locks) (store.saveToFile locks holes) := by
  obtain ⟨hBytes, hUsed⟩ := (plain_serialize h).fits hFits
  unfold saveToFile
  dsimp only
  rw [hBytes, hUsed, take_length]
  exact fills_fill holes _

theorem split_saveToFile (holes : Nat → UInt8) : ∃ front back,
    store.saveToFile locks holes = front ++ back ∧ Fills store.sessionsBytes front ∧
      Fills (serializeUInt (.ofNat store.lockedFiles.length) ++
        store.lockedFiles.flatMap (stateBytes locks)) back :=
  fills_append (fills_saveToFile h hFits holes)

theorem deserialize_saveToFile (hIDs : store.HasIDs) {front back : List UInt8}
    (hFront : Fills store.sessionsBytes front) :
    deserialize (.of (front ++ back)) = .ok (store.stored, .of back) := by
  rw [savedBytes, length_append] at hFits
  exact (reads_sessionsBytes h.sessions hIDs (by omega)).of back hFront

theorem loadFromFile_of_noID (hIDs : ¬ store.HasIDs) (holes : Nat → UInt8) (env : LoadEnv)
    (s : LoadState) : env.loadFromFile (store.saveToFile locks holes) s = none := by
  obtain ⟨front, back, hBuf, hFront, -⟩ := split_saveToFile h hFits holes
  rw [savedBytes, length_append] at hFits
  obtain ⟨e, hError⟩ := rejects_sessionsBytes h.sessions hIDs (by omega) front back
    (front ++ back).length hFront (by rw [length_append]; omega)
  have hDeserialize : deserialize (.of (front ++ back)) = .error e := hError
  rw [hBuf, LoadEnv.loadFromFile, hDeserialize]

omit [DecidableEq ι] h hFits in
theorem onDisk_stored (env : LoadEnv) :
    (∀ entry ∈ store.stored.allFiles, env.OnDisk entry.2.2.entryInfo) ↔ store.OnDisk env := by
  simp only [allFiles_stored, forall_mem_map]
  rfl

omit [DecidableEq ι] h hFits in
theorem nodup_stored (store : MetaSessionStore ι) :
    (store.stored.allFiles.map fun entry => (entry.1, entry.2.1)).Nodup := by
  rw [allFiles_stored, map_map]
  exact store.nodup_keys

theorem onDisk_of_loadFromFile (hIDs : store.HasIDs) {env : LoadEnv} {limit : Nat}
    {res : MetaSessionStore Unit × LoadState} {holes : Nat → UInt8}
    (hLoad : env.loadFromFile (store.saveToFile locks holes) (env.start limit) = some res) :
    store.OnDisk env := by
  obtain ⟨front, back, hBuf, hFront, -⟩ := split_saveToFile h hFits holes
  obtain ⟨handles, -, -, hOk, -⟩ := (serving_start env limit).relinkInodes (nodup_stored store)
  rw [hBuf, LoadEnv.loadFromFile, deserialize_saveToFile h hFits hIDs hFront] at hLoad
  dsimp only at hLoad
  split at hLoad
  · rename_i hRelinked
    exact (onDisk_stored env).mp (hOk.mp hRelinked)
  · cases hLoad

theorem loadFromFile_saveToFile (hIDs : store.HasIDs) {env : LoadEnv} (hDisk : store.OnDisk env)
    (limit : Nat) (holes : Nat → UInt8) :
    ∃ s, env.loadFromFile (store.saveToFile locks holes) (env.start limit) =
        some (store.stored, s) ∧
      ∀ sessionID key file, store.file sessionID key = some file →
        ∃ inode, s.inodes sessionID key = some inode ∧
          s.locks inode.address = (locks file.inode).granted := by
  obtain ⟨front, back, hBuf, hFront, hBack⟩ := split_saveToFile h hFits holes
  obtain ⟨count, states, rfl, hCount, hStates⟩ := fills_append hBack
  obtain ⟨handles, -, hServing, hOk, hOpened⟩ :=
    (serving_start env limit).relinkInodes (nodup_stored store)
  have hRelinked := hOk.mpr ((onDisk_stored env).mpr hDisk)
  generalize hState : env.relinkInodes store.stored.allFiles (env.start limit) = relinked
    at hServing hOpened hRelinked
  have hUnset : ∀ address, relinked.1.locks address = env.unset address := by
    intro address
    rw [← hState, locks_relinkInodes]
    rfl
  -- each file has its inode object
  have hFile : ∀ entry ∈ store.allFiles, ∃ inode, OpenedAs relinked.1 handles entry inode := by
    intro entry hIn
    obtain ⟨inode, hLinked, hID, hHandle⟩ := hOpened (entry.1, entry.2.1, entry.2.2.stored)
      (by rw [allFiles_stored]; exact mem_map_of_mem hIn) (hDisk entry hIn)
    exact ⟨inode, hLinked, hID, hHandle⟩
  have hLocked : ∀ file ∈ store.lockedFiles, ∃ inode : FileInode,
      inode.entryID = file.entryInfo.entryID ∧ ⟨file.entryInfo.parentEntryID, inode⟩ ∈ handles := by
    intro file hIn
    obtain ⟨entry, hEntry, rfl⟩ := entry_of_lockedFiles hIn
    obtain ⟨inode, -, hID, hHandle⟩ := hFile entry hEntry
    exact ⟨inode, hID, hHandle⟩
  have : Nonempty FileInode := ⟨⟨"", 0, 0⟩⟩
  choose! inodeOf hInodeOf using hLocked
  -- different inodes are read into different objects
  have hDistinct : store.lockedFiles.Pairwise fun file other =>
      (inodeOf file).address ≠ (inodeOf other).address := by
    apply pairwise_filesOfInodes.imp_of_mem
    intro file other hIn hIn' hNe hSame
    obtain ⟨hParent, hID⟩ := hServing.accounted.ledger.place_of_address hServing.global
      (hInodeOf file hIn).2 (hInodeOf other hIn').2 hSame
    obtain ⟨entry, hEntry, rfl⟩ := entry_of_lockedFiles hIn
    obtain ⟨entry', hEntry', rfl⟩ := entry_of_lockedFiles hIn'
    apply hNe
    apply (h.inode entry hEntry entry' hEntry').mpr
    refine ⟨hParent, ?_⟩
    rwa [← (hInodeOf _ hIn).1, ← (hInodeOf _ hIn').1]
  have hPending : ∀ file ∈ store.lockedFiles,
      Pending env relinked.1 handles locks inodeOf file := by
    intro file hIn
    obtain ⟨hReceived, hStorable⟩ := received_of_lockedFiles h hIn
    obtain ⟨entry, hEntry, rfl⟩ := entry_of_lockedFiles hIn
    exact ⟨hReceived, (hasIDs_iff store).mp hIDs entry hEntry, hStorable, (hInodeOf _ hIn).1,
      (hInodeOf _ hIn).2, hUnset _⟩
  have hLengths := hFits
  simp only [savedBytes, length_append] at hLengths
  obtain ⟨s, hRun, hInodes, hSet, -⟩ := hServing.readLockStates hPending (by omega) hDistinct []
    hStates
  refine ⟨s, ?_, ?_⟩
  · have hCounted := (reads_uint (.ofNat store.lockedFiles.length)).of states hCount
    have hMoved : (Wire.Cursor.of (front ++ (count ++ states))).moved (.of (count ++ states)) <
        (front ++ (count ++ states)).length := by
      have hCountLen := hCount.length_eq
      rw [length_serializeUInt] at hCountLen hLengths
      unfold Wire.Cursor.moved
      simp only [Wire.Cursor.of_bufLen, length_append]
      omega
    rw [hBuf, LoadEnv.loadFromFile, deserialize_saveToFile h hFits hIDs hFront]
    dsimp only
    rw [hState, if_pos hRelinked, if_pos hMoved, LoadEnv.deserializeLockStates, hCounted]
    dsimp only
    rw [UInt32.toNat_ofNat_of_lt' h.count, ← append_nil states, hRun]
    rfl
  · intro sessionID key file hFound
    have hIn := mem_allFiles.mpr hFound
    obtain ⟨inode, hLinked, hID, hHandle⟩ := hFile _ hIn
    obtain ⟨other, hOther, hInode⟩ := exists_lockedFile hIn
    refine ⟨inode, by rw [hInodes]; exact hLinked, ?_⟩
    obtain ⟨entry, hEntry, rfl⟩ := entry_of_lockedFiles hOther
    obtain ⟨hParent, hSameID⟩ := (h.inode entry hEntry _ hIn).mp hInode
    have hObject : inodeOf entry.2.2 = inode := hServing.accounted.ledger.inode_eq
      (hInodeOf _ hOther).2 hHandle hParent ((hInodeOf _ hOther).1.trans (hSameID.trans hID.symm))
    have hLocks := hSet _ hOther
    rwa [hObject, hInode] at hLocks

end WellFormed

/-- A store comes back with its granted locks exactly if its IDs can be read, its files are on
disk and its bytes can be counted. -/
theorem metaSessions_restored_iff (h : store.WellFormed locks) (env : LoadEnv)
    (tuneDirMetadataCacheLimit : Nat) :
    store.Restored locks env tuneDirMetadataCacheLimit FileInodeLocks.granted ↔
      store.HasIDs ∧ store.OnDisk env ∧ (store.savedBytes locks).length < 2 ^ 32 := by
  constructor
  · intro hRestored
    have hFits : (store.savedBytes locks).length < 2 ^ 32 := by
      by_contra hLong
      have hBytes := (plain_serialize h).tooLong (by omega)
      rw [hRestored.announced.whole.bytes, serialLen] at hBytes
      omega
    obtain ⟨s, hLoad, -⟩ := hRestored.loaded fun _ => 0
    have hIDs : store.HasIDs := by
      by_contra hNone
      rw [loadFromFile_of_noID h hFits hNone] at hLoad
      cases hLoad
    exact ⟨hIDs, onDisk_of_loadFromFile h hFits hIDs hLoad, hFits⟩
  · rintro ⟨hIDs, hDisk, hFits⟩
    exact ⟨announcesLengths h hFits,
      loadFromFile_saveToFile h hFits hIDs hDisk tuneDirMetadataCacheLimit⟩

/-! ## A session with one file -/

def single (entryInfo : EntryInfo) : MetaSessionStore Nat where
  sessions := ⟨[([0x63], ObjectReferencer.new ⟨[0x63], ⟨⟨⟨[(1, ObjectReferencer.new
    ⟨0, 1, 1, false, entryInfo⟩)], List.pairwise_singleton _ _⟩⟩, 1⟩⟩)],
    List.pairwise_singleton _ _⟩

/-- The locks after a client has got a lock that another one waits for. -/
def waitedFor : FileInodeLocks :=
  Run.after FileInodeLocks.step (.init FileInodeLocks.junk FileInodeLocks.junk)
    FileInodeLocks.writerWaits

theorem storable_waitedFor : Storable waitedFor where
  typed := typed_after typed_junk typed_junk
    typed_writerWaits
  shared := by decide
  rangeExcl := by decide
  rangeShared := by decide

theorem acceptedID_single : AcceptedID [0x63] := ⟨by decide, by decide⟩

theorem wellFormed_single {entryInfo : EntryInfo} (h : entryInfo.Received) :
    (single entryInfo).WellFormed fun _ => waitedFor where
  sessions := {
    key := by
      intro entry hIn
      rw [mem_singleton.mp hIn]
      exact acceptedID_single
    session := by
      intro entry hIn
      rw [mem_singleton.mp hIn]
      refine ⟨acceptedID_single, ?_, ?_, (by decide : 1 < 2 ^ 32)⟩
      · intro entry hIn
        rw [mem_singleton.mp hIn]
        exact (by decide : 1 < 2 ^ 32)
      · intro entry hIn
        rw [mem_singleton.mp hIn]
        exact ⟨(by decide : 1 < 2 ^ 32), h⟩
    count := (by decide : 1 < 2 ^ 32) }
  storable := fun _ _ => storable_waitedFor
  inode := by
    intro entry hIn other hOther
    rw [mem_singleton.mp hIn, mem_singleton.mp hOther]
    simp
  count := (by decide : 1 < 2 ^ 32)

def allOnDisk : LoadEnv :=
  ⟨1, fun _ => ⟨0, false, true⟩, fun _ _ => true,
    fun _ => (FileInodeLocks.junk, FileInodeLocks.junk)⟩

def regularFile : EntryInfo := ⟨1, "root", "1-5A-1", "file", .REGULARFILE, 1⟩

theorem metaSessions_restored_single :
    (single regularFile).Restored (fun _ => waitedFor) allOnDisk 1024 FileInodeLocks.granted ↔
      (single regularFile).HasIDs ∧ (single regularFile).OnDisk allOnDisk ∧
        ((single regularFile).savedBytes fun _ => waitedFor).length < 2 ^ 32 :=
  metaSessions_restored_iff (wellFormed_single ⟨by decide, by decide, by decide⟩) allOnDisk 1024

/-- The client that waits is lost, and a file without an ID is not read at all. -/
theorem not_restored_waiters_or_noID :
    (¬ ∀ (store : MetaSessionStore Nat) (locks : Nat → FileInodeLocks), store.WellFormed locks →
      store.HasIDs → store.OnDisk allOnDisk → store.Restored locks allOnDisk 1024 id) ∧
    ¬ ∀ (store : MetaSessionStore Nat) (locks : Nat → FileInodeLocks), store.WellFormed locks →
      store.OnDisk allOnDisk → store.Restored locks allOnDisk 1024 FileInodeLocks.granted := by
  constructor
  · intro hAll
    have hWellFormed : (single regularFile).WellFormed fun _ => waitedFor :=
      wellFormed_single ⟨by decide, by decide, by decide⟩
    have hIDs : (single regularFile).HasIDs := by
      rw [hasIDs_iff]
      intro entry hIn
      rw [mem_singleton.mp hIn]
      decide
    have hDisk : (single regularFile).OnDisk allOnDisk := fun _ _ => rfl
    have hRestored := hAll _ _ hWellFormed hIDs hDisk
    obtain ⟨s, hLoad, hLocks⟩ := hRestored.loaded fun _ => 0
    obtain ⟨s', hLoad', hLocks'⟩ :=
      loadFromFile_saveToFile hWellFormed (by decide +kernel) hIDs hDisk 1024
      fun _ => 0
    obtain ⟨-, rfl⟩ := Prod.mk.inj (Option.some.inj (hLoad.symm.trans hLoad'))
    obtain ⟨inode, hInode, hWaits⟩ := hLocks [0x63] 1 _ rfl
    obtain ⟨inode', hInode', hGranted⟩ := hLocks' [0x63] 1 _ rfl
    cases hInode.symm.trans hInode'
    have hSame := congrArg (fun locks => locks.flock.waitersExclLock.length)
      (hWaits.symm.trans hGranted)
    revert hSame
    decide
  · intro hAll
    have hWellFormed : (single { regularFile with entryID := "" }).WellFormed fun _ => waitedFor :=
      wellFormed_single ⟨by decide, by decide, by decide⟩
    have hRestored := hAll _ _ hWellFormed fun _ _ => rfl
    obtain ⟨s, hLoad, -⟩ := hRestored.loaded fun _ => 0
    rw [loadFromFile_of_noID hWellFormed (by decide +kernel)] at hLoad
    · cases hLoad
    · rw [hasIDs_iff]
      intro hIDs
      exact hIDs _ mem_cons_self rfl

end MetaSessionStore

end Fhgfs.Session
