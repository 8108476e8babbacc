import Fhgfs.Session.MetaSessionStore

/-!
# The bytes of a saved session store

The bytes of a file, a session and a store of a metadata server one after the other, without the
32-bit lengths that the writers return. As for the chunk files of a storage server, the writers
write exactly these as long as there are less than 2^32 of them. A reader gets the saved value
back if all entries have an ID, and fails otherwise.
-/

namespace Fhgfs.Session

open Wire Serialization Locking Storage List OrderedSet Written.Plain OrderedMap ObjectReferencer

variable {ι : Type}

/-! ## Files -/

namespace SessionFile

/-- The session ID is an `unsigned`. -/
structure Accepted (file : SessionFile ι) : Prop where
  sessionID : file.sessionID < 2 ^ 32
  entryInfo : file.entryInfo.Received

def savedBytes (file : SessionFile ι) : Encoding :=
  serializeUInt file.accessFlags ++ (serializeUInt (.ofNat file.sessionID) ++
    (file.entryInfo.encoding ++ serializeBool file.useAsyncCleanup))

theorem length_savedBytes (file : SessionFile ι) :
    file.savedBytes.length = file.entryInfo.encoding.length + 9 := by
  simp only [savedBytes, length_append, length_serializeUInt, serializeBool, length_serializeUInt8]
  omega

section Accepted

variable {file : SessionFile ι} (h : file.Accepted)
include h

theorem plain_serialize : file.serialize.Plain file.savedBytes := by
  have hAll := Written.all_of [serializeUInt file.accessFlags,
    serializeUInt (.ofNat file.sessionID), file.entryInfo.encoding,
    serializeBool file.useAsyncCleanup]
  simp only [map_cons, map_nil, flatten_cons, flatten_nil, append_nil] at hAll
  rw [serialize, EntryInfo.serialize_eq h.entryInfo, hAll]
  exact (of _).asUnsigned

theorem serialLen_eq : file.serialLen = file.savedBytes.length % 2 ^ 32 := by
  rw [serialLen, EntryInfo.serialLen_eq h.entryInfo, length_savedBytes]
  omega

theorem reads_savedBytes (hID : file.entryInfo.entryID ≠ "")
    (hFits : file.savedBytes.length < 2 ^ 32) :
    Reads deserialize file.savedBytes file.stored := by
  have hLength := length_savedBytes file
  apply Reads.reportingLen _ hFits
  apply (reads_uint _).bind
  apply (reads_uint _).bind
  apply (EntryInfo.reads_encoding h.entryInfo hID (by omega)).bind
  apply (reads_bool _).bind_of_nil
  apply (Reads.pure _).of_eq
  rw [UInt32.toNat_ofNat_of_lt' h.sessionID]
  rfl

theorem rejects_savedBytes (hID : file.entryInfo.entryID = "")
    (hFits : file.savedBytes.length < 2 ^ 32) : Rejects deserialize file.savedBytes := by
  have hLength := length_savedBytes file
  apply Rejects.reportingLen
  apply (reads_uint _).bind_rejects
  apply (reads_uint _).bind_rejects
  apply Rejects.append
  exact (EntryInfo.rejects_encoding h.entryInfo hID (by omega)).bind _

end Accepted

end SessionFile

/-! ## The files of a session -/

namespace NumberedFileStore

abbrev Entry (ι : Type) := Nat × SessionFileReferencer ι

def entryBytes (entry : Entry ι) : Encoding :=
  serializeUInt (.ofNat entry.1) ++ entry.2.referencedObject.savedBytes

def savedBytes (files : NumberedFileStore ι) : Encoding :=
  serializeUInt files.lastSessionID ++ (serializeUInt (.ofNat files.sessions.elems.length) ++
    files.sessions.elems.flatMap entryBytes)

/-- Keys are `unsigned`. The number of files fits the count that is written. -/
structure WellFormed (files : NumberedFileStore ι) : Prop where
  key : ∀ entry ∈ files.sessions.elems, entry.1 < 2 ^ 32
  accepted : ∀ entry ∈ files.sessions.elems, entry.2.referencedObject.Accepted
  count : files.sessions.elems.length < 2 ^ 32

def HasIDs (files : NumberedFileStore ι) : Prop :=
  ∀ entry ∈ files.sessions.elems, entry.2.referencedObject.entryInfo.entryID ≠ ""

def loadedEntry (entry : Entry ι) : Entry Unit :=
  (entry.1, ObjectReferencer.new entry.2.referencedObject.stored)

def stored (files : NumberedFileStore ι) : NumberedFileStore Unit where
  sessions := ⟨files.sessions.elems.map loadedEntry, files.sessions.ascending.map _ fun _ _ h => h⟩
  lastSessionID := files.lastSessionID

section WellFormed

variable {files : NumberedFileStore ι} (h : files.WellFormed)
include h

theorem plain_serialize : files.serialize.Plain files.savedBytes := by
  have hHead := Written.all_of [serializeUInt files.lastSessionID,
    serializeUInt (.ofNat files.sessions.elems.length)]
  simp only [map_cons, map_nil, flatten_cons, flatten_nil, append_nil] at hHead
  rw [savedBytes, ← append_assoc, serialize, hHead]
  apply asUnsigned
  apply (of _).loop
  intro entry hIn
  exact (of _).andThen (SessionFile.plain_serialize (h.accepted entry hIn))

theorem serialLen_eq : files.serialLen = files.savedBytes.length % 2 ^ 32 := by
  unfold serialLen savedBytes
  rw [length_append, length_append, length_flatMap, length_serializeUInt,
    length_serializeUInt, ← add_assoc, Nat.add_mod 8, Nat.add_mod (4 + 4)]
  congr 2
  apply LocalFiles.sum_mod
  intro entry hIn
  rw [SessionFile.serialLen_eq (h.accepted entry hIn), entryBytes, length_append,
    length_serializeUInt]
  omega

section

variable {entry : Entry ι} (hIn : entry ∈ files.sessions.elems)
include hIn

theorem reads_file (hID : entry.2.referencedObject.entryInfo.entryID ≠ "")
    (hFits : (entryBytes entry).length < 2 ^ 32)
    (sessions : OrderedMap Nat (SessionFileReferencer Unit)) :
    Reads (readFile sessions) (entryBytes entry) (insert sessions (loadedEntry entry)) := by
  rw [entryBytes, length_append] at hFits
  apply (reads_uint _).bind
  apply (SessionFile.reads_savedBytes (h.accepted entry hIn) hID (by omega)).bind_of_nil
  apply (Reads.pure _).of_eq
  rw [UInt32.toNat_ofNat_of_lt' (h.key entry hIn)]
  rfl

theorem rejects_file (hID : entry.2.referencedObject.entryInfo.entryID = "")
    (hFits : (entryBytes entry).length < 2 ^ 32)
    (sessions : OrderedMap Nat (SessionFileReferencer Unit)) :
    Rejects (readFile sessions) (entryBytes entry) := by
  rw [entryBytes, length_append] at hFits
  apply (reads_uint _).bind_rejects
  apply Rejects.bind
  exact SessionFile.rejects_savedBytes (h.accepted entry hIn) hID (by omega)

end

theorem reads_savedBytes (hIDs : files.HasIDs) (hFits : files.savedBytes.length < 2 ^ 32) :
    Reads deserialize files.savedBytes files.stored := by
  have hElems : Reads (readFold readFile files.sessions.elems.length empty)
      (files.sessions.elems.flatMap entryBytes) (files.sessions.elems.foldl
        (fun sessions entry => insert sessions (loadedEntry entry))
        empty) := by
    apply reads_fold
    intro entry hIn sessions
    have hEntry := length_le_flatMap entryBytes hIn
    simp only [savedBytes, length_append] at hFits
    exact reads_file h hIn (hIDs entry hIn) (by omega) sessions
  have hSessions : files.sessions.elems.foldl
      (fun sessions entry => insert sessions (loadedEntry entry)) empty =
      files.stored.sessions := by
    rw [← foldl_map]
    exact foldl_insert_elems files.stored.sessions
  rw [hSessions] at hElems
  apply Reads.reportingLen _ hFits
  apply (reads_uint _).bind
  apply (reads_uint _).bind
  rw [UInt32.toNat_ofNat_of_lt' h.count]
  exact hElems.bind_of_nil (.pure _)

theorem rejects_savedBytes (hIDs : ¬ files.HasIDs) (hFits : files.savedBytes.length < 2 ^ 32) :
    Rejects deserialize files.savedBytes := by
  simp only [savedBytes, length_append] at hFits
  have hElems : Rejects (readFold readFile files.sessions.elems.length empty)
      (files.sessions.elems.flatMap entryBytes) := by
    apply rejects_fold (P := fun entry : Entry ι =>
      entry.2.referencedObject.entryInfo.entryID ≠ "") (f := fun sessions entry =>
        insert sessions (loadedEntry entry))
    · intro entry hIn hID sessions
      have hEntry := length_le_flatMap entryBytes hIn
      exact reads_file h hIn hID (by omega) sessions
    · intro entry hIn hID sessions
      have hEntry := length_le_flatMap entryBytes hIn
      exact rejects_file h hIn (not_not.mp hID) (by omega) sessions
    · unfold HasIDs at hIDs
      push Not at hIDs
      obtain ⟨entry, hIn, hID⟩ := hIDs
      exact ⟨entry, hIn, not_not.mpr hID⟩
  apply Rejects.reportingLen
  apply (reads_uint _).bind_rejects
  apply (reads_uint _).bind_rejects
  rw [UInt32.toNat_ofNat_of_lt' h.count]
  exact hElems.bind _

end WellFormed

end NumberedFileStore

/-! ## Sessions -/

namespace MetaSession

def savedBytes (session : MetaSession ι) : Encoding :=
  strBytes session.sessionID ++ session.files.savedBytes

structure WellFormed (session : MetaSession ι) : Prop where
  sessionID : AcceptedID session.sessionID
  files : session.files.WellFormed

def stored (session : MetaSession ι) : MetaSession Unit := ⟨session.sessionID, session.files.stored⟩

section WellFormed

variable {session : MetaSession ι} (h : session.WellFormed)
include h

theorem plain_serialize : session.serialize.Plain session.savedBytes := by
  have hLen := h.sessionID.length
  apply asUnsigned
  exact (plain_str (by omega)).andThen (NumberedFileStore.plain_serialize h.files)

theorem serialLen_eq : session.serialLen = session.savedBytes.length % 2 ^ 32 := by
  unfold serialLen savedBytes
  rw [length_append, length_strBytes, NumberedFileStore.serialLen_eq h.files, serialLenStr]
  omega

theorem reads_savedBytes (hIDs : session.files.HasIDs)
    (hFits : session.savedBytes.length < 2 ^ 32) :
    Reads deserialize session.savedBytes session.stored := by
  have hLen := h.sessionID.length
  have hFiles := hFits
  rw [savedBytes, length_append] at hFiles
  apply Reads.reportingLen _ hFits
  apply (reads_str (by omega)).bind
  apply (NumberedFileStore.reads_savedBytes h.files hIDs (by omega)).bind_of_nil
  exact .pure _

theorem rejects_savedBytes (hIDs : ¬ session.files.HasIDs)
    (hFits : session.savedBytes.length < 2 ^ 32) : Rejects deserialize session.savedBytes := by
  have hLen := h.sessionID.length
  rw [savedBytes, length_append] at hFits
  apply Rejects.reportingLen
  apply (reads_str (by omega)).bind_rejects
  exact (NumberedFileStore.rejects_savedBytes h.files hIDs (by omega)).bind _

end WellFormed

end MetaSession

namespace MetaSessionStore

abbrev Entry (ι : Type) := ByteString × ObjectReferencer (MetaSession ι)

def entryBytes (entry : Entry ι) : Encoding :=
  strBytes entry.1 ++ entry.2.referencedObject.savedBytes

def sessionsBytes (store : MetaSessionStore ι) : Encoding :=
  serializeUInt (.ofNat store.sessions.elems.length) ++ store.sessions.elems.flatMap entryBytes

def loadedEntry (entry : Entry ι) : Entry Unit :=
  (entry.1, ObjectReferencer.new entry.2.referencedObject.stored)

def stored (store : MetaSessionStore ι) : MetaSessionStore Unit where
  sessions := ⟨store.sessions.elems.map loadedEntry, store.sessions.ascending.map _ fun _ _ h => h⟩

theorem allFiles_stored (store : MetaSessionStore ι) :
    store.stored.allFiles =
      store.allFiles.map fun entry => (entry.1, entry.2.1, entry.2.2.stored) := by
  unfold allFiles stored
  rw [flatMap_map, map_flatMap]
  congr 1
  funext session
  show ((session.2.referencedObject.files.stored.sessions.elems).map _) = _
  unfold NumberedFileStore.stored
  rw [map_map, map_map]
  rfl

theorem foldl_addOrMerge {entries : List (Entry Unit)} {store : MetaSessionStore Unit}
    (hKeys : entries.Pairwise fun a b => a.1 ≠ b.1)
    (hNew : ∀ entry ∈ entries, store.sessions.find entry.1 = none)
    (hCount : ∀ entry ∈ entries, entry.2.refCount = 0) :
    (entries.foldl (fun store entry => store.addOrMerge entry.1 entry.2.referencedObject) store) =
      ⟨entries.foldl insert store.sessions⟩ := by
  induction entries generalizing store with
  | nil => rfl
  | cons entry entries ih =>
    obtain ⟨hHead, hRest⟩ := pairwise_cons.mp hKeys
    have hNone := hNew entry mem_cons_self
    have hObject : new entry.2.referencedObject = entry.2 := by
      have hZero := hCount entry mem_cons_self
      rw [new, ← hZero]
    have hAdded : store.addOrMerge entry.1 entry.2.referencedObject =
        ⟨insert store.sessions entry⟩ := by
      rw [addOrMerge, hNone, hObject]
      rw [put, remove_of_find hNone]
    rw [foldl_cons, foldl_cons, hAdded]
    apply ih hRest
    · intro other hOther
      show find (insert store.sessions (entry.1, entry.2)) other.1 = none
      rw [find_insert, if_neg (hHead other hOther).symm]
      exact hNew other (mem_cons_of_mem _ hOther)
    · intro other hOther
      exact hCount other (mem_cons_of_mem _ hOther)

theorem foldl_loaded (store : MetaSessionStore ι) :
    store.sessions.elems.foldl (fun loaded entry =>
      loaded.addOrMerge entry.1 entry.2.referencedObject.stored) empty = store.stored := by
  have hFold : store.stored.sessions.elems.foldl
      (fun loaded entry => loaded.addOrMerge entry.1 entry.2.referencedObject) empty =
      ⟨store.stored.sessions.elems.foldl OrderedSet.insert OrderedSet.empty⟩ := by
    apply foldl_addOrMerge
    · exact store.stored.sessions.ascending.imp fun hLt => hLt.ne
    · intro _ _
      rfl
    · intro entry hIn
      obtain ⟨entry, -, rfl⟩ := mem_map.mp hIn
      rfl
  rw [OrderedSet.foldl_insert_elems] at hFold
  apply Eq.trans _ hFold
  show _ = (store.sessions.elems.map loadedEntry).foldl _ _
  rw [foldl_map]
  rfl

def HasIDs (store : MetaSessionStore ι) : Prop :=
  ∀ entry ∈ store.sessions.elems, entry.2.referencedObject.files.HasIDs

/-- Session IDs came in messages. The number of sessions fits the counter of the loops. -/
structure SessionsWellFormed (store : MetaSessionStore ι) : Prop where
  key : ∀ entry ∈ store.sessions.elems, AcceptedID entry.1
  session : ∀ entry ∈ store.sessions.elems, entry.2.referencedObject.WellFormed
  count : store.sessions.elems.length < 2 ^ 32

section SessionsWellFormed

variable {store : MetaSessionStore ι} (h : store.SessionsWellFormed)
include h

theorem loopElems_eq : loopElems store.sessions = store.sessions.elems := by
  unfold loopElems
  rw [Nat.mod_eq_of_lt h.count, take_length]

theorem plain_serializeSessions : store.serializeSessions.Plain store.sessionsBytes := by
  unfold serializeSessions
  rw [loopElems_eq h]
  apply (of _).loop
  intro entry hIn
  have hLen := (h.key entry hIn).length
  exact (plain_str (by omega)).andThen (MetaSession.plain_serialize (h.session entry hIn))

section

variable {entry : Entry ι} (hIn : entry ∈ store.sessions.elems)
include hIn

theorem reads_session
    (hIDs : entry.2.referencedObject.files.HasIDs) (hFits : (entryBytes entry).length < 2 ^ 32)
    (loaded : MetaSessionStore Unit) :
    Reads (readSession loaded) (entryBytes entry)
      (loaded.addOrMerge entry.1 entry.2.referencedObject.stored) := by
  have hKey := h.key entry hIn
  have hLen := hKey.length
  rw [entryBytes, length_append] at hFits
  apply (reads_str (by omega)).bind
  apply (MetaSession.reads_savedBytes (h.session entry hIn) hIDs (by omega)).bind_of_nil
  apply (Reads.pure _).of_eq
  rw [cString_eq hKey.noZero]

theorem rejects_session
    (hIDs : ¬ entry.2.referencedObject.files.HasIDs) (hFits : (entryBytes entry).length < 2 ^ 32)
    (loaded : MetaSessionStore Unit) : Rejects (readSession loaded) (entryBytes entry) := by
  have hLen := (h.key entry hIn).length
  rw [entryBytes, length_append] at hFits
  apply (reads_str (by omega)).bind_rejects
  exact (MetaSession.rejects_savedBytes (h.session entry hIn) hIDs (by omega)).bind _

end

theorem reads_sessionsBytes (hIDs : store.HasIDs) (hFits : store.sessionsBytes.length < 2 ^ 32) :
    Reads deserialize store.sessionsBytes store.stored := by
  have hElems : Reads (readFold readSession store.sessions.elems.length empty)
      (store.sessions.elems.flatMap entryBytes) (store.sessions.elems.foldl (fun loaded entry =>
        loaded.addOrMerge entry.1 entry.2.referencedObject.stored) empty) := by
    apply reads_fold
    intro entry hIn loaded
    have hEntry := length_le_flatMap entryBytes hIn
    rw [sessionsBytes, length_append] at hFits
    exact reads_session h hIn (hIDs entry hIn) (by omega) loaded
  rw [foldl_loaded] at hElems
  apply Reads.reportingLen _ hFits
  apply (reads_uint _).bind
  rwa [UInt32.toNat_ofNat_of_lt' h.count]

theorem rejects_sessionsBytes (hIDs : ¬ store.HasIDs)
    (hFits : store.sessionsBytes.length < 2 ^ 32) : Rejects deserialize store.sessionsBytes := by
  rw [sessionsBytes, length_append] at hFits
  apply Rejects.reportingLen
  apply (reads_uint _).bind_rejects
  rw [UInt32.toNat_ofNat_of_lt' h.count]
  apply rejects_fold (P := fun entry : Entry ι => entry.2.referencedObject.files.HasIDs)
    (f := fun loaded entry => loaded.addOrMerge entry.1 entry.2.referencedObject.stored)
  · intro entry hIn hID loaded
    have hEntry := length_le_flatMap entryBytes hIn
    exact reads_session h hIn hID (by omega) loaded
  · intro entry hIn hID loaded
    have hEntry := length_le_flatMap entryBytes hIn
    exact rejects_session h hIn hID (by omega) loaded
  · unfold HasIDs at hIDs
    push Not at hIDs
    exact hIDs

end SessionsWellFormed

end MetaSessionStore

end Fhgfs.Session
