import Fhgfs.Session.SavedSessions

/-!
# Restored sessions

A chunk file of a session comes back exactly if its key can be parsed to a target whose file is
loaded, and its mirror node is known then (`restored_iff`). Besides, the lengths that are
announced are the written ones exactly if they fit 32 bits.
-/

namespace Fhgfs.Session

open OrderedMap ObjectReferencer List Option SessionLocalFile LocalFiles ClientSession
open OrderedSet SessionStore
open Wire Serialization

/-! ## Lookups after a load -/

section InsertNew

variable {υ : Type}

theorem find_insertNew (m : OrderedMap ByteString υ) (key k : ByteString) (value : υ) :
    (insertNew m key value).find k = (m.find k).or (if k = key then some value else none) := by
  unfold insertNew
  cases hFind : m.find key with
  | some old =>
    by_cases hk : k = key
    · simp [hk, hFind]
    · simp [hk]
  | none =>
    by_cases hk : k = key
    · simp [hk, hFind]
    · simp [hk, find_put_of_ne _ _ hk]

theorem find_foldl_insertNew {ρ : Type} (g : ρ → υ) (entries : List (ByteString × ρ))
    (m : OrderedMap ByteString υ) (k : ByteString) :
    (entries.foldl (fun m entry => insertNew m entry.1 (g entry.2)) m).find k =
      (m.find k).or ((OrderedMap.lookup entries k).map g) := by
  induction entries generalizing m with
  | nil => simp [OrderedMap.lookup]
  | cons entry entries ih =>
    rw [List.foldl_cons, ih, find_insertNew, Option.or_assoc, OrderedMap.lookup_cons]
    by_cases hk : k = entry.1
    · subst hk
      simp
    · simp [hk, Ne.symm hk]

end InsertNew

theorem find_merge (files files' : LocalFiles) (k : ByteString) :
    (files.mergeSessionLocalFiles files').find k = (files.find k).or (files'.find k) := by
  have h := find_foldl_insertNew id files'.elems files k
  rwa [Option.map_id, id, ← OrderedMap.find_eq_lookup] at h

theorem find_loaded {session : ClientSession} (h : session.WellFormed) (targetID : UInt16)
    (k : ByteString) : ((session.loaded targetID).localFiles.find k).map
        ObjectReferencer.referencedObject =
      if getTargetIDFromKey k = targetID then
        (session.localFiles.find k).map fun r => r.referencedObject.stored
      else none := by
  have hFold := find_foldl_insertNew
    (fun r : ObjectReferencer SessionLocalFile => ObjectReferencer.new r.referencedObject.stored)
    (session.localFiles.entriesOf targetID) OrderedSet.empty k
  have hFilter := OrderedMap.lookup_filter
    (fun key => decide (getTargetIDFromKey key = targetID)) session.localFiles.elems k
  simp only [decide_eq_true_eq] at hFilter
  have hEntries : session.localFiles.entriesOf targetID = session.localFiles.elems.filter
      fun entry => decide (getTargetIDFromKey entry.1 = targetID) := by
    unfold LocalFiles.entriesOf loopElems
    rw [Nat.mod_eq_of_lt h.localFiles.count, take_length]
  rw [OrderedMap.find_empty, none_or, hEntries, hFilter] at hFold
  unfold ClientSession.loaded LocalFiles.loadEntries
  simp only
  rw [hEntries, hFold, ← OrderedMap.find_eq_lookup]
  split
  · rw [Option.map_map]
    rfl
  · rfl

namespace SessionStore

theorem file_addOrMerge (store : SessionStore) (key : ByteString) (session : ClientSession)
    (sessionID k : ByteString) : (store.addOrMerge key session).file sessionID k =
      (store.file sessionID k).or (if sessionID = key then
        (session.localFiles.find k).map ObjectReferencer.referencedObject else none) := by
  unfold addOrMerge file
  cases hFind : store.sessions.find key with
  | none =>
    by_cases hSame : sessionID = key
    · simp [hSame, hFind, ObjectReferencer.new]
    · simp [hSame, OrderedMap.find_put_of_ne _ _ hSame]
  | some r =>
    by_cases hSame : sessionID = key
    · subst hSame
      simp only [OrderedMap.find_put_self, bind_some, hFind, find_merge, if_true]
      cases r.referencedObject.localFiles.find k <;> simp
    · simp [hSame, OrderedMap.find_put_of_ne _ _ hSame]

def loadTarget (targetID : UInt16) (entries : List (ByteString × ObjectReferencer ClientSession))
    (store : SessionStore) : SessionStore :=
  entries.foldl (fun store entry =>
    store.addOrMerge entry.1 (entry.2.referencedObject.loaded targetID)) store

theorem file_loadTarget {entries : List (ByteString × ObjectReferencer ClientSession)}
    (hKeys : (entries.map Prod.fst).Nodup)
    (h : ∀ entry ∈ entries, entry.2.referencedObject.WellFormed) (targetID : UInt16)
    (store : SessionStore) (sessionID k : ByteString) :
    (loadTarget targetID entries store).file sessionID k =
      (store.file sessionID k).or (if getTargetIDFromKey k = targetID then
        (OrderedMap.lookup entries sessionID).bind fun sessionRefer =>
          (sessionRefer.referencedObject.localFiles.find k).map fun r => r.referencedObject.stored
        else none) := by
  induction entries generalizing store with
  | nil => simp [loadTarget, OrderedMap.lookup]
  | cons entry entries ih =>
    rw [map_cons, nodup_cons] at hKeys
    have hRest := ih hKeys.2 (fun e he => h e (mem_cons_of_mem _ he))
      (store.addOrMerge entry.1 (entry.2.referencedObject.loaded targetID))
    rw [loadTarget, foldl_cons, ← loadTarget, hRest, file_addOrMerge,
      find_loaded (h entry List.mem_cons_self), Option.or_assoc, OrderedMap.lookup_cons]
    by_cases hSame : sessionID = entry.1
    · have hNone : OrderedMap.lookup entries sessionID = none := by
        apply OrderedMap.lookup_eq_none
        intro e he hKey
        rw [hSame] at hKey
        exact hKeys.1 (hKey ▸ mem_map_of_mem he)
      rw [hNone]
      simp [hSame]
    · simp [hSame, Ne.symm hSame]

theorem file_loadTarget_self {store : SessionStore} (h : store.WellFormed) (targetID : UInt16)
    (acc : SessionStore) (sessionID k : ByteString) :
    (loadTarget targetID store.sessions.elems acc).file sessionID k =
      (acc.file sessionID k).or (if getTargetIDFromKey k = targetID then
        (store.file sessionID k).map SessionLocalFile.stored else none) := by
  rw [file_loadTarget store.sessions.nodup_keys h.session, ← OrderedMap.find_eq_lookup]
  congr 2
  unfold file
  cases store.sessions.find sessionID with
  | none => rfl
  | some sessionRefer =>
    rw [Option.bind_some, Option.bind_some, Option.map_map]
    rfl

/-! ## Reading the files -/

theorem deserializeSessions_eq {known : UInt16 → Bool} {targetID : UInt16}
    {entries : List (ByteString × ObjectReferencer ClientSession)}
    (hID : ∀ entry ∈ entries, AcceptedID entry.1)
    (h : ∀ entry ∈ entries, entry.2.referencedObject.WellFormed)
    (hKnown : ∀ entry ∈ entries, ∀ e ∈ entry.2.referencedObject.localFiles.entriesOf targetID,
      e.2.referencedObject.MirrorNodeKnown known)
    {mem : List UInt8} {bufLen : Nat} (hFills : Fills (entries.flatMap (entryBytes targetID)) mem)
    (hLen : mem.length ≤ bufLen) (store : SessionStore) :
    deserializeSessions known targetID entries.length store ⟨mem, bufLen⟩ =
      (true, loadTarget targetID entries store) := by
  induction entries generalizing mem bufLen store with
  | nil => rfl
  | cons entry entries ih =>
    rw [flatMap_cons] at hFills
    obtain ⟨front, rest, rfl, hFront, hRest⟩ := fills_append hFills
    rw [entryBytes] at hFront
    obtain ⟨key, session, rfl, hKey, hSession⟩ := fills_append hFront
    have hIDLen := (hID entry mem_cons_self).length
    rw [length_append, length_append] at hLen
    have hReadKey := reads_str (by omega) key (session ++ rest) bufLen hKey (by omega)
    have hReadSession := reads_serializeForTarget (h entry mem_cons_self)
      (hKnown entry mem_cons_self) session rest (bufLen - key.length) hSession (by omega)
    have hMore := ih (fun e he => hID e (mem_cons_of_mem _ he))
      (fun e he => h e (mem_cons_of_mem _ he))
      (fun e he => hKnown e (mem_cons_of_mem _ he)) hRest
      (by omega : rest.length ≤ bufLen - key.length - session.length)
      (store.addOrMerge entry.1 (entry.2.referencedObject.loaded targetID))
    rw [length_cons, deserializeSessions, append_assoc, hReadKey]
    simp only
    rw [hReadSession]
    simp only
    rw [cString_eq (hID entry mem_cons_self).noZero, hMore]
    rfl

section

variable {store : SessionStore} (h : store.WellFormed) {known : UInt16 → Bool}
include h

theorem deserializeForTarget_saveToFile {targetID : UInt16}
    (hKnown : ∀ entry ∈ store.sessions.elems,
      ∀ e ∈ entry.2.referencedObject.localFiles.entriesOf targetID,
        e.2.referencedObject.MirrorNodeKnown known)
    (hFits : (store.savedBytes targetID).length < 2 ^ 32) (holes : Nat → UInt8)
    (acc : SessionStore) :
    acc.deserializeForTarget known targetID (store.saveToFile holes targetID) =
      (true, loadTarget targetID store.sessions.elems acc) := by
  obtain ⟨hBytes, hUsed⟩ := (plain_serializeForTarget h targetID).fits hFits
  have hSaved : Fills (store.savedBytes targetID) (store.saveToFile holes targetID) := by
    unfold saveToFile
    simp only [hBytes, hUsed, take_length]
    exact fills_fill holes _
  generalize store.saveToFile holes targetID = mem at hSaved
  obtain ⟨count, sessions, rfl, hCountFills, hSessions⟩ := fills_append hSaved
  have hReadCount := reads_uint _ count sessions (count ++ sessions).length hCountFills
    (by rw [length_append]; omega)
  have hCount : (UInt32.ofNat store.sessions.elems.length).toNat = store.sessions.elems.length := by
    rw [UInt32.toNat_ofNat']
    exact Nat.mod_eq_of_lt h.count
  unfold deserializeForTarget
  rw [hReadCount]
  simp only
  rw [hCount]
  exact deserializeSessions_eq (fun entry hIn => acceptedID_key h hIn) h.session hKnown hSessions
    (by rw [length_append]; omega) acc

theorem file_restoreSessions {targetIDs : List UInt16}
    (hKnown : ∀ targetID ∈ targetIDs, ∀ entry ∈ store.sessions.elems,
      ∀ e ∈ entry.2.referencedObject.localFiles.entriesOf targetID,
        e.2.referencedObject.MirrorNodeKnown known)
    (hFits : ∀ targetID ∈ targetIDs, (store.savedBytes targetID).length < 2 ^ 32)
    (holes : Nat → UInt8) (acc : SessionStore) (sessionID k : ByteString) :
    (restoreSessions known (store.saveToFile holes) targetIDs acc).file sessionID k =
      (acc.file sessionID k).or (if getTargetIDFromKey k ∈ targetIDs then
        (store.file sessionID k).map SessionLocalFile.stored else none) := by
  induction targetIDs generalizing acc with
  | nil => simp [restoreSessions]
  | cons targetID targetIDs ih =>
    have hTarget := deserializeForTarget_saveToFile h (hKnown targetID mem_cons_self)
      (hFits targetID mem_cons_self) holes acc
    have hRest := ih (fun t ht => hKnown t (mem_cons_of_mem _ ht))
      (fun t ht => hFits t (mem_cons_of_mem _ ht))
      (loadTarget targetID store.sessions.elems acc)
    rw [restoreSessions, foldl_cons, hTarget, ← restoreSessions, hRest,
      file_loadTarget_self h, Option.or_assoc]
    congr 1
    by_cases hHere : getTargetIDFromKey k = targetID
    · simp only [hHere, if_true, mem_cons, true_or]
      split <;> simp
    · simp [hHere]

end

/-! ## What a load can bring -/

/-- The files have keys of the targets, and mirror nodes that are known. -/
def Loaded (known : UInt16 → Bool) (targetIDs : List UInt16) (store : SessionStore) : Prop :=
  ∀ sessionID key file, store.file sessionID key = some file →
    getTargetIDFromKey key ∈ targetIDs ∧ file.MirrorNodeKnown known

end SessionStore

section Inversion

variable {known : UInt16 → Bool} {targetID : UInt16}

variable {c c' : Wire.Cursor}

theorem known_of_deserialize {file : SessionLocalFile}
    (h : deserialize known c = .ok (file, c')) : file.MirrorNodeKnown known := by
  iterate 8 obtain ⟨_, _, -, h⟩ := bind_eq_ok h
  obtain ⟨mirrorNode, _, hNode, h⟩ := bind_eq_ok h
  iterate 3 obtain ⟨_, _, -, h⟩ := bind_eq_ok h
  cases h
  obtain ⟨mirrorNodeID, _, -, hNode⟩ := bind_eq_ok hNode
  split at hNode
  · cases hNode
    exact nofun
  rename_i hNonzero
  obtain ⟨_, _, hEnsure, hPure⟩ := bind_eq_ok hNode
  cases hPure
  rintro _ ⟨⟩
  exact ⟨hNonzero, ensure_eq_ok hEnsure⟩

def LoadedFiles (known : UInt16 → Bool) (targetID : UInt16) (files : LocalFiles) : Prop :=
  ∀ key r, files.find key = some r →
    getTargetIDFromKey key = targetID ∧ r.referencedObject.MirrorNodeKnown known

theorem loadedFiles_of_deserializeElems {n : Nat} {files files' : LocalFiles}
    (hFiles : LoadedFiles known targetID files)
    (h : deserializeElems known targetID n files c = .ok (files', c')) :
    LoadedFiles known targetID files' := by
  induction n generalizing files c with
  | zero =>
    cases h
    exact hFiles
  | succ n ih =>
    obtain ⟨key, _, -, h⟩ := bind_eq_ok h
    obtain ⟨file, _, hFile, h⟩ := bind_eq_ok h
    obtain ⟨_, _, hEnsure, h⟩ := bind_eq_ok h
    have hTarget := of_decide_eq_true (ensure_eq_ok hEnsure)
    refine ih ?_ h
    intro k r hFind
    rw [find_insertNew, or_eq_some_iff] at hFind
    rcases hFind with hOld | ⟨-, hNew⟩
    · exact hFiles k r hOld
    split at hNew
    · rename_i hk
      cases hNew
      exact ⟨hk ▸ hTarget, known_of_deserialize hFile⟩
    · cases hNew

theorem loadedFiles_of_deserialize {session : ClientSession}
    (h : ClientSession.deserializeForTarget known targetID c = .ok (session, c')) :
    LoadedFiles known targetID session.localFiles := by
  obtain ⟨_, _, -, h⟩ := bind_eq_ok h
  obtain ⟨files, _, hFiles, h⟩ := bind_eq_ok h
  cases h
  obtain ⟨_, _, -, hElems⟩ := bind_eq_ok hFiles
  have hEmpty : LoadedFiles known targetID OrderedSet.empty := by
    intro key r hFind
    rw [OrderedMap.find_empty] at hFind
    cases hFind
  exact loadedFiles_of_deserializeElems hEmpty hElems

namespace SessionStore

theorem Loaded.deserializeSessions {targetIDs : List UInt16} (hTarget : targetID ∈ targetIDs)
    (n : Nat) {store : SessionStore} (c : Wire.Cursor) (h : Loaded known targetIDs store) :
    Loaded known targetIDs (deserializeSessions known targetID n store c).2 := by
  induction n generalizing store c with
  | zero => exact h
  | succ n ih =>
    unfold SessionStore.deserializeSessions
    split
    · exact h
    split
    · exact h
    rename_i hSession
    apply ih
    intro sessionID k file hFile
    rw [file_addOrMerge, or_eq_some_iff] at hFile
    rcases hFile with hOld | ⟨-, hNew⟩
    · exact h sessionID k file hOld
    split at hNew
    · obtain ⟨r, hFind, rfl⟩ := map_eq_some_iff.mp hNew
      obtain ⟨hKey, hKnown⟩ := loadedFiles_of_deserialize hSession k r hFind
      exact ⟨hKey ▸ hTarget, hKnown⟩
    · cases hNew

theorem Loaded.restoreSessions {targetIDs targetIDs' : List UInt16} (hSub : targetIDs' ⊆ targetIDs)
    (saved : UInt16 → List UInt8) {store : SessionStore} (h : Loaded known targetIDs store) :
    Loaded known targetIDs (SessionStore.restoreSessions known saved targetIDs' store) := by
  induction targetIDs' generalizing store with
  | nil => exact h
  | cons targetID rest ih =>
    rw [cons_subset] at hSub
    rw [SessionStore.restoreSessions, foldl_cons]
    apply ih hSub.2
    unfold deserializeForTarget
    split
    · exact h
    · exact h.deserializeSessions hSub.1 _ _

end SessionStore

end Inversion

/-! ## Saving and loading -/

namespace SessionStore

/-- Every call of a serializer writes as many bytes as it announces. -/
def AnnouncesLengths (store : SessionStore) (targetID : UInt16) : Prop :=
  (store.serializeForTarget targetID).bytes.length = store.serialLenForTarget targetID ∧
    ∀ entry ∈ store.sessions.elems,
      (entry.2.referencedObject.serializeForTarget targetID).bytes.length =
          entry.2.referencedObject.serialLenForTarget targetID ∧
        (entry.2.referencedObject.localFiles.serializeForTarget targetID).bytes.length =
          entry.2.referencedObject.localFiles.serialLenForTarget targetID ∧
        ∀ e ∈ entry.2.referencedObject.localFiles.entriesOf targetID,
          e.2.referencedObject.serialize.bytes.length = e.2.referencedObject.serialLen

/-- The handle of every file has one piece between its `@` characters, the target of the file is
one of those that are saved, its mirror node is known, and the bytes of each target fit. -/
structure Restorable (store : SessionStore) (known : UInt16 → Bool) (targetIDs : List UInt16) :
    Prop where
  piece : ∀ sessionID key file, store.file sessionID key = some file →
    (ByteString.explode (handlePart file.fileHandleID file.isMirrorSession) 0x40).length = 1
  target : ∀ sessionID key file, store.file sessionID key = some file → file.targetID ∈ targetIDs
  known : ∀ sessionID key file, store.file sessionID key = some file → file.MirrorNodeKnown known
  fits : ∀ targetID ∈ targetIDs, (store.savedBytes targetID).length < 2 ^ 32

variable {store : SessionStore}

theorem mapKey_of_file (h : store.WellFormed) {sessionID key : ByteString}
    {file : SessionLocalFile} (hFile : store.file sessionID key = some file) :
    file.mapKey = key := by
  obtain ⟨session, hSession, hFind⟩ := bind_eq_some_iff.mp hFile
  obtain ⟨r, hKey, rfl⟩ := map_eq_some_iff.mp hFind
  have hWell := h.session _ (find_eq_some.mp hSession)
  exact hWell.localFiles.key _ (find_eq_some.mp hKey)

theorem file_of_entries (h : store.WellFormed) {targetID : UInt16}
    {entry : ByteString × ObjectReferencer ClientSession} (hEntry : entry ∈ store.sessions.elems)
    {e : ByteString × ObjectReferencer SessionLocalFile}
    (he : e ∈ entry.2.referencedObject.localFiles.entriesOf targetID) :
    store.file entry.1 e.1 = some e.2.referencedObject := by
  have hIn := ((mem_entriesOf (h.session entry hEntry).localFiles).mp he).1
  unfold file
  rw [find_eq_some.mpr (show (entry.1, entry.2) ∈ store.sessions from hEntry),
    bind_some, find_eq_some.mpr (show (e.1, e.2) ∈ _ from hIn)]
  rfl

theorem announcesLengths_of_fits (h : store.WellFormed) {targetID : UInt16}
    (hFits : (store.savedBytes targetID).length < 2 ^ 32) : store.AnnouncesLengths targetID := by
  refine ⟨(serialLen_eq_written_iff h targetID).mpr hFits, fun entry hEntry => ?_⟩
  have hWell := h.session entry hEntry
  have hSession : (entryBytes targetID entry).length ≤ (store.savedBytes targetID).length := by
    unfold savedBytes
    have hLe := (sublist_flatten_of_mem
      (mem_map.mpr ⟨entry, hEntry, rfl⟩ :
        entryBytes targetID entry ∈ store.sessions.elems.map (entryBytes targetID))).length_le
    rw [length_append, flatMap_def]
    omega
  rw [entryBytes, length_append, ClientSession.savedBytes, length_append] at hSession
  have hFiles : (entry.2.referencedObject.localFiles.savedBytes targetID).length < 2 ^ 32 := by
    omega
  refine ⟨?_, ?_, fun e he => ?_⟩
  · rw [ClientSession.serialLenForTarget_eq]
    apply (ClientSession.plain_serializeForTarget hWell targetID).length_eq_iff.mpr
    rw [ClientSession.savedBytes, length_append]
    omega
  · rw [LocalFiles.serialLenForTarget_eq]
    exact (LocalFiles.plain_serializeForTarget hWell.localFiles targetID).length_eq_iff.mpr hFiles
  · have hIn := ((LocalFiles.mem_entriesOf hWell.localFiles).mp he).1
    rw [SessionLocalFile.serialLen_eq]
    apply (SessionLocalFile.plain_serialize (hWell.localFiles.accepted e hIn)).length_eq_iff.mpr
    have hLe := (sublist_flatten_of_mem
      (mem_map.mpr ⟨e, he, rfl⟩ : LocalFiles.entryBytes e ∈
        (entry.2.referencedObject.localFiles.entriesOf targetID).map
          LocalFiles.entryBytes)).length_le
    rw [LocalFiles.savedBytes, length_append, flatMap_def] at hFiles
    rw [LocalFiles.entryBytes, length_append] at hLe
    omega

/-- The saved sessions come back, and every length is announced, exactly if the store is
restorable. The targets may be loaded in any order. -/
theorem restored_iff (h : store.WellFormed) (known : UInt16 → Bool) {targetIDs : List UInt16}
    (hTargets : (0 : UInt16) ∉ targetIDs) (holes : Nat → UInt8) :
    ((∀ targetID ∈ targetIDs, store.AnnouncesLengths targetID) ∧
      ∀ sessionID key,
        (restoreSessions known (store.saveToFile holes) targetIDs empty).file sessionID key =
          (store.file sessionID key).map SessionLocalFile.stored) ↔
      store.Restorable known targetIDs := by
  constructor
  · rintro ⟨hLengths, hRestored⟩
    have hLoaded : Loaded known targetIDs empty := nofun
    have hAll := hLoaded.restoreSessions (List.Subset.refl _) (store.saveToFile holes)
    have hBack : ∀ sessionID key file, store.file sessionID key = some file →
        getTargetIDFromKey key ∈ targetIDs ∧ file.MirrorNodeKnown known := by
      intro sessionID key file hFile
      have hSame := hRestored sessionID key
      rw [hFile] at hSame
      exact hAll sessionID key file.stored hSame
    have hTarget : ∀ sessionID key file, store.file sessionID key = some file →
        (ByteString.explode (handlePart file.fileHandleID file.isMirrorSession) 0x40).length = 1 ∧
          file.targetID ∈ targetIDs := by
      intro sessionID key file hFile
      have hIn := (hBack sessionID key file hFile).1
      rw [← mapKey_of_file h hFile, mapKey, getTargetIDFromKey_generateMapKey] at hIn
      split at hIn
      · rename_i hPiece
        exact ⟨hPiece, hIn⟩
      · exact absurd hIn hTargets
    exact ⟨fun sid k f hf => (hTarget sid k f hf).1, fun sid k f hf => (hTarget sid k f hf).2,
      fun sid k f hf => (hBack sid k f hf).2,
      fun t ht => (serialLen_eq_written_iff h t).mp (hLengths t ht).1⟩
  · intro hRestorable
    refine ⟨fun t ht => announcesLengths_of_fits h (hRestorable.fits t ht), fun sid k => ?_⟩
    rw [file_restoreSessions h
      (fun t _ entry hEntry e he => hRestorable.known _ _ _ (file_of_entries h hEntry he))
      hRestorable.fits]
    show (none : Option SessionLocalFile).or _ = _
    rw [none_or]
    cases hFile : store.file sid k with
    | none => simp
    | some file =>
      rw [if_pos]
      rw [← mapKey_of_file h hFile, mapKey, getTargetIDFromKey_generateMapKey,
        if_pos (hRestorable.piece sid k file hFile)]
      exact hRestorable.target sid k file hFile

/-! ## A single chunk file -/

def single (sessionID : ByteString) (file : SessionLocalFile) : SessionStore :=
  empty.addOrMerge sessionID ⟨sessionID,
    insertNew OrderedSet.empty file.mapKey (ObjectReferencer.new file)⟩

section Single

variable {sessionID : ByteString} {file : SessionLocalFile}

theorem elems_single : (single sessionID file).sessions.elems = [(sessionID, ObjectReferencer.new
    ⟨sessionID, insertNew OrderedSet.empty file.mapKey (ObjectReferencer.new file)⟩)] := rfl

theorem elems_localFiles_single :
    (insertNew OrderedSet.empty file.mapKey (ObjectReferencer.new file)).elems =
      [(file.mapKey, ObjectReferencer.new file)] := rfl

theorem wellFormed_single (hID : AcceptedID sessionID) (hFile : file.Accepted) :
    (single sessionID file).WellFormed := by
  have hFiles : LocalFiles.WellFormed
      (insertNew OrderedSet.empty file.mapKey (ObjectReferencer.new file)) := by
    refine ⟨?_, ?_, ?_⟩ <;> rw [elems_localFiles_single]
    · simp [ObjectReferencer.new]
    · simpa [ObjectReferencer.new] using hFile
    · simp
  refine ⟨?_, ?_, ?_⟩ <;> rw [elems_single]
  · simp [ObjectReferencer.new]
  · intro entry hIn
    rw [mem_singleton.mp hIn]
    exact ⟨hID, hFiles⟩
  · simp

theorem file_single : (single sessionID file).file sessionID file.mapKey = some file := by
  have hSession : (sessionID, ObjectReferencer.new
      (⟨sessionID, insertNew OrderedSet.empty file.mapKey (ObjectReferencer.new file)⟩ :
        ClientSession)) ∈ (single sessionID file).sessions := mem_singleton_self _
  have hFile : (file.mapKey, ObjectReferencer.new file) ∈
      insertNew OrderedSet.empty file.mapKey (ObjectReferencer.new file) :=
    mem_singleton_self _
  unfold SessionStore.file
  rw [OrderedMap.find_eq_some.mpr hSession, bind_some]
  exact congrArg (Option.map _) (OrderedMap.find_eq_some.mpr hFile)

theorem eq_of_file_single {sid k : ByteString} {f : SessionLocalFile}
    (hFile : (single sessionID file).file sid k = some f) : f = file := by
  obtain ⟨session, hSession, hFind⟩ := bind_eq_some_iff.mp hFile
  obtain ⟨r, hKey, rfl⟩ := map_eq_some_iff.mp hFind
  cases mem_singleton.mp (find_eq_some.mp hSession)
  cases mem_singleton.mp (find_eq_some.mp hKey)
  rfl

end Single

/-- The file of the handle `1#2` on target 1 comes back. -/
theorem restored_single :
    let store := single [0x63] (.new [0x31, 0x23, 0x32] 1 [0x32] 0 false false)
    (∀ targetID ∈ [1], store.AnnouncesLengths targetID) ∧
      ∀ sessionID key,
        (restoreSessions (fun _ => true) (store.saveToFile fun _ => 0) [1] empty).file
            sessionID key =
          (store.file sessionID key).map stored := by
  intro store
  have hWell : store.WellFormed :=
    wellFormed_single ⟨by decide, by decide⟩ ⟨⟨by decide, by decide⟩, ⟨by decide, by decide⟩⟩
  apply (restored_iff hWell (fun _ => true) (by decide) fun _ => 0).mpr
  refine ⟨?_, ?_, ?_, ?_⟩
  · intro sid k f hFile
    rw [eq_of_file_single hFile]
    decide
  · intro sid k f hFile
    rw [eq_of_file_single hFile]
    decide
  · intro sid k f hFile
    rw [eq_of_file_single hFile]
    exact nofun
  · rw [forall_mem_singleton]
    decide

/-- The file of the handle `1@2` is lost: its key has three pieces. -/
theorem not_restored_atSign :
    ∃ (store : SessionStore) (targetIDs : List UInt16), store.WellFormed ∧
      (0 : UInt16) ∉ targetIDs ∧
      (∀ sessionID key file, store.file sessionID key = some file →
        file.targetID ∈ targetIDs ∧ file.MirrorNodeKnown fun _ => true) ∧
      (∀ targetID ∈ targetIDs, (store.savedBytes targetID).length < 2 ^ 32) ∧
      ∃ sessionID key file, store.file sessionID key = some file ∧
        (restoreSessions (fun _ => true) (store.saveToFile fun _ => 0) targetIDs empty).file
          sessionID key = none := by
  let file : SessionLocalFile := .new [0x31, 0x40, 0x32] 1 [0x32] 0 false false
  have hWell : (single [0x63] file).WellFormed :=
    wellFormed_single ⟨by decide, by decide⟩ ⟨⟨by decide, by decide⟩, ⟨by decide, by decide⟩⟩
  have hKnown : ∀ sid k f, (single [0x63] file).file sid k = some f →
      f.targetID ∈ [1] ∧ f.MirrorNodeKnown fun _ => true := by
    intro sid k f hFile
    rw [eq_of_file_single hFile]
    exact ⟨by decide, nofun⟩
  have hFits : ∀ targetID ∈ [1], ((single [0x63] file).savedBytes targetID).length < 2 ^ 32 := by
    rw [forall_mem_singleton]
    decide
  refine ⟨single [0x63] file, [1], hWell, by decide, hKnown, hFits, [0x63], file.mapKey, file,
    file_single, ?_⟩
  rw [file_restoreSessions hWell
    (fun t _ entry hEntry e he => (hKnown _ _ _ (file_of_entries hWell hEntry he)).2) hFits]
  show (none : Option SessionLocalFile).or _ = _
  rw [none_or]
  apply if_neg
  decide

end SessionStore

end Fhgfs.Session
