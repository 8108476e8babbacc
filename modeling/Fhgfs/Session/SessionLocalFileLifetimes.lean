import Fhgfs.Session.SessionLocalFileStore

/-!
# Lifetimes of chunk file sessions

A run of the store is sound in every state exactly if all its steps are `Careful`
(`sound_iff_careful`). `removeAllMirrorSessions` deletes a session that nobody references without
a look at its descriptor and its mirror node, so a step that meets an open one leaks both.
`removeAllSessions` hands out referenced sessions as well, and its caller deletes them.
-/

namespace Fhgfs.Session

open List SessionObject SessionLocalFileStore OrderedMap ChunkSessions ObjectReferencer

/-! ## Ledgers -/

/-- The ledger has the duties of the destroyed sessions, each once, and nothing else. -/
structure Settled {ε : Type} (duties : SessionObject → List (Nat × ε))
    (destroyed : List SessionObject) (events : List (Nat × ε)) : Prop where
  done : ∀ session ∈ destroyed,
    events.filter (fun e => decide (e.1 = session.addr)) = duties session
  untouched : ∀ addr, addr ∉ destroyed.map SessionObject.addr →
    events.filter (fun e => decide (e.1 = addr)) = []

namespace Settled

variable {ε : Type} {duties : SessionObject → List (Nat × ε)} {destroyed : List SessionObject}
  {events : List (Nat × ε)}

section

variable (h : Settled duties destroyed events)
  (hOwn : ∀ session, ∀ e ∈ duties session, e.1 = session.addr)
include h hOwn

theorem append {session : SessionObject} (hNew : session.addr ∉ destroyed.map addr) :
    Settled duties (destroyed ++ [session]) (events ++ duties session) where
  done := by
    intro other hOther
    rw [filter_append]
    rcases mem_append.mp hOther with hOld | hLast
    · have hNe : session.addr ≠ other.addr := fun hSame => hNew (hSame ▸ mem_map_of_mem hOld)
      rw [h.done other hOld, filter_eq_nil_iff.mpr, append_nil]
      intro e he
      simpa [hOwn session e he] using hNe
    · rw [mem_singleton.mp hLast, h.untouched _ hNew, nil_append, filter_eq_self.mpr]
      intro e he
      simpa using hOwn session e he
  untouched := by
    intro addr hAddr
    rw [map_append, mem_append, not_or] at hAddr
    rw [filter_append, h.untouched addr hAddr.1, nil_append, filter_eq_nil_iff]
    intro e he hSame
    apply hAddr.2
    simp only [decide_eq_true_eq] at hSame
    simp [← hSame, hOwn session e he]

theorem append_all {sessions : List SessionObject}
    (hNew : ((destroyed ++ sessions).map addr).Nodup) :
    Settled duties (destroyed ++ sessions) (events ++ sessions.flatMap duties) := by
  induction sessions generalizing destroyed events with
  | nil => simpa using h
  | cons session sessions ih =>
    have hSplit : destroyed ++ session :: sessions = destroyed ++ [session] ++ sessions := by simp
    rw [hSplit] at hNew ⊢
    rw [flatMap_cons, ← append_assoc]
    apply ih _ hNew
    apply h.append hOwn
    rw [map_append, map_append] at hNew
    have hFirst := (nodup_append.mp hNew).1
    intro hIn
    exact (nodup_append.mp hFirst).2.2 _ hIn _ (by simp) rfl

end

end Settled

namespace SessionObject

variable (session : SessionObject)

theorem addr_of_mem_openFDs : ∀ e ∈ session.openFDs, e.1 = session.addr := by
  intro e he
  unfold openFDs at he
  split at he
  · exact absurd he not_mem_nil
  · rw [mem_singleton.mp he]

theorem addr_of_mem_nodeRefs : ∀ e ∈ session.nodeRefs, e.1 = session.addr := by
  intro e he
  unfold nodeRefs at he
  split at he
  · exact absurd he not_mem_nil
  · rw [mem_singleton.mp he]

theorem no_duties_iff : session.openFDs = [] ∧ session.nodeRefs = [] ↔
    session.file.fileDescriptor = -1 ∧ session.file.mirrorNode = none := by
  unfold openFDs nodeRefs
  cases session.file.mirrorNode <;> simp

end SessionObject

namespace ChunkSessions

variable {s : ChunkSessions}

section

variable (sessions : List SessionObject) (s : ChunkSessions)

theorem foldl_cleanup : sessions.foldl cleanup s = { s with
      destroyed := s.destroyed ++ sessions
      closedFDs := s.closedFDs ++ sessions.flatMap openFDs
      releasedNodes := s.releasedNodes ++ sessions.flatMap nodeRefs } := by
  induction sessions generalizing s with
  | nil => simp
  | cons session sessions ih =>
    rw [foldl_cons, ih]
    simp [cleanup]

theorem foldl_delete :
    sessions.foldl delete s = { s with destroyed := s.destroyed ++ sessions } := by
  induction sessions generalizing s with
  | nil => simp
  | cons session sessions ih =>
    rw [foldl_cons, ih]
    simp [delete]

end

/-! ## The invariant -/

/-- `Lifetimes` without a table of retired sessions, and the ledgers. -/
structure Accounted (s : ChunkSessions) : Prop where
  lifetimes : Lifetimes ObjectReferencer.refCount (fun r => r.referencedObject.addr)
    s.store.sessions.find (fun _ => none) s.handles (s.destroyed.map SessionObject.addr)
    {addr | addr < s.nextAddr}
  handed : ∀ handle ∈ s.handles, handle.2 < s.nextAddr
  closed : Settled SessionObject.openFDs s.destroyed s.closedFDs
  released : Settled SessionObject.nodeRefs s.destroyed s.releasedNodes

namespace Accounted

theorem empty : ChunkSessions.empty.Accounted where
  lifetimes := by
    constructor <;> intros <;> simp_all [ChunkSessions.empty]
  handed := nofun
  closed := ⟨nofun, fun _ _ => rfl⟩
  released := ⟨nofun, fun _ _ => rfl⟩

theorem sound (h : s.Accounted) : s.Sound where
  counts := h.lifetimes.active_count
  referenced := by
    intro handle hIn hDestroyed
    have hFreed := (h.lifetimes.freed_iff _).mp hDestroyed
    rcases h.lifetimes.live handle hIn (h.handed handle hIn) with ⟨r, hActive, hAddr⟩ | ⟨r, hNone⟩
    · exact hFreed.2.1 _ r hActive hAddr
    · cases hNone
  once := h.lifetimes.freed_once
  closed := h.closed.done
  released := h.released.done

theorem not_destroyed (h : s.Accounted) {key : ByteString} {r : SessionLocalFileReferencer}
    (hFind : s.store.sessions.find key = some r) :
    r.referencedObject.addr ∉ s.destroyed.map addr :=
  fun hIn => ((h.lifetimes.freed_iff _).mp hIn).2.1 key r hFind rfl

theorem insert_nextAddr (s : ChunkSessions) :
    insert s.nextAddr {addr | addr < s.nextAddr} = {addr | addr < s.nextAddr + 1} := by
  ext addr
  simp only [Set.mem_insert_iff, Set.mem_ofPred_eq]
  omega

section

variable (h : s.Accounted)
include h

theorem addAndReferenceSession {file : SessionLocalFile}
    (hFD : file.fileDescriptor = -1) (hNode : file.mirrorNode = none) :
    (s.addAndReferenceSession file).Accounted := by
  have hNew : s.nextAddr ∉ {addr | addr < s.nextAddr} := lt_irrefl s.nextAddr
  have hUnknown : ∀ x ∈ s.handles, x.2 ≠ s.nextAddr := fun x hx => (h.handed x hx).ne
  unfold ChunkSessions.addAndReferenceSession
  cases hFind : s.store.sessions.find file.mapKey with
  | some r =>
    rw [SessionLocalFileStore.addAndReferenceSession_of_find hFind]
    have hFree : (⟨s.nextAddr, file⟩ : SessionObject).addr ∉ s.destroyed.map SessionObject.addr :=
      fun hIn => hNew ((h.lifetimes.freed_iff _).mp hIn).1
    have hDuties := (SessionObject.no_duties_iff ⟨s.nextAddr, file⟩).mpr ⟨hFD, hNode⟩
    constructor
    · have hRefused := h.lifetimes.refuse hNew hUnknown
      rw [insert_nextAddr] at hRefused
      simp only [Option.toList_some, map_append, map_singleton]
      rw [OrderedMap.find_put_eq_update]
      exact hRefused.acquire hFind rfl rfl
    · intro handle hIn
      rcases mem_append.mp hIn with hOld | hLast
      · exact Nat.lt_succ_of_lt (h.handed handle hOld)
      · rw [mem_singleton.mp hLast]
        exact Nat.lt_succ_of_lt (h.lifetimes.active_given _ r hFind)
    · have hSettled := h.closed.append SessionObject.addr_of_mem_openFDs hFree
      rwa [hDuties.1, append_nil] at hSettled
    · have hSettled := h.released.append SessionObject.addr_of_mem_nodeRefs hFree
      rwa [hDuties.2, append_nil] at hSettled
  | none =>
    rw [SessionLocalFileStore.addAndReferenceSession_of_none hFind]
    simp only [Option.toList_none, append_nil]
    refine ⟨?_, ?_, h.closed, h.released⟩
    · obtain ⟨r, hr⟩ : ∃ r, r = ObjectReferencer.new (⟨s.nextAddr, file⟩ : SessionObject) :=
        ⟨_, rfl⟩
      have hAddr : s.nextAddr = r.referencedObject.addr := by rw [hr]; rfl
      have hNew' : r.referencedObject.addr ∉ {addr | addr < s.nextAddr} := by rwa [← hAddr]
      have hAdded := h.lifetimes.add hFind hNew' (by rwa [← hAddr]) (by rw [hr]; rfl)
      rw [← hAddr, insert_nextAddr] at hAdded
      have hAcquired := hAdded.acquire (Function.update_self file.mapKey _ _)
        (rfl : r.reference.referencedObject.addr = _) rfl
      rwa [Function.update_idem, ← OrderedMap.find_put_eq_update, hr] at hAcquired
    · intro handle hIn
      rcases mem_append.mp hIn with hOld | hLast
      · exact Nat.lt_succ_of_lt (h.handed handle hOld)
      · rw [mem_singleton.mp hLast]
        exact Nat.lt_succ_self _

theorem referenceSession (key : ByteString) : (s.referenceSession key).Accounted := by
  unfold ChunkSessions.referenceSession SessionLocalFileStore.referenceSession
  cases hFind : s.store.sessions.find key with
  | none => exact h
  | some r =>
    refine ⟨?_, ?_, h.closed, h.released⟩
    · simp only [OrderedMap.find_put_eq_update]
      exact h.lifetimes.acquire hFind rfl rfl
    · intro handle hIn
      rcases mem_append.mp hIn with hOld | hLast
      · exact h.handed handle hOld
      · rw [mem_singleton.mp hLast]
        exact h.lifetimes.active_given _ r hFind

theorem modifySession (key : ByteString)
    (f : SessionLocalFile → SessionLocalFile) : (s.modifySession key f).Accounted := by
  unfold ChunkSessions.modifySession
  cases hFind : s.store.sessions.find key with
  | none => exact h
  | some r =>
    refine ⟨?_, h.handed, h.closed, h.released⟩
    simp only [setStore, OrderedMap.find_put_eq_update]
    exact h.lifetimes.modify hFind rfl rfl

theorem cleanup {key : ByteString} {r : SessionLocalFileReferencer}
    (hFind : s.store.sessions.find key = some r) (hUnused : r.refCount = 0) :
    ((s.setStore ⟨s.store.sessions.remove key⟩).cleanup r.referencedObject).Accounted := by
  have hNew := h.not_destroyed hFind
  refine ⟨?_, h.handed, h.closed.append SessionObject.addr_of_mem_openFDs hNew,
    h.released.append SessionObject.addr_of_mem_nodeRefs hNew⟩
  have hDropped := h.lifetimes.drop hFind hUnused
  rw [← OrderedMap.find_remove_eq_update] at hDropped
  simpa [ChunkSessions.cleanup, setStore] using hDropped

theorem removeSession (key : ByteString) : (s.removeSession key).Accounted := by
  unfold ChunkSessions.removeSession SessionLocalFileStore.removeSession
  cases hFind : s.store.sessions.find key with
  | none => exact h
  | some r =>
    by_cases hUsed : r.refCount = 0
    · simp only [hUsed, ne_eq, not_true_eq_false, if_false]
      exact h.cleanup hFind hUsed
    · simp only [ne_eq, hUsed, not_false_eq_true, if_true]
      refine ⟨?_, h.handed, h.closed, h.released⟩
      simp only [Option.toList_none, foldl_nil, setStore, OrderedMap.find_put_eq_update]
      exact h.lifetimes.modify hFind rfl rfl

theorem releaseSession {handle : SessionHandle} (hIn : handle ∈ s.handles) :
    (s.releaseSession handle).Accounted := by
  obtain ⟨key, addr⟩ := handle
  rcases h.lifetimes.live _ hIn (h.handed _ hIn) with ⟨r, hFind, hAddr⟩ | ⟨r, hNone⟩
  · simp only at hFind hAddr
    subst hAddr
    have hReleased : ({ s with
        store := ⟨s.store.sessions.put key r.release⟩
        handles := s.handles.erase (key, r.referencedObject.addr) } : ChunkSessions).Accounted := by
      refine ⟨?_, fun x hx => h.handed x (mem_of_mem_erase hx), h.closed, h.released⟩
      simp only [OrderedMap.find_put_eq_update]
      convert h.lifetimes.releaseActive hFind hIn
        (rfl : r.release.referencedObject.addr = _) rfl using 2
      exact lawful_beq_subsingleton _ _
    unfold ChunkSessions.releaseSession SessionLocalFileStore.releaseSession
    rw [hFind]
    simp only
    split
    · rename_i hLast
      have hCleaned := hReleased.cleanup (OrderedMap.find_put_self _ _ _) hLast.1
      have hRemove : (s.store.sessions.put key r.release).remove key =
          s.store.sessions.remove key := by
        apply OrderedMap.ext_find
        intro k
        simp only [OrderedMap.find_remove, OrderedMap.find_put]
        split <;> rfl
      simp only [hRemove, setStore] at hCleaned
      exact hCleaned
    · exact hReleased
  · cases hNone

end

theorem mem_addrs_iff (m : SessionLocalFileMap SessionObject) (addr : Nat) :
    addr ∈ (m.elems.map fun entry => entry.2.referencedObject).map SessionObject.addr ↔
      ∃ key r, m.find key = some r ∧ r.referencedObject.addr = addr := by
  simp only [map_map, mem_map, Function.comp_apply]
  constructor
  · rintro ⟨⟨key, r⟩, hIn, rfl⟩
    exact ⟨key, r, OrderedMap.find_eq_some.mpr hIn, rfl⟩
  · rintro ⟨key, r, hFind, rfl⟩
    exact ⟨(key, r), OrderedMap.find_eq_some.mp hFind, rfl⟩

theorem nodup_addrs (h : s.Accounted) :
    ((s.store.sessions.elems.map fun entry => entry.2.referencedObject).map addr).Nodup := by
  rw [map_map]
  apply List.Nodup.map_on _ s.store.sessions.nodup_elems
  rintro ⟨key, r⟩ hIn ⟨key', r'⟩ hIn' hSame
  have hFind := find_eq_some.mpr hIn
  have hFind' := find_eq_some.mpr hIn'
  obtain rfl := h.lifetimes.distinct key key' r r' hFind hFind' hSame
  rw [Option.some.inj (hFind.symm.trans hFind')]

theorem removeAllSessions (h : s.Accounted)
    (hCareful : ∀ entry ∈ s.store.sessions.elems, entry.2.refCount = 0) :
    s.removeAllSessions.Accounted := by
  have hDropped := h.lifetimes.dropAll h.nodup_addrs (mem_addrs_iff s.store.sessions)
    fun key r hFind => hCareful (key, r) (OrderedMap.find_eq_some.mp hFind)
  unfold ChunkSessions.removeAllSessions SessionLocalFileStore.removeAllSessions
  simp only [foldl_cleanup, setStore]
  rw [← map_append] at hDropped
  refine ⟨?_, h.handed, ?_, ?_⟩
  · exact hDropped
  · exact h.closed.append_all SessionObject.addr_of_mem_openFDs hDropped.freed_once
  · exact h.released.append_all SessionObject.addr_of_mem_nodeRefs hDropped.freed_once

end Accounted

/-! ## The sessions of a mirror -/

variable (targetID : UInt16)

/-- A session that `removeAllMirrorSessions` deletes. -/
def deletesEntry (entry : ByteString × SessionLocalFileReferencer) : Bool :=
  SessionLocalFileStore.isMirrorSessionOf targetID entry.2 && decide (entry.2.refCount = 0)

theorem removed_foldl (entries : List (ByteString × SessionLocalFileReferencer))
    (acc : List SessionObject × SessionLocalFileStore) :
    (entries.foldl (removeMirrorSession targetID) acc).1 =
      acc.1 ++ (entries.filter (deletesEntry targetID)).map fun entry =>
        entry.2.referencedObject := by
  induction entries generalizing acc with
  | nil => simp
  | cons entry entries ih =>
    rw [foldl_cons, ih]
    unfold removeMirrorSession
    by_cases hMirror : isMirrorSessionOf targetID entry.2 = true
    · by_cases hUnused : entry.2.refCount = 0
      · simp [deletesEntry, hMirror, hUnused]
      · simp [deletesEntry, hMirror, hUnused]
    · simp [deletesEntry, hMirror]

theorem removed_removeAllMirrorSessions (store : SessionLocalFileStore) (targetID : UInt16) :
    (store.removeAllMirrorSessions targetID).1 =
      (store.sessions.elems.filter (deletesEntry targetID)).map fun entry =>
        entry.2.referencedObject := by
  unfold SessionLocalFileStore.removeAllMirrorSessions
  rw [removed_foldl, nil_append]

/-- The loop over the entries. The ones that are still to come are as they were at first. -/
theorem lifetimes_foldl {handles : List SessionHandle} {given : Set Nat} {freed : List Nat}
    {entries : List (ByteString × SessionLocalFileReferencer)}
    (hKeys : (entries.map Prod.fst).Nodup) {acc : List SessionObject × SessionLocalFileStore}
    (hEntries : ∀ entry ∈ entries, acc.2.sessions.find entry.1 = some entry.2)
    (h : Lifetimes refCount (fun r => r.referencedObject.addr)
      acc.2.sessions.find (fun _ => none) handles (freed ++ acc.1.map addr) given) :
    Lifetimes refCount (fun r => r.referencedObject.addr)
      (entries.foldl (removeMirrorSession targetID) acc).2.sessions.find
      (fun _ => none) handles (freed ++ (entries.foldl
        (removeMirrorSession targetID) acc).1.map addr)
      given := by
  induction entries generalizing acc with
  | nil => exact h
  | cons entry entries ih =>
    rw [map_cons, nodup_cons] at hKeys
    have hFind := hEntries entry mem_cons_self
    have hNe : ∀ e ∈ entries, e.1 ≠ entry.1 := fun e he hSame => hKeys.1 (hSame ▸ mem_map_of_mem he)
    have hRest := fun e he => hEntries e (mem_cons_of_mem entry he)
    rw [foldl_cons]
    apply ih hKeys.2
    · intro e he
      unfold removeMirrorSession
      split
      · split
        · simp only [find_put_of_ne _ _ (hNe e he)]
          exact hRest e he
        · simp only [find_remove_of_ne _ (hNe e he)]
          exact hRest e he
      · exact hRest e he
    · unfold removeMirrorSession
      split
      · split
        · simp only [find_put_eq_update]
          exact h.modify hFind rfl rfl
        · rename_i hUnused
          simp only [find_remove_eq_update, map_append, map_singleton, ← append_assoc]
          exact h.drop hFind (not_not.mp hUnused)
      · exact h

section

variable (h : s.Accounted)
include h

theorem lifetimes_removeAllMirrorSessions (targetID : UInt16) :
    Lifetimes refCount (fun r => r.referencedObject.addr)
      (s.removeAllMirrorSessions targetID).store.sessions.find (fun _ => none) s.handles
      ((s.removeAllMirrorSessions targetID).destroyed.map addr)
      {addr | addr < s.nextAddr} := by
  unfold removeAllMirrorSessions
  simp only [foldl_delete, setStore, map_append]
  apply lifetimes_foldl targetID s.store.sessions.nodup_keys
  · exact fun entry hIn => find_eq_some.mpr hIn
  · simpa using h.lifetimes

theorem Accounted.removeAllMirrorSessions {targetID : UInt16}
    (hCareful : s.Careful (.removeAllMirrorSessions targetID)) :
    (s.removeAllMirrorSessions targetID).Accounted := by
  have hLifetimes := lifetimes_removeAllMirrorSessions h targetID
  have hOnce := hLifetimes.freed_once
  have hDuties : ∀ session ∈ (s.store.removeAllMirrorSessions targetID).1,
      session.openFDs = [] ∧ session.nodeRefs = [] := by
    intro session hIn
    rw [removed_removeAllMirrorSessions, mem_map] at hIn
    obtain ⟨entry, hEntry, rfl⟩ := hIn
    rw [mem_filter, deletesEntry, Bool.and_eq_true, decide_eq_true_eq] at hEntry
    exact (SessionObject.no_duties_iff _).mpr (hCareful entry hEntry.1 hEntry.2.1 hEntry.2.2)
  unfold ChunkSessions.removeAllMirrorSessions at hLifetimes hOnce ⊢
  simp only [foldl_delete, setStore] at hLifetimes hOnce ⊢
  refine ⟨hLifetimes, h.handed, ?_, ?_⟩
  · have hSettled := h.closed.append_all SessionObject.addr_of_mem_openFDs hOnce
    rwa [flatMap_eq_nil_iff.mpr fun session hIn => (hDuties session hIn).1,
      append_nil] at hSettled
  · have hSettled := h.released.append_all SessionObject.addr_of_mem_nodeRefs hOnce
    rwa [flatMap_eq_nil_iff.mpr fun session hIn => (hDuties session hIn).2,
      append_nil] at hSettled

/-! ## Runs -/

theorem Accounted.step {op : ChunkSessionOp} (hAdmitted : s.Admitted op)
    (hCareful : s.Careful op) : (s.step op).Accounted := by
  cases op with
  | addAndReferenceSession fileHandleID targetID fileID openFlags serverCrashed isMirrorSession =>
    exact h.addAndReferenceSession rfl rfl
  | referenceSession fileHandleID targetID isMirrorSession => exact h.referenceSession _
  | openFile handle openRes => exact h.modifySession _ _
  | setMirrorNodeExclusive handle mirrorNode => exact h.modifySession _ _
  | releaseSession handle => exact h.releaseSession hAdmitted
  | removeSession fileHandleID targetID isMirrorSession => exact h.removeSession _
  | removeAllSessions => exact h.removeAllSessions hCareful
  | removeAllMirrorSessions targetID => exact h.removeAllMirrorSessions hCareful

theorem Accounted.not_sound {op : ChunkSessionOp} (hCareless : ¬ s.Careful op) :
    ¬ (s.step op).Sound := by
  intro hSound
  apply hCareless
  cases op with
  | removeAllSessions =>
    intro entry hIn
    have hFind := OrderedMap.find_eq_some.mpr (show (entry.1, entry.2) ∈ _ from hIn)
    have hCount := h.lifetimes.active_count _ _ hFind
    rw [hCount, Int.natCast_eq_zero]
    apply handlesTo_eq_zero
    intro handle hHandle hSame
    have hGone := hSound.referenced handle (by
      simpa [ChunkSessions.step, ChunkSessions.removeAllSessions, foldl_cleanup, setStore]
        using hHandle)
    apply hGone
    simp only [ChunkSessions.step, ChunkSessions.removeAllSessions, foldl_cleanup, map_append,
      mem_append]
    right
    rw [hSame]
    exact mem_map_of_mem (mem_map_of_mem hIn)
  | removeAllMirrorSessions targetID =>
    intro entry hIn hMirror hUnused
    have hFind := OrderedMap.find_eq_some.mpr (show (entry.1, entry.2) ∈ _ from hIn)
    have hNew := h.not_destroyed hFind
    have hDestroyed :
        entry.2.referencedObject ∈ (s.removeAllMirrorSessions targetID).destroyed := by
      unfold ChunkSessions.removeAllMirrorSessions
      simp only [foldl_delete, mem_append]
      right
      rw [removed_removeAllMirrorSessions, mem_map]
      exact ⟨entry, mem_filter.mpr ⟨hIn, by simp [deletesEntry, hMirror, hUnused]⟩, rfl⟩
    have hClosed := hSound.closed _ hDestroyed
    have hReleased := hSound.released _ hDestroyed
    simp only [ChunkSessions.step, ChunkSessions.removeAllMirrorSessions, foldl_delete, setStore]
      at hClosed hReleased
    rw [h.closed.untouched _ hNew] at hClosed
    rw [h.released.untouched _ hNew] at hReleased
    exact (SessionObject.no_duties_iff _).mp ⟨hClosed.symm, hReleased.symm⟩
  | _ => trivial

end

/-- Every state of a run is sound exactly if every step is careful. -/
theorem sound_iff_careful {ops : List ChunkSessionOp}
    (hAdmitted : Run.EveryStep step Admitted ChunkSessions.empty ops) :
    Run.Throughout step Sound ChunkSessions.empty ops ↔
      Run.EveryStep step Careful ChunkSessions.empty ops :=
  Run.throughout_iff_everyStep step (fun _ h => h.sound)
    (fun _ _ h hAdm hCareful => h.step hAdm hCareful)
    (fun _ _ h _ hCareless => h.not_sound hCareless) Accounted.empty hAdmitted

/-- A mirrored chunk is written: its session is opened, gets the node of the other mirror, and
is released. -/
def mirrorSessionOps : List ChunkSessionOp :=
  [.addAndReferenceSession [0x31] 1 [0x32] 2 false true,
    .openFile (generateMapKey [0x31] 1 true, 0) 7,
    .setMirrorNodeExclusive (generateMapKey [0x31] 1 true, 0) 2,
    .releaseSession (generateMapKey [0x31] 1 true, 0)]

/-- The session is closed by the client. -/
theorem sound_removeSession :
    Run.Throughout step Sound ChunkSessions.empty
      (mirrorSessionOps ++ [.removeSession [0x31] 1 true]) := by
  apply (sound_iff_careful (by decide)).mpr
  decide

/-- The resync of the target begins before the session is closed. -/
theorem not_sound_removeAllMirrorSessions :
    Run.EveryStep step Admitted ChunkSessions.empty
        (mirrorSessionOps ++ [.removeAllMirrorSessions 1]) ∧
      ¬ Run.Throughout step Sound ChunkSessions.empty
        (mirrorSessionOps ++ [.removeAllMirrorSessions 1]) := by
  refine ⟨by decide, fun hSound => ?_⟩
  have hLast := (Run.throughout_iff step).mp hSound 5
  have hClosed := hLast.closed ⟨0, { SessionLocalFile.new [0x31] 1 [0x32] 2 false true with
    fileDescriptor := 7, offset := 0, mirrorNode := some 2 }⟩ (by decide)
  exact absurd hClosed (by decide)

end ChunkSessions

end Fhgfs.Session
