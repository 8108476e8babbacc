import Fhgfs.Session.MetaSessionStore

/-!
# Sessions of dead clients

Sessions of clients that are not in the list of all clients are removed. Both are walked in the
order of the IDs. The sessions with references stay, and are reported (`syncSessions_synced`).
-/

namespace Fhgfs.Session

open List OrderedMap

section Sync

variable {κ S : Type} [LinearOrder κ]

/-- A session without references goes to the caller. -/
def removeSessionUnlocked (sessionID : κ) (sessions : OrderedMap κ (ObjectReferencer S)) :
    Option S × OrderedMap κ (ObjectReferencer S) :=
  match sessions.find sessionID with
  | none => (none, sessions)
  | some sessionRefer =>
    if sessionRefer.refCount = 0 then
      (some sessionRefer.referencedObject, sessions.remove sessionID)
    else (none, sessions)

structure SessionSync (κ S : Type) [LinearOrder κ] where
  sessions : OrderedMap κ (ObjectReferencer S)
  outRemovedSessions : List S
  outUnremovableSesssions : List κ

def SessionSync.removeSession (s : SessionSync κ S) (currentSession : κ) : SessionSync κ S :=
  match removeSessionUnlocked currentSession s.sessions with
  | (some session, sessions) =>
    { s with sessions := sessions, outRemovedSessions := s.outRemovedSessions ++ [session] }
  | (none, _) =>
    { s with outUnremovableSesssions := s.outUnremovableSesssions ++ [currentSession] }

/-- The iterator leaves a session before it is removed, so it goes over all that were there. -/
def syncLoop (doRemove : Bool) : List κ → List κ → SessionSync κ S → SessionSync κ S
  | [], _, s => s
  | sessionIter, [], s => if doRemove then sessionIter.foldl .removeSession s else s
  | currentSession :: sessionIter, currentMaster :: masterList, s =>
    if currentMaster < currentSession then
      syncLoop doRemove (currentSession :: sessionIter) masterList s
    else if currentSession < currentMaster ∧ doRemove then
      syncLoop doRemove sessionIter (currentMaster :: masterList) (s.removeSession currentSession)
    else syncLoop doRemove sessionIter masterList s
termination_by sessionIter masterList => sessionIter.length + masterList.length

def syncSessions (doRemove : Bool) (masterList : List κ)
    (sessions : OrderedMap κ (ObjectReferencer S)) : SessionSync κ S :=
  syncLoop doRemove (sessions.elems.map Prod.fst) masterList ⟨sessions, [], []⟩

/-- What is left of the sessions, and what the caller gets. -/
structure Synced (masterList : List κ) (before : OrderedMap κ (ObjectReferencer S))
    (after : SessionSync κ S) : Prop where
  sessions : ∀ entry, entry ∈ after.sessions ↔
    entry ∈ before ∧ (entry.1 ∈ masterList ∨ entry.2.refCount ≠ 0)
  removed : after.outRemovedSessions = (before.elems.filter fun entry =>
    entry.2.refCount = 0 ∧ entry.1 ∉ masterList).map (·.2.referencedObject)
  unremovable : after.outUnremovableSesssions = (before.elems.filter fun entry =>
    entry.2.refCount ≠ 0 ∧ entry.1 ∉ masterList).map Prod.fst

variable {masterList sessionIter : List κ} {s : SessionSync κ S}

/-- Both lists ascend, so an ID that was passed does not come again. -/
theorem syncLoop_eq (hIter : sessionIter.Pairwise (· < ·)) (hMaster : masterList.Pairwise (· < ·)) :
    syncLoop true sessionIter masterList s =
      (sessionIter.filter (· ∉ masterList)).foldl .removeSession s := by
  induction sessionIter, masterList, s using syncLoop.induct true with
  | case1 masterList s => rw [syncLoop, filter_nil, foldl_nil]
  | case2 sessionIter s _ => simp [syncLoop]
  | case3 sessionIter s _ => simp_all
  | case4 currentSession sessionIter currentMaster masterList s hLt ih =>
    rw [syncLoop, if_pos hLt, ih hIter (pairwise_cons.mp hMaster).2]
    congr 1
    refine filter_congr fun id hIn => ?_
    have hAbove : currentMaster < id := by
      rcases mem_cons.mp hIn with rfl | hIn
      · exact hLt
      · exact hLt.trans ((pairwise_cons.mp hIter).1 id hIn)
    simp [hAbove.ne']
  | case5 currentSession sessionIter currentMaster masterList s hNot hLt ih =>
    have hNew : currentSession ∉ currentMaster :: masterList := by
      rw [mem_cons, not_or]
      refine ⟨hLt.1.ne, fun hIn => ?_⟩
      exact (hLt.1.trans ((pairwise_cons.mp hMaster).1 _ hIn)).false
    rw [syncLoop, if_neg hNot, if_pos hLt, ih (pairwise_cons.mp hIter).2 hMaster,
      filter_cons_of_pos (by simpa using hNew), foldl_cons]
  | case6 currentSession sessionIter currentMaster masterList s hNot hNot' ih =>
    obtain rfl : currentSession = currentMaster :=
      le_antisymm (not_lt.mp hNot) (not_lt.mp fun hLt => hNot' ⟨hLt, rfl⟩)
    rw [syncLoop, if_neg hNot, if_neg hNot', ih (pairwise_cons.mp hIter).2
      (pairwise_cons.mp hMaster).2, filter_cons_of_neg (by simp)]
    congr 1
    refine filter_congr fun id hIn => ?_
    simp [((pairwise_cons.mp hIter).1 id hIn).ne']

theorem syncLoop_keeps (sessionIter masterList : List κ) (s : SessionSync κ S) :
    syncLoop false sessionIter masterList s = s := by
  induction sessionIter, masterList, s using syncLoop.induct false <;> simp_all [syncLoop]

theorem foldl_removeSession {entries : List (κ × ObjectReferencer S)}
    (hIn : ∀ entry ∈ entries, entry ∈ s.sessions) (hKeys : (entries.map Prod.fst).Nodup) :
    (entries.map Prod.fst).foldl .removeSession s =
      ⟨(entries.filter (·.2.refCount = 0)).map Prod.fst |>.foldl .remove s.sessions,
        s.outRemovedSessions ++ (entries.filter (·.2.refCount = 0)).map (·.2.referencedObject),
        s.outUnremovableSesssions ++ (entries.filter (·.2.refCount ≠ 0)).map Prod.fst⟩ := by
  induction entries generalizing s with
  | nil => simp
  | cons entry entries ih =>
    obtain ⟨hFirst, hRest⟩ := nodup_cons.mp hKeys
    have hFind : s.sessions.find entry.1 = some entry.2 := find_eq_some.mpr (hIn _ mem_cons_self)
    rw [map_cons, foldl_cons]
    by_cases hFree : entry.2.refCount = 0
    · have hRemoved : s.removeSession entry.1 = ⟨s.sessions.remove entry.1,
          s.outRemovedSessions ++ [entry.2.referencedObject], s.outUnremovableSesssions⟩ := by
        simp [SessionSync.removeSession, removeSessionUnlocked, hFind, hFree]
      rw [hRemoved, ih _ hRest]
      · simp [hFree]
      · intro other hOther
        refine mem_remove.mpr ⟨hIn _ (mem_cons_of_mem _ hOther), fun hSame => hFirst ?_⟩
        exact hSame ▸ mem_map_of_mem hOther
    · have hKept : s.removeSession entry.1 = ⟨s.sessions, s.outRemovedSessions,
          s.outUnremovableSesssions ++ [entry.1]⟩ := by
        simp [SessionSync.removeSession, removeSessionUnlocked, hFind, hFree]
      rw [hKept, ih _ hRest]
      · simp [hFree]
      · exact fun _ hOther => hIn _ (mem_cons_of_mem _ hOther)

theorem synced_syncSessions (hMaster : masterList.Pairwise (· < ·))
    (sessions : OrderedMap κ (ObjectReferencer S)) :
    Synced masterList sessions (syncSessions true masterList sessions) := by
  have hKeys : (sessions.elems.map Prod.fst).Pairwise (· < ·) := pairwise_map.mpr sessions.ascending
  have hGone : (sessions.elems.map Prod.fst).filter (· ∉ masterList) =
      (sessions.elems.filter (·.1 ∉ masterList)).map Prod.fst := by
    rw [filter_map]
    rfl
  have hNodup : ((sessions.elems.filter (·.1 ∉ masterList)).map Prod.fst).Nodup :=
    hGone ▸ (nodup_keys sessions).filter _
  rw [syncSessions, syncLoop_eq hKeys hMaster, hGone,
    foldl_removeSession (fun _ hIn => mem_of_mem_filter hIn) hNodup]
  constructor
  · rintro ⟨id, r⟩
    rw [← find_eq_some, find_foldl_remove, ← find_eq_some]
    split_ifs with hRemoved
    · obtain ⟨⟨id, gone⟩, hGoes, rfl⟩ := mem_map.mp hRemoved
      obtain ⟨hEntry, hFree⟩ := mem_filter.mp hGoes
      obtain ⟨hEntry, hDead⟩ := mem_filter.mp hEntry
      refine iff_of_false nofun fun ⟨hFind, hStays⟩ => ?_
      obtain rfl : gone = r := Option.some.inj ((find_eq_some.mpr hEntry).symm.trans hFind)
      rcases hStays with hLive | hUsed
      · exact absurd hLive (of_decide_eq_true hDead)
      · exact hUsed (of_decide_eq_true hFree)
    · refine (and_iff_left_of_imp fun hFind => ?_).symm
      by_contra hGoes
      rw [not_or, not_not] at hGoes
      refine hRemoved (mem_map.mpr ⟨(id, r), mem_filter.mpr ⟨mem_filter.mpr ⟨?_, ?_⟩, ?_⟩, rfl⟩)
      · exact find_eq_some.mp hFind
      · exact decide_eq_true hGoes.1
      · exact decide_eq_true hGoes.2
  · simp [filter_filter]
  · simp [filter_filter]

end Sync

def SessionStore.syncSessions (masterList : List ByteString) (store : SessionStore) :
    SessionSync ByteString ClientSession :=
  Session.syncSessions true masterList store.sessions

def MetaSessionStore.syncSessions {ι : Type} (doRemove : Bool) (masterList : List ByteString)
    (store : MetaSessionStore ι) : SessionSync ByteString (MetaSession ι) :=
  Session.syncSessions doRemove masterList store.sessions

/-- Without `doRemove`, a metadata server keeps all sessions and reports none. -/
theorem syncSessions_synced {masterList : List ByteString} (hMaster : masterList.Pairwise (· < ·)) :
    (∀ store : SessionStore, Synced masterList store.sessions (store.syncSessions masterList)) ∧
      ∀ (ι : Type) (store : MetaSessionStore ι),
        Synced masterList store.sessions (store.syncSessions true masterList) ∧
          store.syncSessions false masterList = ⟨store.sessions, [], []⟩ :=
  ⟨fun store => synced_syncSessions hMaster store.sessions, fun _ store =>
    ⟨synced_syncSessions hMaster store.sessions, syncLoop_keeps _ _ _⟩⟩

/-- The clients 1 and 2 have gone, and 2 still has a reference. -/
theorem syncSessions_synced_twoGone :
    let masterList : List ByteString := [[0], [3], [4], [9]]
    let session (id : ByteString) : ClientSession := ⟨id, .empty⟩
    let store : SessionStore := ⟨⟨[([1], ⟨0, session [1]⟩), ([2], ⟨1, session [2]⟩),
      ([3], ⟨0, session [3]⟩), ([4], ⟨2, session [4]⟩)], by decide⟩⟩
    let metaSession (id : ByteString) : MetaSession Unit := ⟨id, ⟨⟨.empty⟩, 0⟩⟩
    let metaStore : MetaSessionStore Unit := ⟨⟨[([1], ⟨0, metaSession [1]⟩),
      ([2], ⟨1, metaSession [2]⟩), ([3], ⟨0, metaSession [3]⟩)], by decide⟩⟩
    (Synced masterList store.sessions (store.syncSessions masterList) ∧
      Synced masterList metaStore.sessions (metaStore.syncSessions true masterList) ∧
      metaStore.syncSessions false masterList = ⟨metaStore.sessions, [], []⟩) ∧
    (store.syncSessions masterList).outRemovedSessions = [session [1]] ∧
      (store.syncSessions masterList).outUnremovableSesssions = [[2]] := by
  intro masterList session store metaSession metaStore
  have hSynced := syncSessions_synced (show masterList.Pairwise (· < ·) by decide)
  exact ⟨⟨hSynced.1 store, hSynced.2 Unit metaStore⟩, (hSynced.1 store).removed,
    (hSynced.1 store).unremovable⟩

/-- The first time, a metadata server keeps the session of a client that is not in the list. -/
theorem not_syncSessions_synced :
    ¬ ∀ (ι : Type) (doRemove : Bool) (masterList : List ByteString) (store : MetaSessionStore ι),
      masterList.Pairwise (· < ·) →
        Synced masterList store.sessions (store.syncSessions doRemove masterList) := by
  intro h
  have hRemoved :=
    (h Unit false [] ⟨⟨[([65], .new ⟨[65], ⟨⟨.empty⟩, 0⟩⟩)], by decide⟩⟩ .nil).removed
  rw [MetaSessionStore.syncSessions, Session.syncSessions, syncLoop_keeps] at hRemoved
  exact absurd (congrArg length hRemoved) (by decide)

end Fhgfs.Session
