import Fhgfs.Common.StorageDefinitions
import Fhgfs.Common.ObjectReferencer
import Fhgfs.Lib.OrderedMap
import Fhgfs.Lib.Run

/-!
# The file sessions of a client

`SessionFileStore` of the metadata server: the open files of one client by session ID, each with
a reference count. A session that is closed while it is referenced is marked, and the release
of its last reference is to clean it up asynchronously. Every operation runs under the mutex
of the store, so the threads interleave by whole operations.

`ι` is the type of pointers to open inodes.
-/

namespace Fhgfs.Session

open OrderedMap Option

structure SessionFile (ι : Type) where
  inode : ι
  accessFlags : UInt32
  sessionID : Nat
  useAsyncCleanup : Bool
  entryInfo : EntryInfo
deriving DecidableEq

abbrev SessionFileReferencer (ι : Type) := ObjectReferencer (SessionFile ι)

structure SessionFileStore (ι : Type) where
  sessions : OrderedMap Nat (SessionFileReferencer ι)
deriving DecidableEq

/-- The arguments of a call of `performAsyncCleanup`, which closes the inode. -/
structure AsyncCleanup (ι : Type) where
  entryInfo : EntryInfo
  inode : ι
  accessFlags : UInt32
deriving DecidableEq

namespace SessionFileStore

variable {ι : Type}

/-- Nothing is referenced if no such session exists. -/
def referenceSession (sessionID : Nat) (store : SessionFileStore ι) :
    SessionFileStore ι × Option (SessionFile ι) :=
  match store.sessions.find sessionID with
  | none => (store, none)
  | some sessionRefer =>
    (⟨store.sessions.put sessionID sessionRefer.reference⟩, some sessionRefer.referencedObject)

/-- The second component is the asynchronous cleanup that this release triggers. -/
def releaseSession (session : SessionFile ι) (entryInfo : EntryInfo)
    (store : SessionFileStore ι) : SessionFileStore ι × Option (AsyncCleanup ι) :=
  let sessionID := session.sessionID
  match store.sessions.find sessionID with
  | none => (store, none)
  | some sessionRefer =>
    let sessionNonRef := sessionRefer.referencedObject
    if sessionNonRef.useAsyncCleanup then
      if sessionRefer.refCount = 1 then
        (⟨store.sessions.remove sessionID⟩,
          some ⟨entryInfo, sessionNonRef.inode, sessionNonRef.accessFlags⟩)
      else (store, none)
    else (⟨store.sessions.put sessionID sessionRefer.release⟩, none)

def setUseAsyncCleanup (sessionRefer : SessionFileReferencer ι) : SessionFileReferencer ι :=
  { sessionRefer with
    referencedObject := { sessionRefer.referencedObject with useAsyncCleanup := true } }

/-- The second component is `false` if the session could not be removed. -/
def removeSession (sessionID : Nat) (store : SessionFileStore ι) : SessionFileStore ι × Bool :=
  match store.sessions.find sessionID with
  | none => (store, false)
  | some sessionRefer =>
    if sessionRefer.refCount ≠ 0 then
      (⟨store.sessions.put sessionID (setUseAsyncCleanup sessionRefer)⟩, false)
    else (⟨store.sessions.remove sessionID⟩, true)

/-! ### Lookups afterwards -/

section Lookups

variable {store : SessionFileStore ι} {k sessionID : Nat} {session : SessionFile ι}
  {entryInfo : EntryInfo}

theorem isSome_referenceSession :
    (store.referenceSession sessionID).2.isSome = (store.sessions.find sessionID).isSome := by
  unfold referenceSession
  split <;> simp [*]

theorem find_referenceSession :
    (store.referenceSession sessionID).1.sessions.find k =
      if k = sessionID then (store.sessions.find sessionID).map ObjectReferencer.reference
      else store.sessions.find k := by
  unfold referenceSession
  split
  · rename_i hFind
    split
    · rename_i hSame
      rw [hSame, hFind]
      rfl
    · rfl
  · rename_i r hFind
    rw [hFind]
    exact find_put _ _ _ _

/-- What a release leaves of the entry of its session. -/
def released (sessionRefer : SessionFileReferencer ι) : Option (SessionFileReferencer ι) :=
  if sessionRefer.referencedObject.useAsyncCleanup then
    if sessionRefer.refCount = 1 then none else some sessionRefer
  else some sessionRefer.release

theorem find_releaseSession :
    (store.releaseSession session entryInfo).1.sessions.find k =
      if k = session.sessionID then (store.sessions.find session.sessionID).bind released
      else store.sessions.find k := by
  unfold releaseSession
  simp only
  split
  · rename_i hFind
    split
    · rename_i hSame
      rw [hSame, hFind]
      rfl
    · rfl
  · rename_i r hFind
    rw [hFind, bind_some]
    unfold released
    split_ifs <;> simp_all [find_put, find_remove]

theorem cleanup_releaseSession :
    (store.releaseSession session entryInfo).2 =
      (store.sessions.find session.sessionID).bind fun r =>
        if r.referencedObject.useAsyncCleanup ∧ r.refCount = 1 then
          some ⟨entryInfo, r.referencedObject.inode, r.referencedObject.accessFlags⟩
        else none := by
  unfold releaseSession
  simp only
  split
  · rename_i hFind
    rw [hFind]
    rfl
  · rename_i r hFind
    rw [hFind, bind_some]
    split_ifs <;> simp_all

/-- What a removal leaves of the entry of its session. -/
def removed (sessionRefer : SessionFileReferencer ι) : Option (SessionFileReferencer ι) :=
  if sessionRefer.refCount ≠ 0 then some (setUseAsyncCleanup sessionRefer) else none

theorem find_removeSession :
    (store.removeSession sessionID).1.sessions.find k =
      if k = sessionID then (store.sessions.find sessionID).bind removed
      else store.sessions.find k := by
  unfold removeSession
  split
  · rename_i hFind
    split
    · rename_i hSame
      rw [hSame, hFind]
      rfl
    · rfl
  · rename_i r hFind
    rw [hFind, bind_some]
    unfold removed
    split_ifs <;> simp_all [find_put, find_remove]

end Lookups

end SessionFileStore

/-! ## Threads that share a store -/

inductive SessionOp (ι : Type)
  | referenceSession (sessionID : Nat)
  | releaseSession (session : SessionFile ι) (entryInfo : EntryInfo)
  | removeSession (sessionID : Nat)
deriving DecidableEq

def SessionOp.sessionID {ι : Type} : SessionOp ι → Nat
  | .referenceSession sessionID => sessionID
  | .releaseSession session _ => session.sessionID
  | .removeSession sessionID => sessionID

/-- A store, and the number of references to each session that were taken and not yet given
back. -/
structure SharedSessions (ι : Type) where
  store : SessionFileStore ι
  holders : Nat → Nat

namespace SharedSessions

variable {ι : Type}

variable (s : SharedSessions ι)

def step : SessionOp ι → SharedSessions ι
  | .referenceSession sessionID =>
    let referenced := s.store.referenceSession sessionID
    { store := referenced.1
      holders := if referenced.2.isSome then
          Function.update s.holders sessionID (s.holders sessionID + 1)
        else s.holders }
  | .releaseSession session entryInfo =>
    { store := (s.store.releaseSession session entryInfo).1
      holders := Function.update s.holders session.sessionID
        (s.holders session.sessionID - 1) }
  | .removeSession sessionID =>
    { store := (s.store.removeSession sessionID).1, holders := s.holders }

/-- Only a holder of a reference releases the session. -/
def Admitted : SessionOp ι → Prop
  | .releaseSession session _ => 0 < s.holders session.sessionID
  | _ => True

/-- Sessions as `addSession` leaves them: unmarked and without references. -/
def Fresh : Prop :=
  (∀ sessionID, s.holders sessionID = 0) ∧
  ∀ sessionID sessionRefer, s.store.sessions.find sessionID = some sessionRefer →
    sessionRefer.refCount = 0 ∧ sessionRefer.referencedObject.useAsyncCleanup = false

/-- The asynchronous cleanups of a session that an operation performs. -/
def cleanups (sessionID : Nat) (s : SharedSessions ι) : SessionOp ι → List (AsyncCleanup ι)
  | .releaseSession session entryInfo =>
    if session.sessionID = sessionID then
      (s.store.releaseSession session entryInfo).2.toList
    else []
  | _ => []

end SharedSessions

end Fhgfs.Session
