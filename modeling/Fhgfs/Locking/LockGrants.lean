import Fhgfs.Common.StorageDefinitions
import Fhgfs.Locking.EntryGrants

/-!
# Waiting for a lock grant

A blocking lock request of a client, from `__FhgfsOpsRemoting_flockGenericEx`: the client sends
the request, waits for an answer, and if it has to wait, for a grant, which comes on another way
and is acknowledged as long as the client waits. The server takes a lock back whose grant is not
acknowledged. Messages are sent into a set from which they can be received late, often or never.

* `agreement_of_keepsAgreement`: in runs without the steps that `KeepsAgreement` excludes, a
  client that is told of an error has acknowledged no grant, and the server takes the lock back.
* `pending_unlockWaiter`: what a work does with the lock of a client that has not acknowledged.
* `success_granted`: in every run, a client that is told of a success was granted the lock.
* `not_lockGrants_agree`: a grant that is acknowledged before the next request fails.

Only the exit with `FhgfsOpsErr_INTERRUPTED` looks again for a grant that was acknowledged.
-/

namespace Fhgfs.Locking

open EntryLockQueuesContainer List OrderedSet LockTypeFlags

/-- Where the thread of a call is. -/
inductive CallPhase
  | requesting
  | waiting
  | leaving (retVal : FhgfsOpsErr)
  | returned (retVal : FhgfsOpsErr)
deriving DecidableEq

/-- The ID of an acknowledgement: the prefix, which is different for each notification work, and
the `lockAckID`. -/
structure LockGrantAckID where
  work : Nat
  lockAckID : String
deriving DecidableEq

/-- `LockEntryNotificationWork`, with the waiters from which it has no acknowledgement yet. -/
structure LockEntryNotificationWork where
  notifyList : List EntryLockDetails
  waitAcks : OrderedSet EntryLockDetails.lockAckID
  registered : Bool
  /-- The number of missing acknowledgements when the waiting was over. -/
  numMissing : Nat
deriving DecidableEq

def LockEntryNotificationWork.new (notifyList : List EntryLockDetails) :
    LockEntryNotificationWork where
  notifyList := notifyList
  waitAcks := notifyList.foldl OrderedSet.insert .empty
  registered := true
  numMissing := 0

/-- One call of a client, its messages, and the server. -/
structure LockGrants where
  phase : CallPhase
  /-- The request that the client has sent last, or sends next. -/
  attempt : Nat
  /-- The entry of the call is in the `AcknowledgmentStore`. -/
  inStore : Bool
  waitAcks : StringSet
  receivedAcks : StringSet
  /-- All messages that were ever sent. -/
  requests : List Nat
  responses : List (Nat × FhgfsOpsErr)
  grants : List LockGrantAckID
  acks : List LockGrantAckID
  lockQs : EntryLockQueuesContainer
  works : List LockEntryNotificationWork
  /-- At some time the server had granted the lock to the handle of the call. -/
  hasGranted : Bool
deriving DecidableEq

inductive LockGrantEvent
  /-- The request is sent, or sent again by the retries of the messaging. -/
  | sendRequest
  | requestFails (requestRes : FhgfsOpsErr)
  | receiveResponse (retVal : FhgfsOpsErr)
  | waitEnds (signalPending : Bool)
  | receiveGrant (ackID : LockGrantAckID)
  | unregister
  | handleRequest (attempt : Nat)
  /-- The file is not open on the server, and the session cannot be recovered. -/
  | refuseRequest (attempt : Nat) (clientResult : FhgfsOpsErr)
  | otherRequest (lockDetails : EntryLockDetails)
  | sendGrant (ackID : LockGrantAckID)
  | receiveAck (ackID : LockGrantAckID)
  /-- All acknowledgements are there, or there are no retries left. -/
  | ackWaitEnds (work : Nat)
  | unlockWaiter (work : Nat) (lockDetails : EntryLockDetails)
  | cancelAllWaiters (work : Nat)
  | inodeNotReferenced (work : Nat)
deriving DecidableEq

namespace LockGrants

/-- The call has registered its `lockAckID`, and nobody has requested anything. -/
def init (call junk : EntryLockDetails) : LockGrants where
  phase := .requesting
  attempt := 0
  inStore := true
  waitAcks := OrderedSet.empty.insert call.lockAckID
  receivedAcks := .empty
  requests := []
  responses := []
  grants := []
  acks := []
  lockQs := .init junk
  works := []
  hasGranted := false

/-! ## The client -/

/-- The result is whether someone was waiting for this ID. -/
def receivedAck (ackID : String) (s : LockGrants) : LockGrants × Bool :=
  if s.inStore then
    if s.waitAcks.contains ackID then
      ({ s with
         inStore := false
         waitAcks := s.waitAcks.erase ackID
         receivedAcks := s.receivedAcks.insert ackID }, true)
    else ({ s with inStore := false }, false)
  else (s, false)

/-- `LockGrantedMsgEx`. An acknowledgement is only sent if someone was still registered. -/
def lockGrantedMsg (ackID : LockGrantAckID) (s : LockGrants) : LockGrants :=
  let gotLockWaiter := s.receivedAck ackID.lockAckID
  if gotLockWaiter.2 then { gotLockWaiter.1 with acks := ackID :: s.acks } else gotLockWaiter.1

def handleResult (call : EntryLockDetails) (retVal : FhgfsOpsErr) (s : LockGrants) : LockGrants :=
  if retVal = .WOULDBLOCK ∧ call.allowsWaiting = true then { s with phase := .waiting }
  else { s with phase := .leaving retVal }

/-- The end of `AcknowledgmentStore_waitForAckCompletion`, and what its caller does. -/
def waitForAckCompletion (signalPending : Bool) (s : LockGrants) : LockGrants :=
  if s.waitAcks.elems.isEmpty then { s with phase := .leaving .SUCCESS }
  else if !signalPending then { s with phase := .requesting, attempt := s.attempt + 1 }
  else { s with phase := .leaving .INTERRUPTED }

/-- An interrupted call looks whether the grant was received just in time. -/
def result (retVal : FhgfsOpsErr) (s : LockGrants) : FhgfsOpsErr :=
  if retVal = .INTERRUPTED ∧ !s.receivedAcks.elems.isEmpty then .SUCCESS else retVal

def unregisterWaitAcks (s : LockGrants) : LockGrants :=
  if s.waitAcks.elems.isEmpty then s else { s with inStore := false }

/-! ## The server -/

/-- `FileInode::flockEntry`, which puts a work for the notify list into the work queue. -/
def flockEntry (call lockDetails : EntryLockDetails) (s : LockGrants) : LockGrants :=
  let reply := flockEntryUnlocked lockDetails s.lockQs
  { s with
    lockQs := reply.state
    works := if reply.notifyList.isEmpty then s.works else s.works ++ [.new reply.notifyList]
    hasGranted := s.hasGranted || flockEntryIsGranted call reply.state }

def flockEntryMsg (call : EntryLockDetails) (attempt : Nat) (s : LockGrants) : LockGrants :=
  let lockGranted := (flockEntryUnlocked call s.lockQs).immediatelyGranted
  let served := s.flockEntry call call
  { served with
    responses := (attempt, if lockGranted then .SUCCESS else .WOULDBLOCK) :: s.responses }

def updateWork (work : Nat) (f : LockEntryNotificationWork → LockEntryNotificationWork)
    (s : LockGrants) : LockGrants :=
  { s with works := s.works.modify work f }

def setUnlock (lockDetails : EntryLockDetails) : EntryLockDetails :=
  { lockDetails with
    lockTypeFlags := (lockDetails.lockTypeFlags ||| LockTypeFlags.ENTRYLOCKTYPE_UNLOCK) &&&
      ~~~(LockTypeFlags.ENTRYLOCKTYPE_EXCLUSIVE ||| LockTypeFlags.ENTRYLOCKTYPE_SHARED |||
        LockTypeFlags.ENTRYLOCKTYPE_CANCEL) }

/-- Remove the lock of a waiter from which no acknowledgement came. -/
def unlockWaiter (call : EntryLockDetails) (work : Nat) (lockDetails : EntryLockDetails)
    (s : LockGrants) : LockGrants :=
  (s.updateWork work fun w => { w with waitAcks := w.waitAcks.erase lockDetails }).flockEntry call
    (setUnlock lockDetails)

def step (call : EntryLockDetails) (s : LockGrants) : LockGrantEvent → LockGrants
  | .sendRequest =>
    if s.phase = .requesting then { s with requests := s.attempt :: s.requests } else s
  | .requestFails requestRes =>
    if s.phase = .requesting ∧ requestRes ≠ .SUCCESS then { s with phase := .leaving requestRes }
    else s
  | .receiveResponse retVal =>
    if s.phase = .requesting ∧ (s.attempt, retVal) ∈ s.responses then s.handleResult call retVal
    else s
  | .waitEnds signalPending =>
    if s.phase = .waiting then s.waitForAckCompletion signalPending else s
  | .receiveGrant ackID =>
    if ackID ∈ s.grants then s.lockGrantedMsg ackID else s
  | .unregister =>
    match s.phase with
    | .leaving retVal => { s.unregisterWaitAcks with phase := .returned (s.result retVal) }
    | _ => s
  | .handleRequest attempt => if attempt ∈ s.requests then s.flockEntryMsg call attempt else s
  | .refuseRequest attempt clientResult =>
    if attempt ∈ s.requests ∧ clientResult ≠ .SUCCESS then
      { s with responses := (attempt, clientResult) :: s.responses }
    else s
  -- a `lockAckID` is globally unique
  | .otherRequest lockDetails =>
    if EntryRequest lockDetails ∧ lockDetails.lockAckID ≠ call.lockAckID then
      s.flockEntry call lockDetails
    else s
  | .sendGrant ackID =>
    match s.works[ackID.work]? with
    | some w =>
      if ackID.lockAckID ∈ w.notifyList.map EntryLockDetails.lockAckID then
        { s with grants := ackID :: s.grants }
      else s
    | none => s
  | .receiveAck ackID =>
    if ackID ∈ s.acks ∨ ackID.lockAckID ≠ call.lockAckID then
      s.updateWork ackID.work fun w =>
        if w.registered then
          { w with waitAcks := w.waitAcks.filter (fun l => l.lockAckID ≠ ackID.lockAckID) }
        else w
    else s
  | .ackWaitEnds work =>
    s.updateWork work fun w =>
      if w.registered then { w with registered := false, numMissing := w.waitAcks.elems.length }
      else w
  | .unlockWaiter work lockDetails =>
    match s.works[work]? with
    | some w =>
      if w.registered = false ∧ lockDetails ∈ w.waitAcks then
        s.unlockWaiter call work lockDetails
      else s
    | none => s
  | .cancelAllWaiters work =>
    match s.works[work]? with
    | some w =>
      if w.registered = false ∧ w.waitAcks.elems.isEmpty ∧ 1 < w.numMissing then
        { s with lockQs := flockEntryGenericCancelAllWaiters s.lockQs }
      else s
    | none => s
  | .inodeNotReferenced work =>
    s.updateWork work fun w => if w.registered then w else { w with waitAcks := .empty }

/-! ## Agreement -/

/-- A request of the kind that waits for its grant. -/
structure BlockingLock (call : EntryLockDetails) : Prop where
  request : EntryRequest call
  kind : call.lockTypeFlags.kind = .lock
  wait : call.allowsWaiting = true

def Failed (s : LockGrants) : Prop := ∃ retVal, s.phase = .returned retVal ∧ retVal ≠ .SUCCESS

/-- The server has granted the lock in its answer to a request. -/
def GrantedAtOnce (s : LockGrants) : Prop := ∃ p ∈ s.responses, p.2 = .SUCCESS

def Held (call : EntryLockDetails) (s : LockGrants) : Prop :=
  ∃ l, s.lockQs.Granted l ∧ l.lockAckID = call.lockAckID

/-- A work is going to take the lock of this call back. -/
def Pending (call : EntryLockDetails) (s : LockGrants) : Prop :=
  ∃ w ∈ s.works, ∃ l ∈ w.waitAcks, l.lockAckID = call.lockAckID

structure Agreement (call : EntryLockDetails) (s : LockGrants) : Prop where
  granted : s.phase = .returned .SUCCESS → s.hasGranted = true
  notAcknowledged : s.Failed → s.acks = []
  takenBack : s.Failed → s.Held call → s.Pending call

/-- The step is none of those that break the agreement: the call does not return an error after a
grant was acknowledged, unless it is interrupted, or after the server has granted the lock in an
answer that was lost; no request is granted at once after the call has returned an error; and the
server finds the inode to take the lock back. -/
def KeepsAgreement (call : EntryLockDetails) (s : LockGrants) : LockGrantEvent → Prop
  | .unregister => ∀ retVal, s.phase = .leaving retVal → retVal ≠ .SUCCESS →
      retVal = .INTERRUPTED ∧ s.receivedAcks.elems ≠ [] ∨
        s.receivedAcks.elems = [] ∧ ¬ s.GrantedAtOnce
  | .handleRequest _ => s.Failed → (flockEntryUnlocked call s.lockQs).immediatelyGranted = false
  | .inodeNotReferenced work => ∀ w, s.works[work]? = some w →
      ∀ l ∈ w.waitAcks, l.lockAckID ≠ call.lockAckID
  | _ => True

/-! ## What holds on the server -/

def OfCall (call l : EntryLockDetails) : Prop :=
  l.isSet = true → l.lockAckID = call.lockAckID → l = call

structure ServerInv (call : EntryLockDetails) (s : LockGrants) : Prop where
  own : OwnLocks s.lockQs
  ofCall : s.lockQs.Each (OfCall call)
  works : ∀ w ∈ s.works, ∀ l ∈ w.notifyList, OfCall call l ∧ l.isSet = true ∧
    (l.lockAckID = call.lockAckID → s.hasGranted = true)
  waitAcks : ∀ w ∈ s.works, ∀ l ∈ w.waitAcks, l ∈ w.notifyList

section Server

variable {call d : EntryLockDetails} {s : LockGrants}

theorem OfCall.of_ne (h : d.lockAckID ≠ call.lockAckID) : OfCall call d :=
  fun _ hSame => absurd hSame h

theorem ofCall_unset (l : EntryLockDetails) (_ : OfCall call l) : OfCall call l.unset := by
  intro hSet
  rw [EntryLockDetails.isSet_unset] at hSet
  exact nomatch hSet

variable {l : EntryLockDetails}

theorem mem_works_flockEntry {w : LockEntryNotificationWork} (h : w ∈ (s.flockEntry call d).works) :
    w ∈ s.works ∨ w = .new (flockEntryUnlocked d s.lockQs).notifyList := by
  change w ∈ if _ then s.works else s.works ++ [_] at h
  split at h
  · exact Or.inl h
  · exact (mem_append.mp h).imp_right mem_singleton.mp

theorem mem_works_flockEntry_of_mem {w : LockEntryNotificationWork} (h : w ∈ s.works) :
    w ∈ (s.flockEntry call d).works := by
  change w ∈ if _ then s.works else s.works ++ [_]
  split
  · exact h
  · exact mem_append_left _ h

theorem exists_work_of_notified (call : EntryLockDetails)
    (h : l ∈ (flockEntryUnlocked d s.lockQs).notifyList) :
    ∃ w ∈ (s.flockEntry call d).works, ∃ x ∈ w.waitAcks, x.lockAckID = l.lockAckID := by
  have hSome : ¬ (flockEntryUnlocked d s.lockQs).notifyList.isEmpty = true := by
    rw [List.isEmpty_iff]
    exact ne_nil_of_mem h
  refine ⟨.new (flockEntryUnlocked d s.lockQs).notifyList, ?_, OrderedSet.exists_key_foldl_insert h⟩
  change _ ∈ if _ then s.works else s.works ++ [_]
  rw [if_neg hSome]
  exact mem_append_right _ (mem_singleton_self _)

theorem ofCall_of_waiting {lockQs : EntryLockQueuesContainer} {w : EntryLockDetails}
    (h : lockQs.Each (OfCall call)) (hw : lockQs.Waiting w) : OfCall call w := by
  rcases hw with hw | hw
  · exact h.waitersExcl w hw
  · exact h.waitersShared w hw

theorem ServerInv.flockEntry (h : ServerInv call s) (hReq : EntryRequest d)
    (hOf : d.lockTypeFlags.kind = .lock → OfCall call d) :
    ServerInv call (s.flockEntry call d) := by
  have hReply := request_reply h.own hReq
  have hMono : s.hasGranted = true → (s.flockEntry call d).hasGranted = true := by
    intro hGranted
    show (s.hasGranted || _) = true
    rw [hGranted, Bool.true_or]
  refine ⟨hReply.own, h.ofCall.step ofCall_unset hOf, ?_, ?_⟩
  · intro w hw
    rcases mem_works_flockEntry hw with hw | rfl
    · intro l hl
      obtain ⟨hOf, hSet, hGranted⟩ := h.works w hw l hl
      exact ⟨hOf, hSet, fun hID => hMono (hGranted hID)⟩
    intro l hl
    have hWaited : OfCall call l ∧ l.isSet = true := by
      rcases hReply.waiting l hl with hWaiting | ⟨rfl, hKind⟩
      · exact ⟨ofCall_of_waiting h.ofCall hWaiting, h.own.isSet_of_waiting hWaiting⟩
      · exact ⟨hOf hKind, hReq.1⟩
    refine ⟨hWaited.1, hWaited.2, fun hID => ?_⟩
    have hIs := hReply.notified l hl
    rw [hWaited.1 hWaited.2 hID] at hIs
    show (_ || flockEntryIsGranted call _) = true
    rw [hIs, Bool.or_true]
  · intro w hw
    rcases mem_works_flockEntry hw with hw | rfl
    · exact h.waitAcks w hw
    · exact fun l hl => (mem_foldl_insert hl).resolve_left (not_mem_empty l)

section Works

variable {work : Nat} {f : LockEntryNotificationWork → LockEntryNotificationWork}
  {w : LockEntryNotificationWork}

theorem mem_works_updateWork (h : w ∈ (s.updateWork work f).works) :
    w ∈ s.works ∨ ∃ v ∈ s.works, s.works[work]? = some v ∧ w = f v := by
  obtain ⟨i, hi⟩ := mem_iff_getElem?.mp h
  change (s.works.modify work f)[i]? = some w at hi
  rw [getElem?_modify, Option.map_eq_map, Option.map_eq_some_iff] at hi
  obtain ⟨v, hv, hEq⟩ := hi
  have hIn := mem_of_getElem? hv
  by_cases hSame : work = i
  · rw [if_pos hSame] at hEq
    exact Or.inr ⟨v, hIn, hSame ▸ hv, hEq.symm⟩
  · rw [if_neg hSame] at hEq
    exact Or.inl (hEq ▸ hIn)

theorem mem_works_updateWork_of_mem (h : w ∈ s.works) :
    w ∈ (s.updateWork work f).works ∨
      s.works[work]? = some w ∧ f w ∈ (s.updateWork work f).works := by
  obtain ⟨i, hi⟩ := mem_iff_getElem?.mp h
  have hUpdated : (s.updateWork work f).works[i]? = some (if work = i then f w else w) := by
    show (s.works.modify work f)[i]? = _
    rw [getElem?_modify, hi]
    rfl
  have hIn := mem_of_getElem? hUpdated
  by_cases hSame : work = i
  · rw [if_pos hSame] at hIn
    exact Or.inr ⟨hSame ▸ hi, hIn⟩
  · rw [if_neg hSame] at hIn
    exact Or.inl hIn

theorem ServerInv.updateWork (h : ServerInv call s) (hList : ∀ w, (f w).notifyList = w.notifyList)
    (hForgets : ∀ w, ∀ l ∈ (f w).waitAcks, l ∈ w.waitAcks) :
    ServerInv call (s.updateWork work f) := by
  refine ⟨h.own, h.ofCall, fun w hw l hl => ?_, fun w hw l hl => ?_⟩
  · rcases mem_works_updateWork hw with hw | ⟨v, hv, -, rfl⟩
    · exact h.works w hw l hl
    · rw [hList] at hl
      exact h.works v hv l hl
  · rcases mem_works_updateWork hw with hw | ⟨v, hv, -, rfl⟩
    · exact h.waitAcks w hw l hl
    · rw [hList]
      exact h.waitAcks v hv l (hForgets v l hl)

end Works

theorem ServerInv.cancelAllWaiters (h : ServerInv call s) :
    ServerInv call { s with lockQs := flockEntryGenericCancelAllWaiters s.lockQs } :=
  ⟨⟨h.own.exclAlone, h.own.sharedSet, nofun, nofun, nofun⟩,
    ⟨h.ofCall.excl, h.ofCall.shared, nofun, nofun⟩, h.works, h.waitAcks⟩

/-! ## What becomes of a granted lock -/

/-- A request grants a lock of the call at once, or a work waits for the acknowledgement. -/
theorem held_flockEntry (h : ServerInv call s) (hReq : EntryRequest d)
    (hHeld : (s.flockEntry call d).Held call) :
    s.Held call ∨ (s.flockEntry call d).Pending call ∨
      d.lockAckID = call.lockAckID ∧ d.lockTypeFlags.kind = .lock ∧
        (flockEntryUnlocked d s.lockQs).immediatelyGranted = true := by
  obtain ⟨l, hl, hID⟩ := hHeld
  rcases (request_reply h.own hReq).granted l hl with hBefore | hNotified | ⟨rfl, hKind, hAtOnce⟩
  · exact Or.inl ⟨l, hBefore, hID⟩
  · obtain ⟨w, hw, x, hx, hSame⟩ := exists_work_of_notified call hNotified
    exact Or.inr (Or.inl ⟨w, hw, x, hx, hSame.trans hID⟩)
  · exact Or.inr (Or.inr ⟨hID, hKind, hAtOnce⟩)

theorem Pending.flockEntry (h : s.Pending call) : (s.flockEntry call d).Pending call := by
  obtain ⟨w, hw, l, hl, hID⟩ := h
  exact ⟨w, mem_works_flockEntry_of_mem hw, l, hl, hID⟩

theorem ofCall_of_granted {lockQs : EntryLockQueuesContainer}
    (h : lockQs.Each (OfCall call)) (hl : lockQs.Granted l) : OfCall call l := by
  rcases hl with ⟨-, rfl⟩ | hl
  · exact h.excl
  · exact h.shared l hl

theorem kind_setUnlock (l : EntryLockDetails) : (setUnlock l).lockTypeFlags.kind = .unlock := by
  have hCancel : (setUnlock l).lockTypeFlags &&& ENTRYLOCKTYPE_CANCEL = 0 := by
    unfold setUnlock
    rw [BitVec.and_assoc]
    exact BitVec.and_zero
  have hUnlock : (setUnlock l).lockTypeFlags &&& ENTRYLOCKTYPE_UNLOCK = ENTRYLOCKTYPE_UNLOCK := by
    unfold setUnlock
    rw [BitVec.and_assoc]
    show (l.lockTypeFlags ||| 1#32) &&& 1#32 = 1#32
    ext i hi
    simp only [BitVec.getElem_and, BitVec.getElem_or]
    cases (1#32)[i] <;> simp
  unfold kind isCancel isUnlock
  rw [hCancel, hUnlock]
  rfl

theorem entryRequest_setUnlock (h : l.isSet = true) : EntryRequest (setUnlock l) :=
  ⟨h, fun hLock => nomatch (kind_setUnlock l).symm.trans hLock⟩

theorem Pending.updateWork {work : Nat}
    {f : LockEntryNotificationWork → LockEntryNotificationWork} (h : s.Pending call)
    (hKeeps : ∀ w, s.works[work]? = some w → ∀ l ∈ w.waitAcks, l.lockAckID = call.lockAckID →
      l ∈ (f w).waitAcks) : (s.updateWork work f).Pending call := by
  obtain ⟨w, hw, l, hl, hID⟩ := h
  have hUpdated : w ∈ (s.updateWork work f).works ∨
      s.works[work]? = some w ∧ f w ∈ (s.updateWork work f).works := mem_works_updateWork_of_mem hw
  rcases hUpdated with hw | ⟨hWork, hw⟩
  · exact ⟨w, hw, l, hl, hID⟩
  · exact ⟨f w, hw, l, hKeeps w hWork l hl hID, hID⟩

theorem ServerInv.forget (h : ServerInv call s) (work : Nat) (d : EntryLockDetails) : ServerInv
    call (s.updateWork work fun w => { w with waitAcks := w.waitAcks.erase d }) :=
  h.updateWork (fun _ => rfl) fun _ _ hl => (mem_erase.mp hl).1

section Unlock

variable {work : Nat} {w : LockEntryNotificationWork} (h : ServerInv call s)
  (hWork : s.works[work]? = some w) (hd : d ∈ w.waitAcks)

include h hWork hd

theorem ServerInv.unlockWaiter : ServerInv call (s.unlockWaiter call work d) := by
  have hList := h.waitAcks w (mem_of_getElem? hWork) d hd
  have hSet := (h.works w (mem_of_getElem? hWork) d hList).2.1
  have hErased := h.forget work d
  refine hErased.flockEntry (entryRequest_setUnlock hSet) fun hLock => ?_
  exact nomatch (kind_setUnlock d).symm.trans hLock

/-- A missing acknowledgement of the call takes its lock back, or the handle is granted the lock
again in that moment and another work waits for the acknowledgement. -/
theorem pending_unlockWaiter (hID : d.lockAckID = call.lockAckID)
    (hHeld : (s.unlockWaiter call work d).Held call) :
    (s.unlockWaiter call work d).Pending call := by
  have hList := h.waitAcks w (mem_of_getElem? hWork) d hd
  obtain ⟨hOf, hSet, -⟩ := h.works w (mem_of_getElem? hWork) d hList
  have hErased := h.forget work d
  have hAfter := h.unlockWaiter hWork hd
  obtain ⟨l, hl, hSame⟩ := hHeld
  have hCall := ofCall_of_granted hAfter.ofCall hl (hAfter.own.isSet_of_granted hl) hSame
  have hHandle : l.handle = (setUnlock d).handle := by
    rw [hCall, ← hOf hSet hID]
    rfl
  have hNotified := (request_reply hErased.own (entryRequest_setUnlock hSet)).unlocked
    (kind_setUnlock d) l hl hHandle
  obtain ⟨v, hv, x, hx, hTicket⟩ := exists_work_of_notified call hNotified
  exact ⟨v, hv, x, hx, hTicket.trans hSame⟩

/-- A missing acknowledgement of another call leaves the lock of this one, and the works that wait
for its acknowledgement. -/
theorem held_unlockWaiter (hHeld : (s.unlockWaiter call work d).Held call) :
    (s.unlockWaiter call work d).Pending call ∨
      s.Held call ∧ (s.Pending call → (s.unlockWaiter call work d).Pending call) := by
  by_cases hID : d.lockAckID = call.lockAckID
  · exact Or.inl (pending_unlockWaiter h hWork hd hID hHeld)
  have hList := h.waitAcks w (mem_of_getElem? hWork) d hd
  have hSet := (h.works w (mem_of_getElem? hWork) d hList).2.1
  rcases held_flockEntry (h.forget work d) (entryRequest_setUnlock hSet) hHeld with
    hBefore | hPending | ⟨-, hLock, -⟩
  · refine Or.inr ⟨hBefore, fun hPending => Pending.flockEntry (hPending.updateWork ?_)⟩
    intro v _ l hl hOfCall
    exact mem_erase.mpr ⟨hl, fun hSame => hID (hSame.symm.trans hOfCall)⟩
  · exact Or.inl hPending
  · exact nomatch (kind_setUnlock d).symm.trans hLock

end Unlock

end Server

/-! ## What holds of the call -/

/-- The client's side of a step leaves the server alone. -/
structure SameServer (s t : LockGrants) : Prop where
  lockQs : t.lockQs = s.lockQs
  works : t.works = s.works
  hasGranted : t.hasGranted = s.hasGranted

section Client

variable {call : EntryLockDetails} {s t : LockGrants}

theorem ServerInv.client (h : ServerInv call s) (hSame : SameServer s t) : ServerInv call t := by
  obtain ⟨hOwn, hOf, hWorks, hWaitAcks⟩ := h
  rw [← hSame.lockQs] at hOwn hOf
  rw [← hSame.works, ← hSame.hasGranted] at hWorks
  rw [← hSame.works] at hWaitAcks
  exact ⟨hOwn, hOf, hWorks, hWaitAcks⟩

theorem sameServer_lockGrantedMsg (ackID : LockGrantAckID) :
    SameServer s (s.lockGrantedMsg ackID) := by
  unfold lockGrantedMsg receivedAck
  by_cases hStored : s.inStore = true
  · rw [if_pos hStored]
    by_cases hWaits : s.waitAcks.contains ackID.lockAckID = true
    · rw [if_pos hWaits, if_pos rfl]
      exact ⟨rfl, rfl, rfl⟩
    · rw [if_neg hWaits, if_neg Bool.false_ne_true]
      exact ⟨rfl, rfl, rfl⟩
  · rw [if_neg hStored, if_neg Bool.false_ne_true]
    exact ⟨rfl, rfl, rfl⟩

theorem sameServer_handleResult (retVal : FhgfsOpsErr) :
    SameServer s (s.handleResult call retVal) := by
  unfold handleResult
  split <;> exact ⟨rfl, rfl, rfl⟩

theorem sameServer_waitForAckCompletion (signalPending : Bool) :
    SameServer s (s.waitForAckCompletion signalPending) := by
  unfold waitForAckCompletion
  split
  · exact ⟨rfl, rfl, rfl⟩
  · split <;> exact ⟨rfl, rfl, rfl⟩

theorem sameServer_unregister (phase : CallPhase) :
    SameServer s { s.unregisterWaitAcks with phase := phase } := by
  unfold unregisterWaitAcks
  split <;> exact ⟨rfl, rfl, rfl⟩

end Client

structure CallInv (s : LockGrants) (lockAckID : String) : Prop where
  grants : ∀ k ∈ s.grants, k.lockAckID = lockAckID → s.hasGranted = true
  received : s.receivedAcks.elems ≠ [] → s.hasGranted = true
  waits : s.waitAcks.elems = [] → s.receivedAcks.elems ≠ []
  ofCall : ∀ ackID ∈ s.waitAcks, ackID = lockAckID
  answered : s.GrantedAtOnce → s.hasGranted = true
  success : s.phase = .leaving .SUCCESS ∨ s.phase = .returned .SUCCESS → s.hasGranted = true
  acks : s.acks ≠ [] → s.receivedAcks.elems ≠ []
  stored : s.inStore = true → s.waitAcks.elems ≠ [] ∧ ∀ retVal, s.phase ≠ .returned retVal

structure Inv (call : EntryLockDetails) (s : LockGrants) : Prop where
  server : ServerInv call s
  client : CallInv s call.lockAckID

section Steps

variable {call d : EntryLockDetails} {s : LockGrants} {lockAckID : String}

theorem inv_init (call junk : EntryLockDetails) : Inv call (init call junk) where
  server := by
    refine ⟨OwnLocks.init junk, ⟨?_, ?_, nofun, nofun⟩, nofun, nofun⟩
    · intro hSet
      change junk.unset.isSet = true at hSet
      rw [EntryLockDetails.isSet_unset] at hSet
      exact nomatch hSet
    · exact fun l hl => absurd hl (not_mem_empty l)
  client := by
    refine ⟨nofun, (absurd rfl ·), fun h => ?_, ?_, nofun, nofun, (absurd rfl ·), ?_⟩
    · exact absurd h (cons_ne_nil _ _)
    · intro ackID hIn
      rcases mem_insert.mp hIn with hIn | ⟨hEq, -⟩
      · exact absurd hIn (not_mem_empty ackID)
      · exact hEq
    · exact fun _ => ⟨cons_ne_nil _ _, nofun⟩

section

variable (h : CallInv s lockAckID)
include h

theorem CallInv.flockEntry (call d : EntryLockDetails) :
    CallInv (s.flockEntry call d) lockAckID := by
  have hMono : s.hasGranted = true → (s.flockEntry call d).hasGranted = true := by
    intro hGranted
    show (s.hasGranted || _) = true
    rw [hGranted, Bool.true_or]
  exact ⟨fun k hk hID => hMono (h.grants k hk hID), fun hAcks => hMono (h.received hAcks), h.waits,
    h.ofCall, fun hAnswered => hMono (h.answered hAnswered),
    fun hPhase => hMono (h.success hPhase), h.acks, h.stored⟩

theorem CallInv.server (lockQs : EntryLockQueuesContainer)
    (works : List LockEntryNotificationWork) :
    CallInv { s with lockQs := lockQs, works := works } lockAckID :=
  ⟨h.grants, h.received, h.waits, h.ofCall, h.answered, h.success, h.acks, h.stored⟩

theorem CallInv.phase {phase : CallPhase} (attempt : Nat)
    (hSuccess : phase = .leaving .SUCCESS → s.hasGranted = true)
    (hReturned : ∀ retVal, phase ≠ .returned retVal) :
    CallInv { s with phase := phase, attempt := attempt } lockAckID :=
  ⟨h.grants, h.received, h.waits, h.ofCall, h.answered,
    fun hPhase => hSuccess (hPhase.resolve_right (hReturned _)), h.acks,
    fun hStored => ⟨(h.stored hStored).1, hReturned⟩⟩

theorem CallInv.sent {requests : List Nat}
    {responses : List (Nat × FhgfsOpsErr)} {grants : List LockGrantAckID}
    (hAnswered : (∃ p ∈ responses, p.2 = .SUCCESS) → s.hasGranted = true)
    (hGrants : ∀ k ∈ grants, k.lockAckID = lockAckID → s.hasGranted = true) :
    CallInv { s with requests := requests, responses := responses, grants := grants } lockAckID :=
  ⟨hGrants, h.received, h.waits, h.ofCall, hAnswered, h.success, h.acks, h.stored⟩

end

variable {retVal : FhgfsOpsErr}

section

variable (h : CallInv s lockAckID)
include h

theorem CallInv.handleResult (hAnswered : (s.attempt, retVal) ∈ s.responses) :
    CallInv (s.handleResult call retVal) lockAckID := by
  unfold LockGrants.handleResult
  split
  · exact h.phase s.attempt nofun nofun
  · refine h.phase s.attempt (fun hSuccess => ?_) nofun
    exact h.answered ⟨_, hAnswered, CallPhase.leaving.inj hSuccess⟩

theorem CallInv.waitForAckCompletion (signalPending : Bool) :
    CallInv (s.waitForAckCompletion signalPending) lockAckID := by
  unfold LockGrants.waitForAckCompletion
  split
  · rename_i hEmpty
    exact h.phase s.attempt (fun _ => h.received (h.waits (isEmpty_iff.mp hEmpty))) nofun
  · split
    · exact h.phase (s.attempt + 1) nofun nofun
    · exact h.phase s.attempt nofun nofun

theorem CallInv.lockGrantedMsg {ackID : LockGrantAckID}
    (hSent : ackID ∈ s.grants) : CallInv (s.lockGrantedMsg ackID) lockAckID := by
  unfold LockGrants.lockGrantedMsg receivedAck
  by_cases hStored : s.inStore = true
  · rw [if_pos hStored]
    by_cases hWaits : s.waitAcks.contains ackID.lockAckID = true
    · rw [if_pos hWaits, if_pos rfl]
      obtain ⟨waited, hWaited, hSame⟩ := contains_iff.mp hWaits
      have hGranted := h.grants ackID hSent (hSame.symm.trans (h.ofCall _ hWaited))
      have hReceived : (s.receivedAcks.insert ackID.lockAckID).elems ≠ [] := by
        obtain ⟨_, hIn, -⟩ := exists_key_foldl_insert (s := s.receivedAcks)
          (mem_singleton_self ackID.lockAckID)
        exact ne_nil_of_mem hIn
      refine ⟨h.grants, fun _ => hGranted, fun _ => hReceived, ?_, h.answered, h.success,
        fun _ => hReceived, nofun⟩
      exact fun other hOther => h.ofCall other (mem_erase.mp hOther).1
    · rw [if_neg hWaits, if_neg Bool.false_ne_true]
      exact ⟨h.grants, h.received, h.waits, h.ofCall, h.answered, h.success, h.acks, nofun⟩
  · rwa [if_neg hStored, if_neg Bool.false_ne_true]

theorem CallInv.unregister (hPhase : s.phase = .leaving retVal) :
    CallInv { s.unregisterWaitAcks with phase := .returned (s.result retVal) } lockAckID := by
  have hSuccess : s.result retVal = .SUCCESS → s.hasGranted = true := by
    unfold result
    intro hResult
    split at hResult
    · rename_i hInterrupted
      refine h.received fun hEmpty => ?_
      rw [hEmpty] at hInterrupted
      exact nomatch hInterrupted.2
    · exact h.success (Or.inl (hResult ▸ hPhase))
  have hReturned : (CallPhase.returned (s.result retVal) = .leaving .SUCCESS ∨
      CallPhase.returned (s.result retVal) = .returned .SUCCESS) → s.hasGranted = true := by
    rintro (hLeaving | hReturned)
    · nomatch hLeaving
    · exact hSuccess (CallPhase.returned.inj hReturned)
  unfold unregisterWaitAcks
  split
  · rename_i hEmpty
    refine ⟨h.grants, h.received, h.waits, h.ofCall, h.answered, hReturned, h.acks, ?_⟩
    intro hStored
    exact absurd (isEmpty_iff.mp hEmpty) (h.stored hStored).1
  · exact ⟨h.grants, h.received, h.waits, h.ofCall, h.answered, hReturned, h.acks, nofun⟩

end

theorem Inv.flockEntryMsg (hCall : BlockingLock call) (h : Inv call s) (attempt : Nat) :
    Inv call (s.flockEntryMsg call attempt) := by
  have hServer := h.server.flockEntry hCall.request fun _ _ _ => rfl
  have hClient := h.client.flockEntry call call
  refine ⟨hServer.client ⟨rfl, rfl, rfl⟩, hClient.sent ?_ hClient.grants⟩
  rintro ⟨p, hp, hSuccess⟩
  rcases mem_cons.mp hp with rfl | hp
  · have hAtOnce : (flockEntryUnlocked call s.lockQs).immediatelyGranted = true := by
      by_contra hNot
      rw [if_neg hNot] at hSuccess
      nomatch hSuccess
    have hIs := (request_reply h.server.own hCall.request).immediately hCall.kind hAtOnce
    show (s.hasGranted || flockEntryIsGranted call _) = true
    rw [hIs, Bool.or_true]
  · exact hClient.answered ⟨p, hp, hSuccess⟩

theorem inv_step (hCall : BlockingLock call) (h : Inv call s) (e : LockGrantEvent) :
    Inv call (step call s e) := by
  cases e with
  | sendRequest =>
    dsimp only [step]
    split
    · exact ⟨h.server.client ⟨rfl, rfl, rfl⟩, h.client.sent h.client.answered h.client.grants⟩
    · exact h
  | requestFails requestRes =>
    dsimp only [step]
    split
    · rename_i hFails
      refine ⟨h.server.client ⟨rfl, rfl, rfl⟩, h.client.phase s.attempt (fun hSuccess => ?_) nofun⟩
      exact absurd (CallPhase.leaving.inj hSuccess) hFails.2
    · exact h
  | receiveResponse retVal =>
    dsimp only [step]
    split
    · rename_i hResponse
      exact ⟨h.server.client (sameServer_handleResult retVal), h.client.handleResult hResponse.2⟩
    · exact h
  | waitEnds signalPending =>
    dsimp only [step]
    split
    · exact ⟨h.server.client (sameServer_waitForAckCompletion signalPending),
        h.client.waitForAckCompletion signalPending⟩
    · exact h
  | receiveGrant ackID =>
    dsimp only [step]
    split
    · rename_i hSent
      exact ⟨h.server.client (sameServer_lockGrantedMsg ackID), h.client.lockGrantedMsg hSent⟩
    · exact h
  | unregister =>
    dsimp only [step]
    split
    · rename_i retVal hPhase
      exact ⟨h.server.client (sameServer_unregister _), h.client.unregister hPhase⟩
    · exact h
  | handleRequest attempt =>
    dsimp only [step]
    split
    · exact h.flockEntryMsg hCall attempt
    · exact h
  | refuseRequest attempt clientResult =>
    dsimp only [step]
    split
    · rename_i hRefused
      refine ⟨h.server.client ⟨rfl, rfl, rfl⟩, h.client.sent ?_ h.client.grants⟩
      rintro ⟨p, hp, hSuccess⟩
      rcases mem_cons.mp hp with rfl | hp
      · exact absurd hSuccess hRefused.2
      · exact h.client.answered ⟨p, hp, hSuccess⟩
    · exact h
  | otherRequest lockDetails =>
    dsimp only [step]
    split
    · rename_i hOther
      exact ⟨h.server.flockEntry hOther.1 fun _ => OfCall.of_ne hOther.2,
        h.client.flockEntry call lockDetails⟩
    · exact h
  | sendGrant ackID =>
    dsimp only [step]
    split
    · rename_i w hWork
      split
      · rename_i hNotified
        refine ⟨h.server.client ⟨rfl, rfl, rfl⟩, h.client.sent h.client.answered ?_⟩
        intro k hk hID
        rcases mem_cons.mp hk with rfl | hk
        · obtain ⟨l, hl, hSame⟩ := mem_map.mp hNotified
          exact (h.server.works w (mem_of_getElem? hWork) l hl).2.2 (hSame.trans hID)
        · exact h.client.grants k hk hID
      · exact h
    · exact h
  | receiveAck ackID =>
    dsimp only [step]
    split
    · refine ⟨h.server.updateWork (fun w => ?_) (fun w l hl => ?_), h.client.server _ _⟩
      · split <;> rfl
      · split at hl
        · exact (OrderedSet.mem_filter.mp hl).1
        · exact hl
    · exact h
  | ackWaitEnds work =>
    refine ⟨h.server.updateWork (fun w => ?_) (fun w l hl => ?_), h.client.server _ _⟩
    · split <;> rfl
    · split at hl <;> exact hl
  | unlockWaiter work lockDetails =>
    dsimp only [step]
    split
    · rename_i w hWork
      split
      · rename_i hMissing
        exact ⟨h.server.unlockWaiter hWork hMissing.2,
          (h.client.server _ _).flockEntry call (setUnlock lockDetails)⟩
      · exact h
    · exact h
  | cancelAllWaiters work =>
    dsimp only [step]
    split
    · split
      · exact ⟨h.server.cancelAllWaiters, h.client.server _ _⟩
      · exact h
    · exact h
  | inodeNotReferenced work =>
    refine ⟨h.server.updateWork (fun w => ?_) (fun w l hl => ?_), h.client.server _ _⟩
    · split <;> rfl
    · split at hl
      · exact hl
      · exact absurd hl (OrderedSet.not_mem_empty l)

/-! ## What holds without the steps that break the agreement -/

/-- A lock of the call was granted in an answer, or acknowledged, or is going to be taken back. The
first two are not the case when the call has returned an error. -/
structure Agreed (call : EntryLockDetails) (s : LockGrants) : Prop where
  held : s.Held call → s.GrantedAtOnce ∨ s.Pending call ∨ s.acks ≠ []
  failed : s.Failed → s.acks = [] ∧ ¬ s.GrantedAtOnce

variable {t : LockGrants}

section

variable (h : Agreed call s)
include h

theorem Agreed.client (hSame : SameServer s t)
    (hAnswered : s.GrantedAtOnce → t.GrantedAtOnce) (hAcks : s.acks ≠ [] → t.acks ≠ [])
    (hFailed : t.Failed → t.acks = [] ∧ ¬ t.GrantedAtOnce) : Agreed call t := by
  refine ⟨fun hHeld => ?_, hFailed⟩
  unfold Held at hHeld
  rw [hSame.lockQs] at hHeld
  unfold Pending
  rw [hSame.works]
  exact (h.held hHeld).imp hAnswered (Or.imp_right hAcks)

theorem Agreed.server (hPhase : t.phase = s.phase)
    (hResponses : t.responses = s.responses) (hAcks : t.acks = s.acks)
    (hHeld : t.Held call → t.Pending call ∨
      s.Held call ∧ (s.Pending call → t.Pending call ∨ s.acks ≠ [])) : Agreed call t := by
  refine ⟨fun hAfter => ?_, ?_⟩
  · unfold GrantedAtOnce
    rw [hResponses, hAcks]
    rcases hHeld hAfter with hPending | ⟨hBefore, hKeeps⟩
    · exact Or.inr (Or.inl hPending)
    · rcases h.held hBefore with hAnswered | hPending | hAcked
      · exact Or.inl hAnswered
      · exact Or.inr (hKeeps hPending)
      · exact Or.inr (Or.inr hAcked)
  · unfold Failed GrantedAtOnce
    rw [hPhase, hAcks, hResponses]
    exact h.failed

theorem Agreed.updateWork {work : Nat} {f : LockEntryNotificationWork → LockEntryNotificationWork}
    (hKeeps : s.acks = [] → ∀ w, s.works[work]? = some w → ∀ l ∈ w.waitAcks,
      l.lockAckID = call.lockAckID → l ∈ (f w).waitAcks) : Agreed call (s.updateWork work f) := by
  refine h.server rfl rfl rfl fun hHeld => Or.inr ⟨hHeld, fun hPending => ?_⟩
  by_cases hAcks : s.acks = []
  · exact Or.inl (hPending.updateWork (hKeeps hAcks))
  · exact Or.inr hAcks

theorem Agreed.otherRequest (hServer : ServerInv call s)
    (hReq : EntryRequest d) (hOther : d.lockAckID ≠ call.lockAckID) :
    Agreed call (s.flockEntry call d) := by
  refine h.server rfl rfl rfl fun hHeld => ?_
  rcases held_flockEntry hServer hReq hHeld with hBefore | hPending | ⟨hSame, -⟩
  · exact Or.inr ⟨hBefore, fun hPending => Or.inl hPending.flockEntry⟩
  · exact Or.inl hPending
  · exact absurd hSame hOther

/-- A request of the call itself, which is not granted at once when the call has returned an
error. -/
theorem Agreed.flockEntryMsg (hServer : ServerInv call s)
    (hCall : BlockingLock call) (attempt : Nat)
    (hLate : s.Failed → (flockEntryUnlocked call s.lockQs).immediatelyGranted = false) :
    Agreed call (s.flockEntryMsg call attempt) := by
  have hBefore : s.GrantedAtOnce → (s.flockEntryMsg call attempt).GrantedAtOnce :=
    fun ⟨p, hp, hSuccess⟩ => ⟨p, mem_cons_of_mem _ hp, hSuccess⟩
  refine ⟨fun hHeld => ?_, fun hFailed => ⟨(h.failed hFailed).1, ?_⟩⟩
  · rcases held_flockEntry hServer hCall.request hHeld with hHeld | hPending | ⟨-, -, hAtOnce⟩
    · exact (h.held hHeld).imp hBefore (Or.imp_left Pending.flockEntry)
    · exact Or.inr (Or.inl hPending)
    · refine Or.inl ⟨_, mem_cons_self, ?_⟩
      exact if_pos hAtOnce
  · rintro ⟨p, hp, hSuccess⟩
    rcases mem_cons.mp hp with rfl | hp
    · dsimp only at hSuccess
      rw [hLate hFailed, if_neg Bool.false_ne_true] at hSuccess
      nomatch hSuccess
    · exact (h.failed hFailed).2 ⟨p, hp, hSuccess⟩

theorem Agreed.lockGrantedMsg (hClient : CallInv s lockAckID)
    (ackID : LockGrantAckID) : Agreed call (s.lockGrantedMsg ackID) := by
  have hSame := sameServer_lockGrantedMsg (s := s) ackID
  unfold LockGrants.lockGrantedMsg receivedAck at hSame ⊢
  by_cases hStored : s.inStore = true
  · rw [if_pos hStored] at hSame ⊢
    have hRuns : ¬ s.Failed := fun ⟨retVal, hPhase, _⟩ => (hClient.stored hStored).2 retVal hPhase
    by_cases hWaits : s.waitAcks.contains ackID.lockAckID = true
    · rw [if_pos hWaits, if_pos rfl] at hSame ⊢
      exact h.client hSame id (fun _ => cons_ne_nil _ _) fun hFailed => absurd hFailed hRuns
    · rw [if_neg hWaits, if_neg Bool.false_ne_true] at hSame ⊢
      exact h.client hSame id id fun hFailed => absurd hFailed hRuns
  · rwa [if_neg hStored, if_neg Bool.false_ne_true]

theorem Agreed.unregister (hClient : CallInv s lockAckID)
    (hKeeps : retVal ≠ .SUCCESS → retVal = .INTERRUPTED ∧ s.receivedAcks.elems ≠ [] ∨
        s.receivedAcks.elems = [] ∧ ¬ s.GrantedAtOnce) :
    Agreed call { s.unregisterWaitAcks with phase := .returned (s.result retVal) } := by
  have hSame := sameServer_unregister (s := s) (.returned (s.result retVal))
  have hAcks : s.unregisterWaitAcks.acks = s.acks := by
    unfold unregisterWaitAcks
    split <;> rfl
  have hResponses : s.unregisterWaitAcks.responses = s.responses := by
    unfold unregisterWaitAcks
    split <;> rfl
  refine h.client hSame (fun hAnswered => ?_) (fun hAcked => ?_) ?_
  · unfold GrantedAtOnce
    rwa [hResponses]
  · rwa [← hAcks] at hAcked
  · rintro ⟨_, hReturned, hError⟩
    have hResult : s.result retVal ≠ .SUCCESS := by
      rwa [CallPhase.returned.inj hReturned]
    have hNotGranted : s.receivedAcks.elems = [] ∧ ¬ s.GrantedAtOnce := by
      refine (hKeeps fun hSuccess => hResult ?_).resolve_left fun hInterrupted => hResult ?_
      · unfold result
        rw [hSuccess]
        split <;> rfl
      · unfold result
        refine if_pos ⟨hInterrupted.1, ?_⟩
        rw [Bool.not_eq_true', isEmpty_eq_false_iff]
        exact hInterrupted.2
    unfold GrantedAtOnce
    rw [hResponses]
    refine ⟨hAcks.trans ?_, hNotGranted.2⟩
    by_contra hAcked
    exact hClient.acks hAcked hNotGranted.1

theorem Agreed.phase {phase : CallPhase} (attempt : Nat)
    (hRuns : ∀ retVal, phase ≠ .returned retVal) :
    Agreed call { s with phase := phase, attempt := attempt } :=
  h.client ⟨rfl, rfl, rfl⟩ id id fun ⟨retVal, hReturned, _⟩ => absurd hReturned (hRuns retVal)

end

theorem agreed_init (call junk : EntryLockDetails) : Agreed call (init call junk) := by
  refine ⟨?_, fun ⟨_, hReturned, _⟩ => nomatch hReturned⟩
  rintro ⟨l, ⟨hSet, -⟩ | hShared, -⟩
  · change junk.unset.isSet = true at hSet
    rw [EntryLockDetails.isSet_unset] at hSet
    exact nomatch hSet
  · exact absurd hShared (not_mem_empty l)

theorem agreed_step (hCall : BlockingLock call) (hInv : Inv call s) (h : Agreed call s)
    (e : LockGrantEvent) (hKeeps : KeepsAgreement call s e) : Agreed call (step call s e) := by
  cases e with
  | sendRequest =>
    dsimp only [step]
    split
    · exact h.client ⟨rfl, rfl, rfl⟩ id id h.failed
    · exact h
  | requestFails requestRes =>
    dsimp only [step]
    split
    · exact h.phase s.attempt nofun
    · exact h
  | receiveResponse retVal =>
    dsimp only [step]
    split
    · unfold handleResult
      split <;> exact h.phase s.attempt nofun
    · exact h
  | waitEnds signalPending =>
    dsimp only [step]
    split
    · unfold waitForAckCompletion
      split
      · exact h.phase s.attempt nofun
      · split
        · exact h.phase (s.attempt + 1) nofun
        · exact h.phase s.attempt nofun
    · exact h
  | receiveGrant ackID =>
    dsimp only [step]
    split
    · exact h.lockGrantedMsg hInv.client ackID
    · exact h
  | unregister =>
    dsimp only [step]
    split
    · rename_i retVal hPhase
      exact h.unregister hInv.client (hKeeps retVal hPhase)
    · exact h
  | handleRequest attempt =>
    dsimp only [step]
    split
    · exact h.flockEntryMsg hInv.server hCall attempt hKeeps
    · exact h
  | refuseRequest attempt clientResult =>
    dsimp only [step]
    split
    · rename_i hRefused
      refine h.client ⟨rfl, rfl, rfl⟩ (fun ⟨p, hp, hSuccess⟩ => ?_) id fun hFailed => ?_
      · exact ⟨p, mem_cons_of_mem _ hp, hSuccess⟩
      · refine ⟨(h.failed hFailed).1, fun ⟨p, hp, hSuccess⟩ => ?_⟩
        rcases mem_cons.mp hp with rfl | hp
        · exact hRefused.2 hSuccess
        · exact (h.failed hFailed).2 ⟨p, hp, hSuccess⟩
    · exact h
  | otherRequest lockDetails =>
    dsimp only [step]
    split
    · rename_i hOther
      exact h.otherRequest hInv.server hOther.1 hOther.2
    · exact h
  | sendGrant ackID =>
    dsimp only [step]
    split
    · split
      · exact h.client ⟨rfl, rfl, rfl⟩ id id h.failed
      · exact h
    · exact h
  | receiveAck ackID =>
    dsimp only [step]
    split
    · rename_i hAck
      refine h.updateWork fun hAcks w _ l hl hID => ?_
      have hOther : ackID.lockAckID ≠ call.lockAckID := by
        refine hAck.resolve_left fun hIn => ?_
        rw [hAcks] at hIn
        exact absurd hIn not_mem_nil
      split
      · refine OrderedSet.mem_filter.mpr ⟨hl, decide_eq_true ?_⟩
        exact fun hSame => hOther (hSame.symm.trans hID)
      · exact hl
    · exact h
  | ackWaitEnds work =>
    refine h.updateWork fun _ w _ l hl _ => ?_
    split <;> exact hl
  | unlockWaiter work lockDetails =>
    dsimp only [step]
    split
    · rename_i w hWork
      split
      · rename_i hMissing
        refine h.server rfl rfl rfl fun hHeld => ?_
        exact (held_unlockWaiter hInv.server hWork hMissing.2 hHeld).imp_right
          (And.imp_right fun hPending hBefore => Or.inl (hPending hBefore))
      · exact h
    · exact h
  | cancelAllWaiters work =>
    dsimp only [step]
    split
    · split
      · exact h.server rfl rfl rfl fun hHeld => Or.inr ⟨hHeld, Or.inl⟩
      · exact h
    · exact h
  | inodeNotReferenced work =>
    refine h.updateWork fun _ w hWork l hl hID => ?_
    exact absurd hID (hKeeps w hWork l hl)

end Steps

/-! ## Whole runs -/

theorem Agreed.agreement {call : EntryLockDetails} {s : LockGrants} (h : Agreed call s)
    (hClient : CallInv s call.lockAckID) : Agreement call s where
  granted hReturned := hClient.success (Or.inr hReturned)
  notAcknowledged hFailed := (h.failed hFailed).1
  takenBack hFailed hHeld := by
    obtain ⟨hAcks, hAnswered⟩ := h.failed hFailed
    exact ((h.held hHeld).resolve_left hAnswered).resolve_right fun hAcked => hAcked hAcks

/-- A client that is told of success has got the lock. -/
theorem success_granted {call : EntryLockDetails} (hCall : BlockingLock call)
    (junk : EntryLockDetails) (is : List LockGrantEvent) : Run.Throughout (step call)
      (fun s => s.phase = .returned .SUCCESS → s.hasGranted = true) (init call junk) is := by
  refine Run.throughout_of_invariant (step call) (I := Inv call) (A := fun _ _ => True)
    (fun s h hReturned => h.client.success (Or.inr hReturned))
    (fun s e h _ => inv_step hCall h e) (inv_init call junk) ?_
  exact Run.everyStep_of_forall (step call) fun _ _ _ => trivial

/-- Client and server agree in all runs without the steps that `KeepsAgreement` excludes. -/
theorem agreement_of_keepsAgreement {call : EntryLockDetails} (hCall : BlockingLock call)
    (junk : EntryLockDetails) (is : List LockGrantEvent)
    (hKeeps : Run.EveryStep (step call) (KeepsAgreement call) (init call junk) is) :
    Run.Throughout (step call) (Agreement call) (init call junk) is := by
  refine Run.throughout_of_invariant (step call) (I := fun s => Inv call s ∧ Agreed call s)
    (fun s h => h.2.agreement h.1.client) (fun s e h hStep => ?_)
    ⟨inv_init call junk, agreed_init call junk⟩ hKeeps
  exact ⟨inv_step hCall h.1 e, agreed_step hCall h.1 h.2 e hStep⟩

def exclusiveLock (clientID : String) : EntryLockDetails where
  clientID := clientID
  clientFD := 0
  ownerPID := 0
  lockAckID := clientID
  lockTypeFlags := LockTypeFlags.ENTRYLOCKTYPE_EXCLUSIVE

def unlock (clientID : String) : EntryLockDetails :=
  { exclusiveLock clientID with lockTypeFlags := LockTypeFlags.ENTRYLOCKTYPE_UNLOCK }

/-- The lock of another client is in the way of the request. The call is interrupted, and the grant
comes too late. -/
def interrupted : List LockGrantEvent :=
  [.otherRequest (exclusiveLock "client2"), .sendRequest, .handleRequest 0,
    .receiveResponse .WOULDBLOCK, .waitEnds true, .unregister, .otherRequest (unlock "client2"),
    .sendGrant ⟨0, "client1"⟩, .receiveGrant ⟨0, "client1"⟩, .ackWaitEnds 0,
    .unlockWaiter 0 (exclusiveLock "client1")]

theorem success_granted_interrupted : Run.Throughout (step (exclusiveLock "client1"))
    (fun s => s.phase = .returned .SUCCESS → s.hasGranted = true)
    (init (exclusiveLock "client1") (exclusiveLock "client1")) interrupted :=
  success_granted ⟨by decide, by decide, by decide⟩ _ interrupted

theorem agreement_interrupted : Run.Throughout (step (exclusiveLock "client1"))
    (Agreement (exclusiveLock "client1"))
    (init (exclusiveLock "client1") (exclusiveLock "client1")) interrupted := by
  refine agreement_of_keepsAgreement ⟨by decide, by decide, by decide⟩ _ interrupted ?_
  have hRequesting : (Run.after (step (exclusiveLock "client1"))
      (init (exclusiveLock "client1") (exclusiveLock "client1"))
      (interrupted.take 2)).phase = .requesting := by decide
  simp only [interrupted, Run.EveryStep, KeepsAgreement, and_true, true_and]
  constructor
  · rintro ⟨_, hReturned, -⟩
    nomatch hRequesting.symm.trans hReturned
  · refine fun _ _ _ => Or.inr ⟨by decide, ?_⟩
    unfold GrantedAtOnce
    decide

/-- After the waiting has timed out the grant is received and acknowledged, and then the next
request fails. -/
def grantedBeforeError : List LockGrantEvent :=
  [.otherRequest (exclusiveLock "client2"), .sendRequest, .handleRequest 0,
    .receiveResponse .WOULDBLOCK, .waitEnds false, .otherRequest (unlock "client2"),
    .sendGrant ⟨0, "client1"⟩, .receiveGrant ⟨0, "client1"⟩, .requestFails .COMMUNICATION,
    .unregister]

/-- The call returns the error of the request, and the client has acknowledged the grant. -/
theorem not_lockGrants_agree :
    ¬ ∀ (call junk : EntryLockDetails) (is : List LockGrantEvent), BlockingLock call →
      Run.Throughout (step call) (Agreement call) (init call junk) is := by
  intro h
  have hRun := h (exclusiveLock "client1") (exclusiveLock "client1") grantedBeforeError
    ⟨by decide, by decide, by decide⟩
  have hLast := (Run.throughout_iff (step (exclusiveLock "client1"))).mp hRun 10
  have hReturned : (Run.after (step (exclusiveLock "client1"))
      (init (exclusiveLock "client1") (exclusiveLock "client1"))
      (grantedBeforeError.take 10)).phase = .returned .COMMUNICATION := by decide
  have hAcks := hLast.notAcknowledged ⟨.COMMUNICATION, hReturned, by decide⟩
  revert hAcks
  decide

end LockGrants

end Fhgfs.Locking
