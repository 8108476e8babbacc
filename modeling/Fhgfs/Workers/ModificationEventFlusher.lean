import Fhgfs.Lib.Holdings
import Fhgfs.Lib.Run

/-!
# Modification events for fsck

During an online check, the workers of a metadata server log what they change, and the flusher
sends the events to fsck in messages that fsck acknowledges. When fsck disables the logging, the
answer tells it whether events were missed. `disableResponse_reliable` has the condition for this
answer to be right: a batch may still be on its way when the answer is built, and the stall of
the workers clears events without a notice whenever its wait ends below the count. A worker that
counts ends it as well as a second does.

* `step_inv`: the invariant. The stall of the workers waits until they have finished the works
  that they began before, so none of them adds an event afterwards (`Disabled.logs_eq_false`).
-/

namespace Fhgfs.Workers

open Function Run List Finset Option

/-- The type is the byte that is sent. -/
structure ModificationEvent where
  eventType : UInt8
  entryID : String
deriving DecidableEq

def MODFLUSHER_MAXSIZE_EVENTLIST : Nat := 10000
def MODFLUSHER_SEND_AT_ONCE : Nat := 10

structure FsckModificationEventMsg where
  modificationEventTypeList : List UInt8
  entryIDList : List String
  eventsMissed : Bool
deriving DecidableEq

/-- The events of two lists that run in parallel. -/
def pairEvents (eventTypes : List UInt8) (entryIDs : List String) : List ModificationEvent :=
  List.zipWith ModificationEvent.mk eventTypes entryIDs

def FsckModificationEventMsg.events (msg : FsckModificationEventMsg) : List ModificationEvent :=
  pairEvents msg.modificationEventTypeList msg.entryIDList

/-- What fsck gets as the answer of `FsckSetEventLoggingMsg`. -/
structure FsckSetEventLoggingRespMsg where
  result : Bool
  loggingEnabled : Bool
  missedEvents : Bool
deriving DecidableEq

/-! ## The flusher -/

/-- Without the address of fsck, which is always set. -/
structure ModificationEventFlusher where
  eventTypeBufferList : List UInt8
  entryIDBufferList : List String
  loggingEnabled : Bool
  numLoggingWorkers : Nat
  fsckMissedEvent : Bool
deriving DecidableEq

namespace ModificationEventFlusher

def new : ModificationEventFlusher := ⟨[], [], false, 0, false⟩

variable (f : ModificationEventFlusher)

def push (event : ModificationEvent) : ModificationEventFlusher :=
  { f with
    eventTypeBufferList := f.eventTypeBufferList ++ [event.eventType]
    entryIDBufferList := f.entryIDBufferList ++ [event.entryID] }

def clear : ModificationEventFlusher :=
  { f with eventTypeBufferList := [], entryIDBufferList := [] }

def splice : FsckModificationEventMsg × ModificationEventFlusher :=
  (⟨f.eventTypeBufferList.take MODFLUSHER_SEND_AT_ONCE,
      f.entryIDBufferList.take MODFLUSHER_SEND_AT_ONCE, f.fsckMissedEvent⟩,
    { f with
      eventTypeBufferList := f.eventTypeBufferList.drop MODFLUSHER_SEND_AT_ONCE
      entryIDBufferList := f.entryIDBufferList.drop MODFLUSHER_SEND_AT_ONCE })

def enables (forceRestart : Bool) : Bool :=
  forceRestart || !f.loggingEnabled

def enable : ModificationEventFlusher :=
  { f.clear with loggingEnabled := true, fsckMissedEvent := false }

def pending : List ModificationEvent :=
  pairEvents f.eventTypeBufferList f.entryIDBufferList

end ModificationEventFlusher

/-! ## The threads -/

/-- What a worker does. A work that logs events has read `loggingEnabled` before. -/
inductive WorkerStage
  | waiting
  | working (modEventLoggingEnabled : Bool)
  /-- In `add`, waiting for room. -/
  | adding (event : ModificationEvent)
  /-- In `add`, after the list had room. -/
  | pushing (event : ModificationEvent)
  /-- In `enableLogging`, after the part under the mutex. -/
  | enabling
  | enabled (loggingEnabled : Bool)
  /-- In `disableLoggingLocally`, after `loggingEnabled` is zero. -/
  | disabling
  | disabled (result : Bool)
deriving DecidableEq

namespace WorkerStage

def logs : WorkerStage → Bool
  | working modEventLoggingEnabled => modEventLoggingEnabled
  | adding _ => true
  | pushing _ => true
  | _ => false

/-- A request to disable the logging is processed. -/
def disables : WorkerStage → Bool
  | disabling => true
  | disabled _ => true
  | _ => false

end WorkerStage

/-- What the thread of the flusher does. A batch is `current` if no check was started since it was
taken. -/
inductive SenderStage
  | waiting
  | sending (current : Bool) (msg : FsckModificationEventMsg)
  /-- Before `fsckMissedEvent` is set. -/
  | notAcknowledged (current : Bool) (msg : FsckModificationEventMsg)
  | missed
  /-- In `disableLoggingLocally`, after `loggingEnabled` is zero. -/
  | disabling
deriving DecidableEq

namespace SenderStage

/-- The events of this check that are on their way. -/
def unreported : SenderStage → List ModificationEvent
  | sending true msg => msg.events
  | notAcknowledged true msg => msg.events
  | _ => []

def outdated : SenderStage → SenderStage
  | sending _ msg => sending false msg
  | notAcknowledged _ msg => notAcknowledged false msg
  | stage => stage

end SenderStage

/-- A thread that can stall the workers: a worker, or the flusher. -/
abbrev StallingThread (ι : Type) := Option ι

/-- The flusher, the workers `ι`, and the history of the check. -/
structure EventLogging (ι : Type) where
  flusher : ModificationEventFlusher
  worker : ι → WorkerStage
  sender : SenderStage
  /-- In a `stallAllWorkers`, the workers that have no work for the counter yet. -/
  stall : StallingThread ι → Option (Finset ι)
  notified : StallingThread ι → Nat
  /-- The works in the personal queues, by the thread whose counter they increase. -/
  personalQ : ι → List (StallingThread ι)
  /-- The events that were added since the logging was enabled. -/
  logged : List ModificationEvent
  /-- The messages with these events that fsck acknowledged. -/
  acknowledged : List FsckModificationEventMsg

inductive LoggingCall (ι : Type)
  | startWork (w : ι)
  | isLoggingEnabled (w : ι)
  | add (w : ι) (event : ModificationEvent)
  | findRoom (w : ι)
  | push (w : ι)
  | endWork (w : ι)
  | incCount (w : ι)
  | enableLogging (w : ι) (forceRestart : Bool)
  | countLoggingWorkers (w : ι)
  | enableResponse (w : ι)
  | disableLogging (w : ι)
  | checkEmpty (w : ι)
  | disableResponse (w : ι)
  | addPersonalWork (t : StallingThread ι) (w : ι)
  | stallFlush (t : StallingThread ι)
  | stallDone (t : StallingThread ι)
  | sendToFsck
  | ack (received : Bool)
  | setMissed
  | stopLogging
  | loggingStopped
deriving DecidableEq

namespace EventLogging

variable {ι : Type}

def start : EventLogging ι where
  flusher := .new
  worker _ := .waiting
  sender := .waiting
  stall _ := none
  notified _ := 0
  personalQ _ := []
  logged := []
  acknowledged := []

section Steps

variable [Fintype ι] [DecidableEq ι]

def goTo (s : EventLogging ι) (w : ι) (stage : WorkerStage) : EventLogging ι :=
  { s with worker := update s.worker w stage }

/-- The workers that `stallAllWorkers` notifies: all but the caller. -/
def others : StallingThread ι → Finset ι
  | some w => Finset.univ.erase w
  | none => Finset.univ

def stallAllWorkers (s : EventLogging ι) (t : StallingThread ι) : EventLogging ι :=
  { s with
    stall := update s.stall t (some (others t))
    notified := update s.notified t 0 }

/-- Only the stalls that disable the logging clear the buffers. -/
def flushes (s : EventLogging ι) : StallingThread ι → Bool
  | some w => s.worker w == .disabling
  | none => s.sender == .disabling

/-! ### The steps of a worker -/

def startWork (s : EventLogging ι) (w : ι) : EventLogging ι :=
  if s.worker w = .waiting then s.goTo w (.working false) else s

def isLoggingEnabled (s : EventLogging ι) (w : ι) : EventLogging ι :=
  match s.worker w with
  | .working _ => s.goTo w (.working s.flusher.loggingEnabled)
  | _ => s

def add (s : EventLogging ι) (w : ι) (event : ModificationEvent) : EventLogging ι :=
  if s.worker w = .working true then s.goTo w (.adding event) else s

/-- Without room, the worker waits and looks again. -/
def findRoom (s : EventLogging ι) (w : ι) : EventLogging ι :=
  match s.worker w with
  | .adding event =>
    if s.flusher.eventTypeBufferList.length < MODFLUSHER_MAXSIZE_EVENTLIST then
      s.goTo w (.pushing event)
    else s
  | _ => s

def push (s : EventLogging ι) (w : ι) : EventLogging ι :=
  match s.worker w with
  | .pushing event =>
    { s.goTo w (.working true) with
      flusher := s.flusher.push event
      logged := event :: s.logged }
  | _ => s

def endWork (s : EventLogging ι) (w : ι) : EventLogging ι :=
  match s.worker w with
  | .working _ => s.goTo w .waiting
  | _ => s

/-- `IncSyncedCounterWork::process`, by a worker that has finished its work. -/
def incCount (s : EventLogging ι) (w : ι) : EventLogging ι :=
  match s.worker w, s.personalQ w with
  | .waiting, t :: works =>
    { s with
      personalQ := update s.personalQ w works
      notified := update s.notified t (s.notified t + 1) }
  | _, _ => s

/-! ### The requests of fsck -/

def enableLogging (s : EventLogging ι) (w : ι) (forceRestart : Bool) : EventLogging ι :=
  if s.worker w = .waiting then
    if s.flusher.enables forceRestart then
      { (s.goTo w .enabling).stallAllWorkers (some w) with
        flusher := s.flusher.enable
        sender := s.sender.outdated
        logged := []
        acknowledged := [] }
    else s.goTo w (.enabled false)
  else s

def countLoggingWorkers (s : EventLogging ι) (w : ι) : EventLogging ι :=
  if s.worker w = .enabling ∧ s.stall (some w) = none then
    { s.goTo w (.enabled true) with
      flusher := { s.flusher with numLoggingWorkers := Fintype.card ι } }
  else s

/-- The answer to the request of the worker. The flags that are ignored have their values from the
source. -/
def response (s : EventLogging ι) (w : ι) : Option FsckSetEventLoggingRespMsg :=
  match s.worker w with
  | .enabled loggingEnabled =>
    some ⟨s.flusher.numLoggingWorkers == Fintype.card ι, loggingEnabled, true⟩
  | .disabled result => some ⟨result, false, s.flusher.fsckMissedEvent⟩
  | _ => none

def enableResponse (s : EventLogging ι) (w : ι) : EventLogging ι :=
  match s.worker w with
  | .enabled _ => s.goTo w .waiting
  | _ => s

def disableLogging (s : EventLogging ι) (w : ι) : EventLogging ι :=
  if s.worker w = .waiting then
    { (s.goTo w .disabling).stallAllWorkers (some w) with
      flusher := { s.flusher with loggingEnabled := false } }
  else s

def checkEmpty (s : EventLogging ι) (w : ι) : EventLogging ι :=
  if s.worker w = .disabling ∧ s.stall (some w) = none then
    { s.goTo w (.disabled s.flusher.eventTypeBufferList.isEmpty) with
      flusher := { s.flusher with numLoggingWorkers := 0 } }
  else s

def disableResponse (s : EventLogging ι) (w : ι) : EventLogging ι :=
  match s.worker w with
  | .disabled _ => s.goTo w .waiting
  | _ => s

/-! ### Stalling the workers -/

def addPersonalWork (s : EventLogging ι) (t : StallingThread ι) (w : ι) : EventLogging ι :=
  match s.stall t with
  | some rest =>
    if w ∈ rest then
      { s with
        stall := update s.stall t (some (rest.erase w))
        personalQ := update s.personalQ w (s.personalQ w ++ [t]) }
    else s
  | none => s

/-- `timedWaitForCount` returns false: a second has passed, or a worker has counted that was not
the last one. -/
def stallFlush (s : EventLogging ι) (t : StallingThread ι) : EventLogging ι :=
  if s.stall t = some ∅ ∧ s.flushes t = true then { s with flusher := s.flusher.clear } else s

def stallDone (s : EventLogging ι) (t : StallingThread ι) : EventLogging ι :=
  if s.stall t = some ∅ ∧ s.notified t = (others t).card then
    { s with stall := update s.stall t none }
  else s

/-! ### The steps of the flusher -/

/-- The lists may have been cleared since the flusher found them not empty. -/
def sendToFsck (s : EventLogging ι) : EventLogging ι :=
  if s.sender = .waiting then
    { s with
      sender := .sending true s.flusher.splice.1
      flusher := s.flusher.splice.2 }
  else s

def ack (s : EventLogging ι) (received : Bool) : EventLogging ι :=
  match s.sender with
  | .sending current msg =>
    if received then
      { s with
        sender := .waiting
        acknowledged := if current then msg :: s.acknowledged else s.acknowledged }
    else { s with sender := .notAcknowledged current msg }
  | _ => s

def setMissed (s : EventLogging ι) : EventLogging ι :=
  match s.sender with
  | .notAcknowledged _ _ =>
    { s with sender := .missed, flusher := { s.flusher with fsckMissedEvent := true } }
  | _ => s

def stopLogging (s : EventLogging ι) : EventLogging ι :=
  if s.sender = .missed then
    { s.stallAllWorkers none with
      sender := .disabling
      flusher := { s.flusher with loggingEnabled := false } }
  else s

def loggingStopped (s : EventLogging ι) : EventLogging ι :=
  if s.sender = .disabling ∧ s.stall none = none then
    { s with sender := .waiting, flusher := { s.flusher with numLoggingWorkers := 0 } }
  else s

def step (s : EventLogging ι) : LoggingCall ι → EventLogging ι
  | .startWork w => s.startWork w
  | .isLoggingEnabled w => s.isLoggingEnabled w
  | .add w event => s.add w event
  | .findRoom w => s.findRoom w
  | .push w => s.push w
  | .endWork w => s.endWork w
  | .incCount w => s.incCount w
  | .enableLogging w forceRestart => s.enableLogging w forceRestart
  | .countLoggingWorkers w => s.countLoggingWorkers w
  | .enableResponse w => s.enableResponse w
  | .disableLogging w => s.disableLogging w
  | .checkEmpty w => s.checkEmpty w
  | .disableResponse w => s.disableResponse w
  | .addPersonalWork t w => s.addPersonalWork t w
  | .stallFlush t => s.stallFlush t
  | .stallDone t => s.stallDone t
  | .sendToFsck => s.sendToFsck
  | .ack received => s.ack received
  | .setMissed => s.setMissed
  | .stopLogging => s.stopLogging
  | .loggingStopped => s.loggingStopped

/-! ## Reliable answers -/

/-- All events of the check were in messages that fsck acknowledged. -/
def Reported (s : EventLogging ι) : Prop :=
  s.logged.Subperm (s.acknowledged.flatMap FsckModificationEventMsg.events)

/-- An answer that no events were missed is right. -/
def Reliable (s : EventLogging ι) : LoggingCall ι → Prop
  | .disableResponse w => s.response w = some ⟨true, false, false⟩ → s.Reported
  | _ => True

/-- The logging is not enabled while it is being disabled, a flush does not discard events unless
fsck will learn that some were missed, and no batch is on its way when the answer is built. -/
def Calm (s : EventLogging ι) : LoggingCall ι → Prop
  | .enableLogging _ forceRestart =>
    s.flusher.enables forceRestart = true → ∀ w, (s.worker w).disables = false
  | .stallFlush t =>
    s.flushes t = true → s.flusher.eventTypeBufferList = [] ∨ s.flusher.fsckMissedEvent = true
  | .disableResponse _ => s.sender.unreported = []
  | _ => True

end Steps

/-! ## Every event is somewhere -/

theorem pairEvents_take_append_drop (n : Nat) (eventTypes : List UInt8) (entryIDs : List String) :
    pairEvents (eventTypes.take n) (entryIDs.take n) ++
      pairEvents (eventTypes.drop n) (entryIDs.drop n) = pairEvents eventTypes entryIDs := by
  unfold pairEvents
  rw [← take_zipWith, ← drop_zipWith, take_append_drop]

theorem pairEvents_concat {eventTypes : List UInt8} {entryIDs : List String}
    (h : eventTypes.length = entryIDs.length) (event : ModificationEvent) :
    pairEvents (eventTypes ++ [event.eventType]) (entryIDs ++ [event.entryID]) =
      pairEvents eventTypes entryIDs ++ [event] := by
  unfold pairEvents
  rw [zipWith_append h]
  rfl

def events (s : EventLogging ι) :=
  (s.flusher.eventTypeBufferList, s.flusher.entryIDBufferList, s.flusher.fsckMissedEvent,
    s.sender.unreported, s.logged, s.acknowledged)

/-- The lists are parallel, and unless fsck will learn that events were missed, each is in an
acknowledged message, on its way, or in the buffers. -/
structure Accounted (s : EventLogging ι) : Prop where
  paired : s.flusher.eventTypeBufferList.length = s.flusher.entryIDBufferList.length
  balance : s.flusher.fsckMissedEvent = false → s.logged.Perm
    (s.acknowledged.flatMap FsckModificationEventMsg.events ++ s.sender.unreported ++
      s.flusher.pending)

variable {s s' : EventLogging ι} {t : StallingThread ι} {w : ι}

section

variable (h : Accounted s)
include h

theorem Accounted.of_events (hSame : s'.events = s.events) : Accounted s' := by
  simp only [events, Prod.mk.injEq] at hSame
  obtain ⟨hTypes, hIDs, hMissed, hUnreported, hLogged, hAcknowledged⟩ := hSame
  constructor
  · rw [hTypes, hIDs]
    exact h.paired
  · intro hNot
    rw [ModificationEventFlusher.pending, hTypes, hIDs, hUnreported, hLogged, hAcknowledged]
    exact h.balance (hMissed ▸ hNot)

theorem Accounted.sendToFsck : Accounted s.sendToFsck := by
  unfold EventLogging.sendToFsck
  split
  · rename_i hWaiting
    constructor
    · show (drop _ _).length = (drop _ _).length
      rw [length_drop, length_drop, h.paired]
    · intro hNot
      have hBalance := h.balance hNot
      rw [hWaiting] at hBalance
      change s.logged.Perm (_ ++ [] ++ _) at hBalance
      have hSplit : s.flusher.splice.1.events ++ s.flusher.splice.2.pending = s.flusher.pending :=
        pairEvents_take_append_drop _ _ _
      show s.logged.Perm (_ ++ s.flusher.splice.1.events ++ s.flusher.splice.2.pending)
      rw [append_assoc, hSplit]
      rwa [append_nil] at hBalance
  · exact h

theorem Accounted.ack (received : Bool) : Accounted (s.ack received) := by
  unfold EventLogging.ack
  split
  · rename_i current msg hSending
    cases received with
    | false =>
      apply h.of_events
      rw [if_neg Bool.false_ne_true, events, events, hSending]
      cases current <;> rfl
    | true =>
      rw [if_pos rfl]
      refine ⟨h.paired, fun hNot => ?_⟩
      have hBalance := h.balance hNot
      rw [hSending] at hBalance
      cases current with
      | false => exact hBalance
      | true =>
        show s.logged.Perm ((msg :: s.acknowledged).flatMap _ ++ [] ++ _)
        rw [flatMap_cons, append_nil]
        apply hBalance.trans
        exact perm_append_comm.append_right _
  · exact h

theorem Accounted.setMissed : Accounted s.setMissed := by
  unfold EventLogging.setMissed
  split
  · exact ⟨h.paired, nofun⟩
  · exact h

end

section Accounting

variable [DecidableEq ι]

theorem worker_goTo (stage : WorkerStage) (v : ι) :
    (s.goTo w stage).worker v = update s.worker w stage v := rfl

theorem Accounted.push (h : Accounted s) : Accounted (s.push w) := by
  unfold EventLogging.push
  split
  · rename_i event _
    constructor
    · show (_ ++ [_]).length = (_ ++ [_]).length
      rw [length_append, length_append, h.paired]
      rfl
    · intro hNot
      have hPending : (s.flusher.push event).pending = s.flusher.pending ++ [event] :=
        pairEvents_concat h.paired event
      show (event :: s.logged).Perm (_ ++ (s.flusher.push event).pending)
      rw [hPending, ← append_assoc]
      exact ((h.balance hNot).cons event).trans (perm_append_singleton event _).symm
  · exact h

theorem Accounted.stallFlush (h : Accounted s) (hCalm : s.Calm (.stallFlush t)) :
    Accounted (s.stallFlush t) := by
  unfold EventLogging.stallFlush
  split_ifs with hFlush
  · refine ⟨rfl, fun hNot => ?_⟩
    have hEmpty := (hCalm hFlush.2).resolve_right (Bool.eq_false_iff.mp hNot)
    have hPending : s.flusher.pending = [] := by
      rw [ModificationEventFlusher.pending, hEmpty]
      rfl
    have hBalance := h.balance hNot
    rwa [hPending] at hBalance
  · exact h

variable [Fintype ι]

theorem Accounted.enableLogging (h : Accounted s) (forceRestart : Bool) :
    Accounted (s.enableLogging w forceRestart) := by
  unfold EventLogging.enableLogging
  split_ifs
  · refine ⟨rfl, fun _ => ?_⟩
    have hOutdated : s.sender.outdated.unreported = [] := by
      cases s.sender <;> rfl
    show Perm [] ([] ++ s.sender.outdated.unreported ++ [])
    rw [hOutdated]
    exact List.Perm.refl []
  · exact h.of_events rfl
  · exact h

theorem step_accounted (h : Accounted s) (call : LoggingCall ι) (hCalm : s.Calm call) :
    Accounted (s.step call) := by
  cases call with
  | push w => exact h.push
  | enableLogging w forceRestart => exact h.enableLogging forceRestart
  | stallFlush t => exact h.stallFlush hCalm
  | sendToFsck => exact h.sendToFsck
  | ack received => exact h.ack received
  | setMissed => exact h.setMissed
  | stopLogging =>
    apply h.of_events
    show s.stopLogging.events = _
    unfold EventLogging.stopLogging
    split
    · rename_i hMissed
      rw [events, events, hMissed]
      rfl
    · rfl
  | loggingStopped =>
    apply h.of_events
    show s.loggingStopped.events = _
    unfold EventLogging.loggingStopped
    split
    · rename_i hStopped
      rw [events, events, hStopped.1]
      rfl
    · rfl
  -- these steps change no list of events
  | startWork w => exact h.of_events (by simp only [step, startWork]; split <;> rfl)
  | isLoggingEnabled w => exact h.of_events (by simp only [step, isLoggingEnabled]; split <;> rfl)
  | add w event => exact h.of_events (by simp only [step, add]; split <;> rfl)
  | findRoom w =>
    apply h.of_events
    simp only [step, findRoom]
    split
    · split <;> rfl
    · rfl
  | endWork w => exact h.of_events (by simp only [step, endWork]; split <;> rfl)
  | incCount w => exact h.of_events (by simp only [step, incCount]; split <;> rfl)
  | countLoggingWorkers w =>
    exact h.of_events (by simp only [step, countLoggingWorkers]; split <;> rfl)
  | enableResponse w => exact h.of_events (by simp only [step, enableResponse]; split <;> rfl)
  | disableLogging w => exact h.of_events (by simp only [step, disableLogging]; split <;> rfl)
  | checkEmpty w => exact h.of_events (by simp only [step, checkEmpty]; split <;> rfl)
  | disableResponse w => exact h.of_events (by simp only [step, disableResponse]; split <;> rfl)
  | addPersonalWork t w =>
    apply h.of_events
    simp only [step, addPersonalWork]
    split
    · split <;> rfl
    · rfl
  | stallDone t => exact h.of_events (by simp only [step, stallDone]; split <;> rfl)

end Accounting

/-! ## While the logging is disabled -/

/-- While the logging is disabled, a worker whose work may still log has not processed the work
for the counter. Buffers that were found empty are empty. -/
structure Disabled (s : EventLogging ι) : Prop where
  off : ∀ w, (s.worker w).disables = true → s.flusher.loggingEnabled = false
  barrier : ∀ w, (s.worker w).disables = true → ∀ v, (s.worker v).logs = true →
    v ∈ (s.stall (some w)).getD ∅ ∨ some w ∈ s.personalQ v
  empty : ∀ w, s.worker w = .disabled true → s.flusher.eventTypeBufferList = []

theorem Disabled.of_none (h : ∀ w, (s.worker w).disables = false) : Disabled s where
  off w hDisables := absurd hDisables (Bool.eq_false_iff.mp (h w))
  barrier w hDisables := absurd hDisables (Bool.eq_false_iff.mp (h w))
  empty w hDisabled := absurd (h w) (by rw [hDisabled]; exact Bool.noConfusion)

section

variable (h : Disabled s) (hWorker : s'.worker = s.worker)
  (hOff : s.flusher.loggingEnabled = false → s'.flusher.loggingEnabled = false)
  (hEmpty : s.flusher.eventTypeBufferList = [] → s'.flusher.eventTypeBufferList = [])
include h hWorker hOff hEmpty

theorem Disabled.of_frame (hBarrier : ∀ w v, (s.worker v).logs = true → v ∈ (s.stall (some w)).getD
      ∅ ∨ some w ∈ s.personalQ v → v ∈ (s'.stall (some w)).getD ∅ ∨ some w ∈ s'.personalQ v) :
    Disabled s' := by
  constructor
  · intro w hDisables
    rw [hWorker] at hDisables
    exact hOff (h.off w hDisables)
  · intro w hDisables v hLogs
    rw [hWorker] at hDisables hLogs
    exact hBarrier w v hLogs (h.barrier w hDisables v hLogs)
  · intro w hDisabled
    rw [hWorker] at hDisabled
    exact hEmpty (h.empty w hDisabled)

theorem Disabled.of_flusher (hStall : s'.stall = s.stall) (hQueues : s'.personalQ = s.personalQ) :
    Disabled s' := by
  apply h.of_frame hWorker hOff hEmpty
  intro w v _ hIn
  rwa [hStall, hQueues]

end

section Invariant

variable [DecidableEq ι]

variable {stage : WorkerStage}

section

variable (h : Disabled s)
include h

theorem Disabled.goTo (hStage : stage.disables = false)
    (hLogs : stage.logs = true → (s.worker w).logs = true) : Disabled (s.goTo w stage) := by
  have hOther : ∀ v, ((s.goTo w stage).worker v).disables = true →
      (s.goTo w stage).worker v = s.worker v := by
    intro v hDisables
    apply update_of_ne
    rintro rfl
    rw [worker_goTo, update_self, hStage] at hDisables
    cases hDisables
  constructor
  · intro v hDisables
    exact h.off v (hOther v hDisables ▸ hDisables)
  · intro v hDisables v' hLogs'
    apply h.barrier v (hOther v hDisables ▸ hDisables)
    by_cases hSame : v' = w
    · subst hSame
      rw [worker_goTo, update_self] at hLogs'
      exact hLogs hLogs'
    · rwa [worker_goTo, update_of_ne hSame] at hLogs'
  · intro v hDisabled
    apply h.empty v
    rw [← hOther v (by rw [hDisabled]; rfl)]
    exact hDisabled

theorem Disabled.isLoggingEnabled (w : ι) : Disabled (s.isLoggingEnabled w) := by
  unfold EventLogging.isLoggingEnabled
  split
  · cases hEnabled : s.flusher.loggingEnabled with
    | false => exact h.goTo rfl nofun
    | true =>
      apply Disabled.of_none
      intro v
      rw [worker_goTo, update_apply]
      split
      · rfl
      · rw [Bool.eq_false_iff]
        intro hDisables
        rw [h.off v hDisables] at hEnabled
        cases hEnabled
  · exact h

theorem Disabled.incCount (w : ι) : Disabled (s.incCount w) := by
  unfold EventLogging.incCount
  split
  · rename_i t works hWaiting hQueue
    refine h.of_frame rfl id id fun w' v hLogs hIn => ?_
    have hNe : v ≠ w := by
      rintro rfl
      rw [hWaiting] at hLogs
      cases hLogs
    show _ ∨ some w' ∈ update s.personalQ w works v
    rwa [update_of_ne hNe]
  · exact h

theorem Disabled.checkEmpty (w : ι) : Disabled (s.checkEmpty w) := by
  unfold EventLogging.checkEmpty
  split
  · rename_i hStage
    have hDisabling : (s.worker w).disables = true := by
      rw [hStage.1]
      rfl
    have hBefore : ∀ v, (update s.worker w (.disabled s.flusher.eventTypeBufferList.isEmpty)
        v).disables = true → (s.worker v).disables = true := by
      intro v hDisables
      by_cases hSame : v = w
      · exact hSame ▸ hDisabling
      · rwa [update_of_ne hSame] at hDisables
    constructor
    · exact fun v hDisables => h.off v (hBefore v hDisables)
    · intro v hDisables v' hLogs
      apply h.barrier v (hBefore v hDisables)
      have hNe : v' ≠ w := by
        rintro rfl
        change (update s.worker v' _ v').logs = true at hLogs
        rw [update_self] at hLogs
        cases hLogs
      exact (congrArg WorkerStage.logs (update_of_ne hNe _ _)).symm.trans hLogs
    · intro v hDisabled
      by_cases hSame : v = w
      · have hEmpty := (update_self _ _ _).symm.trans (hSame ▸ hDisabled)
        exact isEmpty_iff.mp (WorkerStage.disabled.inj hEmpty)
      · exact h.empty v ((update_of_ne hSame _ _).symm.trans hDisabled)
  · exact h

theorem Disabled.addPersonalWork (t : StallingThread ι) (w : ι) :
    Disabled (s.addPersonalWork t w) := by
  unfold EventLogging.addPersonalWork
  split
  · rename_i rest hRest
    split
    · refine h.of_frame rfl id id fun w' v _ hIn => ?_
      show v ∈ (update s.stall t (some (rest.erase w)) (some w')).getD ∅ ∨
        some w' ∈ update s.personalQ w (s.personalQ w ++ [t]) v
      by_cases hWorker : v = w
      · subst hWorker
        rw [update_self, List.mem_append, List.mem_singleton]
        by_cases hSame : some w' = t
        · exact Or.inr (Or.inr hSame)
        · rw [update_of_ne hSame]
          exact hIn.imp_right Or.inl
      · rw [update_of_ne hWorker]
        by_cases hSame : some w' = t
        · subst hSame
          rw [hRest] at hIn
          rw [update_self]
          exact hIn.imp_left fun hMem => Finset.mem_erase.mpr ⟨hWorker, hMem⟩
        · rwa [update_of_ne hSame]
    · exact h
  · exact h

end

variable [Fintype ι]

/-! ## Stalled workers -/

/-- The thread is in a function that stalls the workers. -/
def stalls (s : EventLogging ι) : StallingThread ι → Bool
  | some w => s.worker w == .enabling || s.worker w == .disabling
  | none => s.sender == .disabling

/-- The works for the counter of the thread that have not been processed. -/
def queued (s : EventLogging ι) (t : StallingThread ι) : Nat :=
  ∑ v, (s.personalQ v).count t

/-- In a stall, every other worker is still to be notified, has the work in its queue, or has
processed it. -/
structure Stalls (s : EventLogging ι) : Prop where
  caller : ∀ t, s.stall t ≠ none → s.stalls t = true
  quiet : ∀ t, s.stall t = none → s.queued t = 0
  counted : ∀ t rest, s.stall t = some rest →
    s.notified t + rest.card + s.queued t = (others t).card

section

variable (h : Stalls s)
include h

theorem Stalls.stall_eq_none (hNot : s.stalls t = false) : s.stall t = none := by
  by_contra hStall
  rw [h.caller t hStall] at hNot
  cases hNot

theorem Stalls.stall_waiting (hStage : s.worker w = stage)
    (hNot : stage ≠ .enabling ∧ stage ≠ .disabling) : s.stall (some w) = none := by
  apply h.stall_eq_none
  rw [stalls, hStage, Bool.or_eq_false_iff]
  exact ⟨beq_eq_false_iff_ne.mpr hNot.1, beq_eq_false_iff_ne.mpr hNot.2⟩

theorem Stalls.of_same (hStall : s'.stall = s.stall)
    (hNotified : s'.notified = s.notified) (hQueues : s'.personalQ = s.personalQ)
    (hCaller : ∀ t, s.stall t ≠ none → s.stalls t = true → s'.stalls t = true) : Stalls s' := by
  have hQueued : ∀ t, s'.queued t = s.queued t := by
    intro t
    rw [queued, queued, hQueues]
  constructor
  · intro t ht
    rw [hStall] at ht
    exact hCaller t ht (h.caller t ht)
  · intro t ht
    rw [hStall] at ht
    rw [hQueued, h.quiet t ht]
  · intro t rest ht
    rw [hStall] at ht
    rw [hQueued, hNotified, h.counted t rest ht]

theorem Stalls.goTo (hNone : s.stall (some w) = none) (stage : WorkerStage) :
    Stalls (s.goTo w stage) := by
  refine h.of_same rfl rfl rfl fun t ht hCaller => ?_
  cases t with
  | none => exact hCaller
  | some v =>
    have hNe : v ≠ w := fun hSame => ht (hSame ▸ hNone)
    simp only [stalls, EventLogging.goTo, update_of_ne hNe]
    exact hCaller

theorem Stalls.begin (hNone : s.stall t = none)
    (hStall : s'.stall = update s.stall t (some (others t)))
    (hNotified : s'.notified = update s.notified t 0) (hQueues : s'.personalQ = s.personalQ)
    (hHere : s'.stalls t = true)
    (hCaller : ∀ t', t' ≠ t → s.stalls t' = true → s'.stalls t' = true) : Stalls s' := by
  have hQueued : ∀ t, s'.queued t = s.queued t := by
    intro t
    rw [queued, queued, hQueues]
  constructor
  · intro t' ht
    by_cases hSame : t' = t
    · rwa [hSame]
    · rw [hStall, update_of_ne hSame] at ht
      exact hCaller t' hSame (h.caller t' ht)
  · intro t' ht
    by_cases hSame : t' = t
    · rw [hSame, hStall, update_self] at ht
      cases ht
    · rw [hStall, update_of_ne hSame] at ht
      rw [hQueued, h.quiet t' ht]
  · intro t' rest ht
    by_cases hSame : t' = t
    · subst hSame
      rw [hStall, update_self] at ht
      rw [hQueued, hNotified, update_self, h.quiet t' hNone, ← some.inj ht]
      omega
    · rw [hStall, update_of_ne hSame] at ht
      rw [hQueued, hNotified, update_of_ne hSame, h.counted t' rest ht]

theorem Stalls.incCount (w : ι) : Stalls (s.incCount w) := by
  unfold EventLogging.incCount
  split
  · rename_i t works _ hQueue
    have hQueued : ∀ t', ∑ v, (update s.personalQ w works v).count t' +
        (if t = t' then 1 else 0) = s.queued t' := by
      intro t'
      have hSum := Holdings.sum_update (count t') s.personalQ w works
      rw [hQueue, count_cons] at hSum
      simp only [beq_iff_eq] at hSum
      rw [queued]
      omega
    constructor
    · exact h.caller
    · intro t' ht
      have hHere := hQueued t'
      rw [h.quiet t' ht] at hHere
      show ∑ v, (update s.personalQ w works v).count t' = 0
      omega
    · intro t' rest ht
      have hHere := hQueued t'
      have hCount := h.counted t' rest ht
      show update s.notified t (s.notified t + 1) t' + rest.card +
        ∑ v, (update s.personalQ w works v).count t' = _
      by_cases hSame : t = t'
      · subst hSame
        rw [if_pos rfl] at hHere
        rw [update_self]
        omega
      · rw [if_neg hSame] at hHere
        rw [update_of_ne (Ne.symm hSame)]
        omega
  · exact h

theorem Stalls.addPersonalWork (t : StallingThread ι) (w : ι) : Stalls (s.addPersonalWork t w) := by
  unfold EventLogging.addPersonalWork
  split
  · rename_i rest hRest
    split
    · rename_i hMem
      have hQueued : ∀ t', ∑ v, (update s.personalQ w (s.personalQ w ++ [t]) v).count t' =
          s.queued t' + if t = t' then 1 else 0 := by
        intro t'
        have hSum := Holdings.sum_update (count t') s.personalQ w (s.personalQ w ++ [t])
        rw [count_append, count_singleton] at hSum
        simp only [beq_iff_eq] at hSum
        rw [queued]
        omega
      have hCard := card_erase_add_one hMem
      constructor
      · intro t' ht
        apply h.caller
        intro hNone
        by_cases hSame : t' = t
        · rw [hSame, hRest] at hNone
          cases hNone
        · exact ht ((update_of_ne hSame _ _).trans hNone)
      · intro t' ht
        have hNe : t' ≠ t := by
          rintro rfl
          cases (update_self _ _ _).symm.trans ht
        show ∑ v, (update s.personalQ w (s.personalQ w ++ [t]) v).count t' = 0
        rw [hQueued, if_neg (Ne.symm hNe), h.quiet t' ((update_of_ne hNe _ _).symm.trans ht)]
      · intro t' rest' ht
        show s.notified t' + _ + ∑ v, (update s.personalQ w (s.personalQ w ++ [t]) v).count t' = _
        rw [hQueued]
        by_cases hSame : t' = t
        · subst hSame
          have hCount := h.counted t' rest hRest
          have hErased : update s.stall t' (some (rest.erase w)) t' = some rest' := ht
          rw [update_self] at hErased
          rw [← some.inj hErased, if_pos rfl]
          omega
        · have hCount := h.counted t' rest' ((update_of_ne hSame _ _).symm.trans ht)
          rw [if_neg (Ne.symm hSame)]
          omega
    · exact h
  · exact h

theorem Stalls.stallDone (t : StallingThread ι) : Stalls (s.stallDone t) := by
  unfold EventLogging.stallDone
  split
  · rename_i hDone
    have hCount := h.counted t ∅ hDone.1
    rw [hDone.2, card_empty] at hCount
    constructor
    · intro t' ht
      apply h.caller
      intro hNone
      by_cases hSame : t' = t
      · rw [hSame] at ht
        exact ht (update_self _ _ _)
      · exact ht ((update_of_ne hSame _ _).trans hNone)
    · intro t' ht
      show s.queued t' = 0
      by_cases hSame : t' = t
      · rw [hSame]
        omega
      · exact h.quiet t' ((update_of_ne hSame _ _).symm.trans ht)
    · intro t' rest ht
      have hNe : t' ≠ t := by
        rintro rfl
        cases (update_self _ _ _).symm.trans ht
      exact h.counted t' rest ((update_of_ne hNe _ _).symm.trans ht)
  · exact h

theorem Stalls.request (hWaiting : s.worker w = .waiting)
    (hStage : stage = .enabling ∨ stage = .disabling) {s' : EventLogging ι}
    (hStall : s'.stall = ((s.goTo w stage).stallAllWorkers (some w)).stall)
    (hNotified : s'.notified = ((s.goTo w stage).stallAllWorkers (some w)).notified)
    (hQueues : s'.personalQ = s.personalQ) (hWorker : s'.worker = update s.worker w stage)
    (hSender : s.sender = .disabling → s'.sender = .disabling) : Stalls s' := by
  apply h.begin (h.stall_waiting hWaiting ⟨nofun, nofun⟩) hStall hNotified hQueues
  · rw [stalls, hWorker, update_self]
    rcases hStage with rfl | rfl <;> rfl
  · intro t' hNe hCaller
    cases t' with
    | none => exact beq_iff_eq.mpr (hSender (beq_iff_eq.mp hCaller))
    | some v =>
      rwa [stalls, hWorker, update_of_ne fun hSame => hNe (congrArg some hSame)]

theorem Stalls.enableLogging (forceRestart : Bool) : Stalls (s.enableLogging w forceRestart) := by
  unfold EventLogging.enableLogging
  split
  · rename_i hWaiting
    split
    · refine h.request hWaiting (Or.inl rfl) rfl rfl rfl rfl fun hSender => ?_
      show s.sender.outdated = .disabling
      rw [hSender]
      rfl
    · exact h.goTo (h.stall_waiting hWaiting ⟨nofun, nofun⟩) _
  · exact h

theorem Stalls.stopLogging : Stalls s.stopLogging := by
  unfold EventLogging.stopLogging
  split
  · rename_i hMissed
    have hNone : s.stall none = none := by
      apply h.stall_eq_none
      rw [stalls, hMissed]
      rfl
    refine h.begin hNone rfl rfl rfl rfl fun t' hNe hCaller => ?_
    cases t' with
    | none => exact absurd rfl hNe
    | some v => exact hCaller
  · exact h

theorem Stalls.ofSender (hNone : s.stall none = none)
    (hStall : s'.stall = s.stall) (hNotified : s'.notified = s.notified)
    (hQueues : s'.personalQ = s.personalQ) (hWorker : s'.worker = s.worker) : Stalls s' := by
  apply h.of_same hStall hNotified hQueues
  intro t ht hCaller
  cases t with
  | none => exact absurd hNone ht
  | some v =>
    rwa [stalls, hWorker]

theorem step_stalls (call : LoggingCall ι) : Stalls (s.step call) := by
  cases call with
  | startWork w | isLoggingEnabled w | add w event | endWork w | enableResponse w
  | disableResponse w =>
    simp only [step, startWork, isLoggingEnabled, add, endWork, enableResponse, disableResponse]
    split
    · rename_i hStage
      exact h.goTo (h.stall_waiting hStage ⟨nofun, nofun⟩) _
    · exact h
  | findRoom w =>
    simp only [step, findRoom]
    split
    · rename_i hStage
      split
      · exact h.goTo (h.stall_waiting hStage ⟨nofun, nofun⟩) _
      · exact h
    · exact h
  | push w =>
    simp only [step, EventLogging.push]
    split
    · rename_i hStage
      exact (h.goTo (h.stall_waiting hStage ⟨nofun, nofun⟩) (.working true)).of_same rfl rfl rfl
        fun _ _ hCaller => hCaller
    · exact h
  | incCount w => exact h.incCount w
  | enableLogging w forceRestart => exact h.enableLogging forceRestart
  | countLoggingWorkers w =>
    simp only [step, countLoggingWorkers]
    split
    · rename_i hStage
      exact (h.goTo hStage.2 (.enabled true)).of_same rfl rfl rfl fun _ _ hCaller => hCaller
    · exact h
  | disableLogging w =>
    simp only [step, disableLogging]
    split
    · rename_i hStage
      exact h.request hStage (Or.inr rfl) rfl rfl rfl rfl id
    · exact h
  | checkEmpty w =>
    simp only [step, checkEmpty]
    split
    · rename_i hStage
      exact (h.goTo hStage.2 (.disabled _)).of_same rfl rfl rfl fun _ _ hCaller => hCaller
    · exact h
  | addPersonalWork t w => exact h.addPersonalWork t w
  | stallFlush t =>
    simp only [step, EventLogging.stallFlush]
    split
    · exact h.of_same rfl rfl rfl fun _ _ hCaller => hCaller
    · exact h
  | stallDone t => exact h.stallDone t
  | sendToFsck =>
    simp only [step, EventLogging.sendToFsck]
    split
    · rename_i hStage
      exact h.ofSender (h.stall_eq_none (by rw [stalls, hStage]; rfl)) rfl rfl rfl rfl
    · exact h
  | ack received =>
    simp only [step, EventLogging.ack]
    split
    · rename_i hStage
      have hNone : s.stall none = none := h.stall_eq_none (by rw [stalls, hStage]; rfl)
      split <;> exact h.ofSender hNone rfl rfl rfl rfl
    · exact h
  | setMissed =>
    simp only [step, EventLogging.setMissed]
    split
    · rename_i hStage
      exact h.ofSender (h.stall_eq_none (by rw [stalls, hStage]; rfl)) rfl rfl rfl rfl
    · exact h
  | stopLogging => exact h.stopLogging
  | loggingStopped =>
    simp only [step, loggingStopped]
    split
    · rename_i hStage
      exact h.ofSender hStage.2 rfl rfl rfl rfl
    · exact h

end

/-! ## The end of the stall -/

section

variable (h : Disabled s)
include h

theorem Disabled.logs_eq_false (hStalls : Stalls s)
    (hDisables : (s.worker w).disables = true) (hNone : s.stall (some w) = none) (v : ι) :
    (s.worker v).logs = false := by
  rw [Bool.eq_false_iff]
  intro hLogs
  rcases h.barrier w hDisables v hLogs with hIn | hIn
  · rw [hNone] at hIn
    exact absurd hIn (notMem_empty v)
  · have hCount := count_pos_iff.mpr hIn
    have hZero := sum_eq_zero_iff.mp (hStalls.quiet (some w) hNone) v (mem_univ v)
    omega

theorem Disabled.push (hStalls : Stalls s) (w : ι) : Disabled (s.push w) := by
  unfold EventLogging.push
  split
  · rename_i event hPushing
    have hStage : Disabled (s.goTo w (.working true)) := h.goTo rfl fun _ => by rw [hPushing]; rfl
    have hLogs : (s.worker w).logs = true := by
      rw [hPushing]
      rfl
    refine ⟨hStage.off, hStage.barrier, fun v hDisabled => ?_⟩
    have hNe : v ≠ w := by
      rintro rfl
      cases (update_self _ _ _).symm.trans hDisabled
    have hBefore : s.worker v = .disabled true := (update_of_ne hNe _ _).symm.trans hDisabled
    have hNone := hStalls.stall_waiting hBefore ⟨nofun, nofun⟩
    rw [h.logs_eq_false hStalls (by rw [hBefore]; rfl) hNone w] at hLogs
    cases hLogs
  · exact h

theorem Disabled.enableLogging {forceRestart : Bool}
    (hCalm : s.Calm (.enableLogging w forceRestart)) :
    Disabled (s.enableLogging w forceRestart) := by
  unfold EventLogging.enableLogging
  split
  · split
    · rename_i hEnables
      apply Disabled.of_none
      intro v
      show (update s.worker w .enabling v).disables = false
      rw [update_apply]
      split
      · rfl
      · exact hCalm hEnables v
    · exact h.goTo rfl nofun
  · exact h

theorem Disabled.disableLogging (w : ι) : Disabled (s.disableLogging w) := by
  unfold EventLogging.disableLogging
  split
  · rename_i hWaiting
    constructor
    · exact fun _ _ => rfl
    · intro w' hDisables v hLogs
      have hNe : v ≠ w := by
        rintro rfl
        change (update s.worker v .disabling v).logs = true at hLogs
        rw [update_self] at hLogs
        cases hLogs
      show v ∈ (update s.stall (some w) (some (others (some w))) (some w')).getD ∅ ∨ _
      by_cases hSame : w' = w
      · subst hSame
        rw [update_self]
        exact Or.inl (mem_erase.mpr ⟨hNe, mem_univ v⟩)
      · rw [update_of_ne fun hSome => hSame (some.inj hSome)]
        change (update s.worker w .disabling w').disables = true at hDisables
        change (update s.worker w .disabling v).logs = true at hLogs
        rw [update_of_ne hSame] at hDisables
        rw [update_of_ne hNe] at hLogs
        exact h.barrier w' hDisables v hLogs
    · intro w' hDisabled
      have hNe : w' ≠ w := by
        rintro rfl
        cases (update_self _ _ _).symm.trans hDisabled
      exact h.empty w' ((update_of_ne hNe _ _).symm.trans hDisabled)
  · exact h

theorem Disabled.stallDone (t : StallingThread ι) : Disabled (s.stallDone t) := by
  unfold EventLogging.stallDone
  split
  · rename_i hDone
    refine h.of_frame rfl id id fun w v _ hIn => ?_
    show v ∈ (update s.stall t none (some w)).getD ∅ ∨ _
    by_cases hSame : some w = t
    · subst hSame
      rw [hDone.1] at hIn
      rwa [update_self]
    · rwa [update_of_ne hSame]
  · exact h

theorem Disabled.stopLogging : Disabled s.stopLogging := by
  unfold EventLogging.stopLogging
  split
  · refine h.of_frame rfl (fun _ => rfl) id fun w v _ hIn => ?_
    show v ∈ (update s.stall none (some (others none)) (some w)).getD ∅ ∨ _
    rwa [update_of_ne (some_ne_none w)]
  · exact h

theorem step_disabled (hStalls : Stalls s) (call : LoggingCall ι)
    (hCalm : s.Calm call) : Disabled (s.step call) := by
  cases call with
  | startWork w =>
    simp only [step, startWork]
    split
    · exact h.goTo rfl nofun
    · exact h
  | isLoggingEnabled w => exact h.isLoggingEnabled w
  | add w event =>
    simp only [step, add]
    split
    · rename_i hStage
      exact h.goTo rfl fun _ => by rw [hStage]; rfl
    · exact h
  | findRoom w =>
    simp only [step, findRoom]
    split
    · rename_i hStage
      split
      · exact h.goTo rfl fun _ => by rw [hStage]; rfl
      · exact h
    · exact h
  | push w => exact h.push hStalls w
  | endWork w =>
    simp only [step, endWork]
    split
    · exact h.goTo rfl nofun
    · exact h
  | incCount w => exact h.incCount w
  | enableLogging w forceRestart => exact h.enableLogging hCalm
  | countLoggingWorkers w =>
    simp only [step, countLoggingWorkers]
    split
    · have hEnabled : Disabled (s.goTo w (.enabled true)) := h.goTo rfl nofun
      exact hEnabled.of_flusher rfl id id rfl rfl
    · exact h
  | enableResponse w =>
    simp only [step, enableResponse]
    split
    · exact h.goTo rfl nofun
    · exact h
  | disableLogging w => exact h.disableLogging w
  | checkEmpty w => exact h.checkEmpty w
  | disableResponse w =>
    simp only [step, disableResponse]
    split
    · exact h.goTo rfl nofun
    · exact h
  | addPersonalWork t w => exact h.addPersonalWork t w
  | stallFlush t =>
    simp only [step, EventLogging.stallFlush]
    split
    · exact h.of_flusher rfl id (fun _ => rfl) rfl rfl
    · exact h
  | stallDone t => exact h.stallDone t
  | sendToFsck =>
    simp only [step, EventLogging.sendToFsck]
    split
    · refine h.of_flusher rfl id (fun hEmpty => ?_) rfl rfl
      show s.flusher.eventTypeBufferList.drop _ = []
      rw [hEmpty, drop_nil]
    · exact h
  | ack received =>
    simp only [step, EventLogging.ack]
    split
    · split <;> exact h.of_flusher rfl id id rfl rfl
    · exact h
  | setMissed =>
    simp only [step, EventLogging.setMissed]
    split
    · exact h.of_flusher rfl id id rfl rfl
    · exact h
  | stopLogging => exact h.stopLogging
  | loggingStopped =>
    simp only [step, loggingStopped]
    split
    · exact h.of_flusher rfl id id rfl rfl
    · exact h

end

/-! ## The answer to fsck -/

structure Inv (s : EventLogging ι) : Prop where
  accounted : Accounted s
  stalls : Stalls s
  disabled : Disabled s

theorem inv_start : Inv (start : EventLogging ι) where
  accounted := ⟨rfl, fun _ => List.Perm.refl []⟩
  stalls := by
    refine ⟨fun t hStall => absurd rfl hStall, fun t _ => ?_, nofun⟩
    exact sum_eq_zero fun v _ => rfl
  disabled := Disabled.of_none fun _ => rfl

section

variable (s : EventLogging ι) (call : LoggingCall ι) (h : Inv s) (hCalm : s.Calm call)
include h hCalm

theorem step_inv : Inv (s.step call) where
  accounted := step_accounted h.accounted call hCalm
  stalls := step_stalls h.stalls call
  disabled := step_disabled h.disabled h.stalls call hCalm

theorem reliable_of_inv : s.Reliable call := by
  cases call with
  | disableResponse w =>
    intro hResponse
    cases hStage : s.worker w with
    | disabled result =>
      rw [response, hStage] at hResponse
      simp only [some.injEq, FsckSetEventLoggingRespMsg.mk.injEq, true_and] at hResponse
      obtain ⟨rfl, hMissed⟩ := hResponse
      have hPending : s.flusher.pending = [] := by
        rw [ModificationEventFlusher.pending, h.disabled.empty w hStage]
        rfl
      have hSent : s.sender.unreported = [] := hCalm
      have hBalance := h.accounted.balance hMissed
      rw [hSent, hPending, append_nil, append_nil] at hBalance
      exact hBalance.subperm
    | enabled loggingEnabled =>
      rw [response, hStage] at hResponse
      cases (FsckSetEventLoggingRespMsg.mk.inj (some.inj hResponse)).2.2
    | _ =>
      rw [response, hStage] at hResponse
      cases hResponse
  | _ => trivial

end

/-- In a calm run, every answer that no events were missed is right. -/
theorem disableResponse_reliable (calls : List (LoggingCall ι))
    (hCalm : EveryStep step Calm start calls) : EveryStep step Reliable start calls :=
  everyStep_imp step step_inv reliable_of_inv inv_start hCalm

/-- The flusher sends the events of two workers before the third one disables the logging. The
first of them that counts ends the wait below the count. -/
theorem disableResponse_reliable_acknowledged : let stall : List (LoggingCall (Fin 3)) :=
      [.addPersonalWork (some 0) 1, .addPersonalWork (some 0) 2, .incCount 1, .stallFlush (some 0),
        .incCount 2, .stallDone (some 0)]
    let add (w : Fin 3) (event : ModificationEvent) : List (LoggingCall (Fin 3)) :=
      [.startWork w, .isLoggingEnabled w, .add w event, .findRoom w, .push w, .endWork w]
    let before := .enableLogging 0 false :: stall ++ [.countLoggingWorkers 0, .enableResponse 0] ++
      add 1 ⟨1, "file"⟩ ++ add 2 ⟨2, "dir"⟩ ++ [.sendToFsck, .ack true, .disableLogging 0] ++
      stall ++ [.checkEmpty 0]
    (after step start before).response 0 = some ⟨true, false, false⟩ ∧
      EveryStep step Reliable start (before ++ [.disableResponse 0]) := by
  refine ⟨by decide, disableResponse_reliable _ ?_⟩
  simp only [cons_append, nil_append, EveryStep, Calm]
  decide

/-- The batch with the only event is on its way when the logging is disabled. -/
theorem not_disableResponse_reliable :
    ¬ ∀ calls : List (LoggingCall (Fin 1)), EveryStep step Reliable start calls := by
  intro h
  have hRun := h [.enableLogging 0 false, .stallDone (some 0), .countLoggingWorkers 0,
    .enableResponse 0, .startWork 0, .isLoggingEnabled 0, .add 0 ⟨1, "file"⟩, .findRoom 0, .push 0,
    .endWork 0, .sendToFsck, .disableLogging 0, .stallDone (some 0), .checkEmpty 0,
    .disableResponse 0]
  simp only [EveryStep, Reliable, and_true, true_and] at hRun
  have hReported := hRun (by decide)
  exact absurd hReported.length_le (by decide)

end Invariant

end EventLogging

end Fhgfs.Workers
