import Fhgfs.Workers.WorkContainers

/-!
# The queue of the workers

`MultiWorkQueue` has a list for each type of work, and each worker has a personal queue. A worker
that enters `waitFor...Work` goes through one pass of its loop under the mutex: it goes to sleep
or it takes a work. The statistics are left out. `numPendingWorks` does not overflow.

* `waitForWorkByQueue_spec` and `waitForAnyWork_spec`: what a pass does, if `numPendingWorks` is
  the number of the queued works.
-/

namespace Fhgfs.Workers

open Function AbstractWorkContainer List

inductive QueueWorkType
  | direct
  | indirect
  | mirror
deriving DecidableEq

instance : Fintype QueueWorkType where
  elems := {.direct, .indirect, .mirror}
  complete type := by cases type <;> decide

/-- The index after `lastWorkListVecIdx++` and the modulo. -/
def QueueWorkType.next : QueueWorkType → QueueWorkType
  | direct => indirect
  | indirect => mirror
  | mirror => direct

theorem QueueWorkType.exists_iterate_next (last type : QueueWorkType) :
    ∃ m < 3, next^[m + 1] last = type := by
  cases last <;> cases type <;> decide

structure MultiWorkQueue (Work : Type) where
  workListVec : QueueWorkType → AbstractWorkContainer Work
  numPendingWorks : Nat
  lastWorkListVecIdx : QueueWorkType

inductive MultiWorkQueueError
  | allQueuesEmpty
  | personalQueueEmpty
  /-- What has undefined behavior in the source. -/
  | popFromEmptyList
deriving DecidableEq

abbrev PersonalWorkQueue (Work : Type) := List Work

/-- What a worker finds. -/
inductive WaitResult (Work : Type)
  | wait
  | personal (work : Work) (rest : PersonalWorkQueue Work)
  | queued (work : Work) (rest : MultiWorkQueue Work)

namespace PersonalWorkQueue

variable {Work : Type}

def addWork (q : PersonalWorkQueue Work) (work : Work) : PersonalWorkQueue Work := q ++ [work]

def getIsWorkListEmpty (q : PersonalWorkQueue Work) : Bool := q.isEmpty

def getAndPopFirstWork :
    PersonalWorkQueue Work → Except MultiWorkQueueError (Work × PersonalWorkQueue Work)
  | [] => .error .personalQueueEmpty
  | work :: rest => .ok (work, rest)

end PersonalWorkQueue

namespace MultiWorkQueue

variable {Work : Type}

def new (Work : Type) : MultiWorkQueue Work where
  workListVec _ := .list ⟨[]⟩
  numPendingWorks := 0
  lastWorkListVecIdx := .direct

def setIndirectWorkList (q : MultiWorkQueue Work) (newWorkList : AbstractWorkContainer Work) :
    MultiWorkQueue Work :=
  { q with workListVec := update q.workListVec .indirect newWorkList }

/-- The queue part of the three functions that add a work. -/
def addWork (q : MultiWorkQueue Work) (type : QueueWorkType) (work : Work) (userID : Nat) :
    MultiWorkQueue Work :=
  { q with
    workListVec := update q.workListVec type ((q.workListVec type).addWork work userID)
    numPendingWorks := q.numPendingWorks + 1 }

def popNextWork (q : MultiWorkQueue Work) (type : QueueWorkType) :
    Except MultiWorkQueueError (WaitResult Work) :=
  match (q.workListVec type).getAndPopNextWork with
  | none => .error .popFromEmptyList
  | some (work, rest) =>
    .ok (.queued work { q with
      workListVec := update q.workListVec type rest
      numPendingWorks := q.numPendingWorks - 1 })

def popPersonalWork (personalWorkQueue : PersonalWorkQueue Work) :
    Except MultiWorkQueueError (WaitResult Work) :=
  match personalWorkQueue.getAndPopFirstWork with
  | .error e => .error e
  | .ok (work, rest) => .ok (.personal work rest)

/-- A pass through the code of direct and mirror workers. -/
def waitForWorkByQueue (q : MultiWorkQueue Work) (personalWorkQueue : PersonalWorkQueue Work)
    (waitWorkQ : QueueWorkType) : Except MultiWorkQueueError (WaitResult Work) :=
  if (q.workListVec waitWorkQ).getIsEmpty && personalWorkQueue.getIsWorkListEmpty then .ok .wait
  else if !personalWorkQueue.getIsWorkListEmpty then popPersonalWork personalWorkQueue
  else q.popNextWork waitWorkQ

/-- The walk over all lists, with the number of lists that are still to be looked at. -/
def walkQueues (q : MultiWorkQueue Work) : Nat → Except MultiWorkQueueError (WaitResult Work)
  | 0 => .error .allQueuesEmpty
  | n + 1 =>
    let idx := q.lastWorkListVecIdx.next
    let q := { q with lastWorkListVecIdx := idx }
    if !(q.workListVec idx).getIsEmpty then q.popNextWork idx
    else q.walkQueues n

def waitForAnyWork (q : MultiWorkQueue Work) (personalWorkQueue : PersonalWorkQueue Work) :
    Except MultiWorkQueueError (WaitResult Work) :=
  if q.numPendingWorks == 0 && personalWorkQueue.getIsWorkListEmpty then .ok .wait
  else if !personalWorkQueue.getIsWorkListEmpty then popPersonalWork personalWorkQueue
  else q.walkQueues 3

def waitForMirrorWork (q : MultiWorkQueue Work) (personalWorkQueue : PersonalWorkQueue Work) :
    Except MultiWorkQueueError (WaitResult Work) :=
  q.waitForWorkByQueue personalWorkQueue .mirror

def waitForDirectWork (q : MultiWorkQueue Work) (personalWorkQueue : PersonalWorkQueue Work) :
    Except MultiWorkQueueError (WaitResult Work) :=
  q.waitForWorkByQueue personalWorkQueue .direct

def waitForWork (q : MultiWorkQueue Work) (personalWorkQueue : PersonalWorkQueue Work) :
    QueueWorkType → Except MultiWorkQueueError (WaitResult Work)
  | .direct => q.waitForDirectWork personalWorkQueue
  | .indirect => q.waitForAnyWork personalWorkQueue
  | .mirror => q.waitForMirrorWork personalWorkQueue

/-! ## The works in the queue -/

def worksOf (q : MultiWorkQueue Work) (type : QueueWorkType) : List Work :=
  (q.workListVec type).works

theorem worksOf_update_self (q : MultiWorkQueue Work) (type : QueueWorkType)
    (list : AbstractWorkContainer Work) (n : Nat) :
    worksOf { q with
      workListVec := update q.workListVec type list, numPendingWorks := n } type = list.works :=
  congrArg works (update_self type list q.workListVec)

theorem worksOf_update_of_ne (q : MultiWorkQueue Work) {type other : QueueWorkType}
    (hOther : other ≠ type) (list : AbstractWorkContainer Work) (n : Nat) :
    worksOf { q with
      workListVec := update q.workListVec type list, numPendingWorks := n } other =
        q.worksOf other :=
  congrArg works (update_of_ne hOther list q.workListVec)

def queuedWorks (q : MultiWorkQueue Work) : List Work :=
  q.worksOf .direct ++ (q.worksOf .indirect ++ q.worksOf .mirror)

/-- The number of works that a worker of the type may take from the lists. -/
def takeable (q : MultiWorkQueue Work) : QueueWorkType → Nat
  | .indirect => q.numPendingWorks
  | type => (q.worksOf type).length

def Counted (q : MultiWorkQueue Work) : Prop := q.numPendingWorks = q.queuedWorks.length

/-- The queue `q'` has one work more than `q`, in the list of the type. -/
structure HasMore (q q' : MultiWorkQueue Work) (type : QueueWorkType) (work : Work) : Prop where
  here : (q'.worksOf type).Perm (work :: q.worksOf type)
  others : ∀ other, other ≠ type → q'.worksOf other = q.worksOf other
  pending : q'.numPendingWorks = q.numPendingWorks + 1

namespace HasMore

variable {q q' : MultiWorkQueue Work} {type : QueueWorkType} {work : Work}

variable (h : HasMore q q' type work)
include h

theorem queuedWorks_perm : q'.queuedWorks.Perm (work :: q.queuedWorks) := by
  unfold queuedWorks
  cases type with
  | direct =>
    rw [h.others .indirect nofun, h.others .mirror nofun]
    exact h.here.append_right _
  | indirect =>
    rw [h.others .direct nofun, h.others .mirror nofun]
    exact ((h.here.append_right _).append_left _).trans perm_middle
  | mirror =>
    rw [h.others .direct nofun, h.others .indirect nofun, ← append_assoc, ← append_assoc]
    exact (h.here.append_left _).trans perm_middle

theorem counted_iff : q'.Counted ↔ q.Counted := by
  unfold Counted
  rw [h.pending, h.queuedWorks_perm.length_eq, length_cons]
  omega

theorem takeable_self {worker : QueueWorkType} (hWorker : worker = .indirect ∨ worker = type) :
    q'.takeable worker = q.takeable worker + 1 := by
  rcases hWorker with rfl | rfl
  · exact h.pending
  · cases worker with
    | indirect => exact h.pending
    | direct => exact h.here.length_eq
    | mirror => exact h.here.length_eq

theorem takeable_other {worker : QueueWorkType}
    (hIndirect : worker ≠ .indirect) (hOther : worker ≠ type) :
    q'.takeable worker = q.takeable worker := by
  cases worker with
  | indirect => exact absurd rfl hIndirect
  | direct => exact congrArg length (h.others .direct hOther)
  | mirror => exact congrArg length (h.others .mirror hOther)

theorem takeable_le (worker : QueueWorkType) : q.takeable worker ≤ q'.takeable worker := by
  by_cases hWorker : worker = .indirect ∨ worker = type
  · exact (h.takeable_self hWorker).ge.trans' (Nat.le_succ _)
  · rw [not_or] at hWorker
    exact (h.takeable_other hWorker.1 hWorker.2).ge

end HasMore

variable {q : MultiWorkQueue Work} {personalWorkQueue : PersonalWorkQueue Work}
  {type : QueueWorkType}

theorem addWork_hasMore (q : MultiWorkQueue Work) (type : QueueWorkType) (work : Work)
    (userID : Nat) : HasMore q (q.addWork type work userID) type work where
  here := by
    rw [addWork, worksOf_update_self]
    exact (q.workListVec type).works_addWork work userID
  others := fun _ hOther => worksOf_update_of_ne q hOther _ _
  pending := rfl

/-- What a pass may return: the worker waits only if there is nothing for it, prefers its
personal queue, and takes from the lists a work of a type that it may take. -/
inductive Serves (q : MultiWorkQueue Work) (personalWorkQueue : PersonalWorkQueue Work)
    (worker : QueueWorkType) : Except MultiWorkQueueError (WaitResult Work) → Prop
  | wait : personalWorkQueue = [] → q.takeable worker = 0 →
      Serves q personalWorkQueue worker (.ok .wait)
  | personal {work : Work} {rest : PersonalWorkQueue Work} : personalWorkQueue = work :: rest →
      Serves q personalWorkQueue worker (.ok (.personal work rest))
  | queued {type : QueueWorkType} {work : Work} {rest : MultiWorkQueue Work} :
      personalWorkQueue = [] → (worker = .indirect ∨ worker = type) → HasMore rest q type work →
      Serves q personalWorkQueue worker (.ok (.queued work rest))

theorem personal_serves {worker : QueueWorkType} (h : personalWorkQueue ≠ []) :
    Serves q personalWorkQueue worker (popPersonalWork personalWorkQueue) := by
  cases personalWorkQueue with
  | nil => exact absurd rfl h
  | cons work rest => exact .personal rfl

variable (hCounted : q.Counted)
include hCounted

theorem worksOf_length_le (type : QueueWorkType) : (q.worksOf type).length ≤ q.numPendingWorks := by
  rw [hCounted, queuedWorks, length_append, length_append]
  cases type <;> omega

theorem exists_popNextWork (h : q.worksOf type ≠ []) :
    ∃ work rest, q.popNextWork type = .ok (.queued work rest) ∧ HasMore rest q type work := by
  obtain ⟨work, rest, hPop, hPerm⟩ := (q.workListVec type).exists_getAndPopNextWork h
  unfold popNextWork
  rw [hPop]
  refine ⟨work, _, rfl, ?_, ?_, ?_⟩
  · rwa [worksOf_update_self]
  · intro other hOther
    exact (worksOf_update_of_ne q hOther rest _).symm
  · have hSome := length_pos_iff.mpr h
    have hLe := worksOf_length_le hCounted type
    show q.numPendingWorks = q.numPendingWorks - 1 + 1
    omega

theorem waitForWorkByQueue_spec
    (personalWorkQueue : PersonalWorkQueue Work) (hType : type ≠ .indirect) :
    Serves q personalWorkQueue type (q.waitForWorkByQueue personalWorkQueue type) := by
  have hTakeable : q.takeable type = (q.worksOf type).length := by
    cases type with
    | indirect => exact absurd rfl hType
    | direct => rfl
    | mirror => rfl
  unfold waitForWorkByQueue PersonalWorkQueue.getIsWorkListEmpty
  cases personalWorkQueue with
  | cons work rest =>
    rw [if_neg (by simp), if_pos (by simp)]
    exact personal_serves nofun
  | nil =>
    by_cases hEmpty : q.worksOf type = []
    · rw [if_pos (by simpa using (getIsEmpty_iff _).mpr hEmpty)]
      exact .wait rfl (by rw [hTakeable, hEmpty, length_nil])
    have hNot : (q.workListVec type).getIsEmpty = false :=
      eq_false_of_ne_true fun h => hEmpty ((getIsEmpty_iff _).mp h)
    rw [if_neg (by simp [hNot]), if_neg (by simp)]
    obtain ⟨work, rest, hPop, hMore⟩ := exists_popNextWork hCounted hEmpty
    rw [hPop]
    exact .queued rfl (.inr rfl) hMore

theorem exists_walkQueues {n m : Nat} (hm : m < n)
    (h : q.worksOf (QueueWorkType.next^[m + 1] q.lastWorkListVecIdx) ≠ []) :
    ∃ type work rest, q.walkQueues n = .ok (.queued work rest) ∧ HasMore rest q type work := by
  induction n generalizing q m with
  | zero => exact absurd hm (Nat.not_lt_zero m)
  | succ n ih =>
    unfold walkQueues
    by_cases hHere : q.worksOf q.lastWorkListVecIdx.next = []
    · have hEmpty := (getIsEmpty_iff _).mpr hHere
      simp only [hEmpty, Bool.not_true, Bool.false_eq_true, if_false]
      cases m with
      | zero => exact absurd hHere h
      | succ m =>
        obtain ⟨type, work, rest, hWalk, hMore⟩ :=
          ih (q := { q with lastWorkListVecIdx := q.lastWorkListVecIdx.next }) hCounted
            (Nat.lt_of_succ_lt_succ hm) h
        exact ⟨type, work, rest, hWalk, hMore.here, hMore.others, hMore.pending⟩
    · have hNot : (q.workListVec q.lastWorkListVecIdx.next).getIsEmpty = false :=
        eq_false_of_ne_true fun hE => hHere ((getIsEmpty_iff _).mp hE)
      simp only [hNot, Bool.not_false, if_true]
      obtain ⟨work, rest, hPop, hMore⟩ := exists_popNextWork (q := { q with
        lastWorkListVecIdx := q.lastWorkListVecIdx.next }) hCounted hHere
      exact ⟨_, work, rest, hPop, hMore.here, hMore.others, hMore.pending⟩

section

variable (personalWorkQueue : PersonalWorkQueue Work)

theorem waitForAnyWork_spec :
    Serves q personalWorkQueue .indirect (q.waitForAnyWork personalWorkQueue) := by
  unfold waitForAnyWork PersonalWorkQueue.getIsWorkListEmpty
  cases personalWorkQueue with
  | cons work rest =>
    rw [if_neg (by simp), if_pos (by simp)]
    exact personal_serves nofun
  | nil =>
    by_cases hNone : q.numPendingWorks = 0
    · rw [if_pos (by simp [hNone])]
      exact .wait rfl hNone
    rw [if_neg (by simp [hNone]), if_neg (by simp)]
    have hType : ∃ type, q.worksOf type ≠ [] := by
      by_contra hAll
      push Not at hAll
      apply hNone
      rw [hCounted, queuedWorks, hAll, hAll, hAll]
      rfl
    obtain ⟨type, hType⟩ := hType
    obtain ⟨m, hm, hNext⟩ := QueueWorkType.exists_iterate_next q.lastWorkListVecIdx type
    obtain ⟨taken, work, rest, hWalk, hMore⟩ := exists_walkQueues hCounted hm (by rwa [hNext])
    rw [hWalk]
    exact .queued rfl (.inl rfl) hMore

theorem waitForWork_spec (worker : QueueWorkType) :
    Serves q personalWorkQueue worker (q.waitForWork personalWorkQueue worker) := by
  cases worker with
  | direct | mirror => exact waitForWorkByQueue_spec hCounted personalWorkQueue nofun
  | indirect => exact waitForAnyWork_spec hCounted personalWorkQueue

end

end MultiWorkQueue

end Fhgfs.Workers
