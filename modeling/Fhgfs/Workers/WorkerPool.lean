import Fhgfs.Lib.ConditionVariable
import Fhgfs.Workers.MultiWorkQueue

/-!
# Workers at the queue

Works that are added, and workers that call `waitFor...Work`, in any order. A call is what a
thread does under the mutex: a worker that does not find a work goes to sleep on the condition of
its type, and its next call is the next pass through the loop. A signal says which sleepers it
wakes, and a thread may wake up without one.

* `step_inv`: the invariant, with `Covered` for each of the three conditions.
-/

namespace Fhgfs.Workers

open Function WaitState ConditionVariable

variable {Work ι : Type}

/-- Workers wait on the condition of their type; `newWorkCond` is the one of indirect workers. -/
structure WorkerPool (Work ι : Type) where
  queue : MultiWorkQueue Work
  personal : ι → PersonalWorkQueue Work
  waiting : ι → WaitState QueueWorkType

inductive PoolCall (Work ι : Type)
  | addDirectWork (work : Work) (userID : Nat) (wokenAny woken : Finset ι)
  | addMirrorWork (work : Work) (userID : Nat) (wokenAny woken : Finset ι)
  | addIndirectWork (work : Work) (userID : Nat) (wokenAny : Finset ι)
  | addPersonalWork (work : Work) (owner : ι)
  | waitForWork (worker : ι)
  /-- The condition variable lets a thread go on without a signal. -/
  | spuriousWakeup (worker : ι)

namespace WorkerPool

def start (q : MultiWorkQueue Work) : WorkerPool Work ι where
  queue := q
  personal _ := []
  waiting _ := .running

variable [DecidableEq ι]

/-- What all three functions begin with, up to `newWorkCond.signal()`. -/
def addWork (pool : WorkerPool Work ι) (type : QueueWorkType) (work : Work) (userID : Nat)
    (wokenAny : Finset ι) : WorkerPool Work ι :=
  { pool with
    queue := pool.queue.addWork type work userID
    waiting := wakeThreads wokenAny pool.waiting }

def signal (pool : WorkerPool Work ι) (woken : Finset ι) : WorkerPool Work ι :=
  { pool with waiting := wakeThreads woken pool.waiting }

def addDirectWork (pool : WorkerPool Work ι) (work : Work) (userID : Nat)
    (wokenAny woken : Finset ι) : WorkerPool Work ι :=
  (pool.addWork .direct work userID wokenAny).signal woken

def addMirrorWork (pool : WorkerPool Work ι) (work : Work) (userID : Nat)
    (wokenAny woken : Finset ι) : WorkerPool Work ι :=
  (pool.addWork .mirror work userID wokenAny).signal woken

def addIndirectWork (pool : WorkerPool Work ι) (work : Work) (userID : Nat)
    (wokenAny : Finset ι) : WorkerPool Work ι :=
  pool.addWork .indirect work userID wokenAny

def addPersonalWork (pool : WorkerPool Work ι) (work : Work) (owner : ι) : WorkerPool Work ι :=
  { pool with
    personal := update pool.personal owner ((pool.personal owner).addWork work)
    waiting := fun i => (pool.waiting i).wake }

variable (workType : ι → QueueWorkType)

def found (pool : WorkerPool Work ι) (worker : ι) : Except MultiWorkQueueError (WaitResult Work) :=
  pool.queue.waitForWork (pool.personal worker) (workType worker)

def waitForWork (pool : WorkerPool Work ι) (worker : ι) : WorkerPool Work ι :=
  match pool.found workType worker with
  | .error _ => pool
  | .ok .wait =>
    { pool with waiting := update pool.waiting worker (asleep (workType worker)) }
  | .ok (.personal _ rest) =>
    { pool with
      personal := update pool.personal worker rest
      waiting := update pool.waiting worker running }
  | .ok (.queued _ rest) =>
    { pool with queue := rest, waiting := update pool.waiting worker running }

def step (pool : WorkerPool Work ι) : PoolCall Work ι → WorkerPool Work ι
  | .addDirectWork work userID wokenAny woken => pool.addDirectWork work userID wokenAny woken
  | .addMirrorWork work userID wokenAny woken => pool.addMirrorWork work userID wokenAny woken
  | .addIndirectWork work userID wokenAny => pool.addIndirectWork work userID wokenAny
  | .addPersonalWork work owner => pool.addPersonalWork work owner
  | .waitForWork worker => pool.waitForWork workType worker
  | .spuriousWakeup worker => pool.signal {worker}

variable [Fintype ι]

/-- A signal wakes a sleeper if there is one, and a sleeper does not run before it is woken. -/
def Allowed (pool : WorkerPool Work ι) : PoolCall Work ι → Prop
  | .addDirectWork _ _ wokenAny woken =>
    SignalWakes pool.waiting .indirect wokenAny ∧
      SignalWakes (wakeThreads wokenAny pool.waiting) .direct woken
  | .addMirrorWork _ _ wokenAny woken =>
    SignalWakes pool.waiting .indirect wokenAny ∧
      SignalWakes (wakeThreads wokenAny pool.waiting) .mirror woken
  | .addIndirectWork _ _ wokenAny => SignalWakes pool.waiting .indirect wokenAny
  | .waitForWork worker => ∀ type, pool.waiting worker ≠ asleep type
  | .addPersonalWork _ _ => True
  | .spuriousWakeup _ => True

instance (pool : WorkerPool Work ι) : DecidablePred pool.Allowed
  | .addDirectWork _ _ _ _ => inferInstanceAs (Decidable (_ ∧ _))
  | .addMirrorWork _ _ _ _ => inferInstanceAs (Decidable (_ ∧ _))
  | .addIndirectWork _ _ _ => inferInstanceAs (Decidable (SignalWakes _ _ _))
  | .waitForWork worker => inferInstanceAs (Decidable (∀ type, pool.waiting worker ≠ asleep type))
  | .addPersonalWork _ _ => .isTrue trivial
  | .spuriousWakeup _ => .isTrue trivial

/-! ## The invariant -/

/-- While a worker of the type sleeps, there are notified ones for all works that it may take. -/
def Served (pool : WorkerPool Work ι) (type : QueueWorkType) (load : Nat) : Prop :=
  Covered pool.waiting type (fun i => pool.personal i = []) load

structure Inv (pool : WorkerPool Work ι) : Prop where
  counted : pool.queue.Counted
  own : ∀ i type, pool.waiting i = asleep type ∨ pool.waiting i = notified type → type = workType i
  idle : ∀ i type, pool.waiting i = asleep type → pool.personal i = []
  served : ∀ type, pool.Served type (pool.queue.takeable type)

variable {workType} {pool : WorkerPool Work ι} {type : QueueWorkType} {work : Work}
  {userID : Nat} {wokenAny woken : Finset ι} {worker : ι}

section

variable (h : Inv workType pool)
include h

theorem signal_inv (woken : Finset ι) : Inv workType (pool.signal woken) where
  counted := h.counted
  own i type hWaits := h.own i type (waits_of_wakeThreads hWaits)
  idle i type hSleep := h.idle i type (asleep_of_wakeThreads hSleep).1
  served type := (h.served type).wake woken

section

variable (hAny : SignalWakes pool.waiting .indirect wokenAny)
include hAny

theorem addWork_served_indirect : (pool.addWork type work userID wokenAny).Served .indirect
      ((pool.queue.addWork type work userID).takeable .indirect) := by
  rw [(pool.queue.addWork_hasMore type work userID).takeable_self (.inl rfl)]
  exact (h.served .indirect).signal hAny fun j hSleep => h.idle j _ hSleep

theorem addIndirectWork_inv : Inv workType (pool.addIndirectWork work userID wokenAny) where
  counted := (pool.queue.addWork_hasMore _ _ _).counted_iff.mpr h.counted
  own i type hWaits := h.own i type (waits_of_wakeThreads hWaits)
  idle i type hSleep := h.idle i type (asleep_of_wakeThreads hSleep).1
  served type := by
    by_cases hType : type = .indirect
    · subst hType
      exact addWork_served_indirect h hAny
    · have hSame := (pool.queue.addWork_hasMore .indirect work userID).takeable_other hType hType
      show Covered _ _ _ ((pool.queue.addWork .indirect work userID).takeable type)
      rw [hSame]
      exact (h.served type).wake wokenAny

end

theorem addWork_signal_inv (hType : type ≠ .indirect)
    (hAny : SignalWakes pool.waiting .indirect wokenAny)
    (hSignal : SignalWakes (wakeThreads wokenAny pool.waiting) type woken) :
    Inv workType ((pool.addWork type work userID wokenAny).signal woken) where
  counted := (pool.queue.addWork_hasMore _ _ _).counted_iff.mpr h.counted
  own i type hWaits := h.own i type (waits_of_wakeThreads (waits_of_wakeThreads hWaits))
  idle i type hSleep := h.idle i type (asleep_of_wakeThreads (asleep_of_wakeThreads hSleep).1).1
  served other := by
    have hMore := pool.queue.addWork_hasMore type work userID
    by_cases hIndirect : other = .indirect
    · subst hIndirect
      exact (addWork_served_indirect h hAny).wake woken
    show Covered _ _ _ ((pool.queue.addWork type work userID).takeable other)
    by_cases hOther : other = type
    · subst hOther
      rw [hMore.takeable_self (.inr rfl)]
      apply Covered.signal ((h.served other).wake wokenAny) hSignal
      intro j hSleep
      exact h.idle j _ (asleep_of_wakeThreads hSleep).1
    · rw [hMore.takeable_other hIndirect hOther]
      exact ((h.served other).wake wokenAny).wake woken

theorem addPersonalWork_inv (owner : ι) : Inv workType (pool.addPersonalWork work owner) := by
  have hAwake : ∀ i type, (pool.addPersonalWork work owner).waiting i ≠ asleep type := by
    intro i type
    show (pool.waiting i).wake ≠ _
    cases pool.waiting i <;> simp [wake]
  refine ⟨h.counted, ?_, ?_, ?_⟩
  · intro i type hWaits
    apply h.own i type
    change (pool.waiting i).wake = _ ∨ (pool.waiting i).wake = _ at hWaits
    cases hs : pool.waiting i <;> simp_all [wake]
  · intro i type hSleep
    exact absurd hSleep (hAwake i type)
  · rintro type ⟨i, hi⟩
    exact absurd (mem_sleepers.mp hi) (hAwake i type)

end

/-! ## A pass of a worker -/

omit [DecidableEq ι] [Fintype ι] in
theorem found_serves (workType : ι → QueueWorkType) (hCounted : pool.queue.Counted) (worker : ι) :
    pool.queue.Serves (pool.personal worker) (workType worker) (pool.found workType worker) :=
  MultiWorkQueue.waitForWork_spec hCounted _ _

theorem own_update {s : WaitState QueueWorkType} (h : Inv workType pool)
    (hOwn : ∀ type, s = asleep type ∨ s = notified type → type = workType worker) (i : ι)
    (type : QueueWorkType)
    (hWaits : update pool.waiting worker s i = asleep type ∨
      update pool.waiting worker s i = notified type) : type = workType i := by
  by_cases hSame : i = worker
  · subst hSame
    rw [update_self] at hWaits
    exact hOwn type hWaits
  · rw [update_of_ne hSame] at hWaits
    exact h.own i type hWaits

omit [Fintype ι] in
theorem asleep_of_update_running {i : ι}
    (hSleep : update pool.waiting worker running i = asleep type) :
    i ≠ worker ∧ pool.waiting i = asleep type := by
  by_cases hSame : i = worker
  · subst hSame
    rw [update_self] at hSleep
    cases hSleep
  · rw [update_of_ne hSame] at hSleep
    exact ⟨hSame, hSleep⟩

theorem sleep_inv (h : Inv workType pool) (hPersonal : pool.personal worker = [])
    (hTakeable : pool.queue.takeable (workType worker) = 0) :
    Inv workType
      { pool with waiting := update pool.waiting worker (asleep (workType worker)) } where
  counted := h.counted
  own i type hWaits := by
    apply own_update h ?_ i type hWaits
    rintro type (hType | hType)
    · exact (asleep.inj hType).symm
    · cases hType
  idle i type hSleep := by
    by_cases hSame : i = worker
    · exact hSame ▸ hPersonal
    · exact h.idle i type ((update_of_ne hSame _ _).symm.trans hSleep)
  served type := by
    by_cases hType : type = workType worker
    · subst hType
      show Covered _ _ _ (pool.queue.takeable (workType worker))
      rw [hTakeable]
      exact covered_zero
    · exact (h.served type).sleep_other (Ne.symm hType) fun hNotified =>
        hType (h.own worker type (.inr hNotified))

theorem takePersonal_inv {rest : PersonalWorkQueue Work} (h : Inv workType pool)
    (hPersonal : pool.personal worker ≠ []) :
    Inv workType { pool with
      personal := update pool.personal worker rest
      waiting := update pool.waiting worker running } where
  counted := h.counted
  own := own_update h (by simp)
  idle i type hSleep := by
    obtain ⟨hOther, hBefore⟩ := asleep_of_update_running hSleep
    exact (update_of_ne hOther _ _).trans (h.idle i type hBefore)
  served type := by
    apply (h.served type).run_outside _ fun _ => hPersonal
    intro j hOther hEmpty
    exact (update_of_ne hOther _ _).trans hEmpty

section

variable (h : Inv workType pool) (hAwake : ∀ type, pool.waiting worker ≠ asleep type)
include h hAwake

theorem takeQueued_inv {rest : MultiWorkQueue Work}
    (hWorker : workType worker = .indirect ∨ workType worker = type)
    (hMore : MultiWorkQueue.HasMore rest pool.queue type work) :
    Inv workType { pool with queue := rest, waiting := update pool.waiting worker running } where
  counted := hMore.counted_iff.mp h.counted
  own := own_update h (by simp)
  idle i type hSleep := h.idle i type (asleep_of_update_running hSleep).2
  served other := by
    have hServed := h.served other
    by_cases hOwn : other = workType worker
    · subst hOwn
      rw [hMore.takeable_self hWorker] at hServed
      exact hServed.run (fun _ _ hEmpty => hEmpty) hAwake
    · apply Covered.run_outside (hServed.mono (hMore.takeable_le other))
      · exact fun _ _ hEmpty => hEmpty
      · exact fun hNotified => absurd (h.own worker other (.inr hNotified)) hOwn

theorem waitForWork_inv : Inv workType (pool.waitForWork workType worker) := by
  have hServes := found_serves workType h.counted worker
  unfold waitForWork
  generalize pool.found workType worker = result at hServes ⊢
  cases hServes with
  | wait hPersonal hTakeable => exact sleep_inv h hPersonal hTakeable
  | personal hPersonal => exact takePersonal_inv h (by simp [hPersonal])
  | queued _ hWorker hMore => exact takeQueued_inv h hAwake hWorker hMore

end

theorem step_inv (pool : WorkerPool Work ι) (call : PoolCall Work ι) (h : Inv workType pool)
    (hAllowed : pool.Allowed call) : Inv workType (pool.step workType call) := by
  cases call with
  | addDirectWork work userID wokenAny woken | addMirrorWork work userID wokenAny woken =>
    exact addWork_signal_inv h nofun hAllowed.1 hAllowed.2
  | addIndirectWork work userID wokenAny => exact addIndirectWork_inv h hAllowed
  | addPersonalWork work owner => exact addPersonalWork_inv h owner
  | waitForWork worker => exact waitForWork_inv h hAllowed
  | spuriousWakeup worker => exact signal_inv h _

end WorkerPool

end Fhgfs.Workers
