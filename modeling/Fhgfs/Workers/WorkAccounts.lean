import Fhgfs.Lib.Run
import Fhgfs.Workers.WorkerPool
import Mathlib.Algebra.BigOperators.Fin

/-!
# The accounts of the workers

* `queued_balance` and `personal_balance`: what a call adds and what it returns.
* `exists_taker`: as long as there is a work, a worker that is awake takes one.
* `handsOutOnce`: the result about all runs.
-/

namespace Fhgfs.Workers.WorkerPool

open Function WaitState ConditionVariable Run List.Perm List MultiWorkQueue Finset

variable {Work ι : Type}

def added : PoolCall Work ι → List Work
  | .addDirectWork work _ _ _ => [work]
  | .addMirrorWork work _ _ _ => [work]
  | .addIndirectWork work _ _ => [work]
  | _ => []

def queuedWork : Except MultiWorkQueueError (WaitResult Work) → List Work
  | .ok (.queued work _) => [work]
  | _ => []

/-- The work that a pass returns from the personal queue. -/
def personalWork : Except MultiWorkQueueError (WaitResult Work) → List Work
  | .ok (.personal work _) => [work]
  | _ => []

/-- The works that a call returns from the lists. -/
def returned (workType : ι → QueueWorkType) (pool : WorkerPool Work ι) :
    PoolCall Work ι → List Work
  | .waitForWork worker => queuedWork (pool.found workType worker)
  | _ => []

variable [DecidableEq ι]

/-- The personal works that a call adds for the owner. -/
def addedFor (owner : ι) : PoolCall Work ι → List Work
  | .addPersonalWork work worker => if worker = owner then [work] else []
  | _ => []

def returnedTo (workType : ι → QueueWorkType) (owner : ι) (pool : WorkerPool Work ι) :
    PoolCall Work ι → List Work
  | .waitForWork worker =>
    if worker = owner then personalWork (pool.found workType worker) else []
  | _ => []

variable {workType : ι → QueueWorkType} {pool : WorkerPool Work ι}

/-! ## Balances -/

theorem step_counted (pool : WorkerPool Work ι) (call : PoolCall Work ι)
    (h : pool.queue.Counted) : (pool.step workType call).queue.Counted := by
  cases call with
  | addPersonalWork work owner => exact h
  | spuriousWakeup worker => exact h
  | waitForWork worker =>
    have hServes := found_serves workType h worker
    show (pool.waitForWork workType worker).queue.Counted
    unfold waitForWork
    generalize pool.found workType worker = result at hServes ⊢
    cases hServes with
    | wait _ _ => exact h
    | personal _ => exact h
    | queued _ _ hMore => exact hMore.counted_iff.mp h
  | addDirectWork work userID wokenAny woken | addMirrorWork work userID wokenAny woken
  | addIndirectWork work userID wokenAny =>
    exact (pool.queue.addWork_hasMore _ _ _).counted_iff.mpr h

omit [DecidableEq ι] in
theorem added_perm (q : MultiWorkQueue Work) (type : QueueWorkType) (work : Work) (userID : Nat) :
    (q.queuedWorks ++ [work]).Perm ((q.addWork type work userID).queuedWorks ++ []) := by
  rw [append_nil]
  exact (perm_append_singleton _ _).trans (q.addWork_hasMore _ _ _).queuedWorks_perm.symm

theorem queued_balance (pool : WorkerPool Work ι) (call : PoolCall Work ι)
    (h : pool.queue.Counted) :
    (pool.queue.queuedWorks ++ added call).Perm
      ((pool.step workType call).queue.queuedWorks ++ returned workType pool call) := by
  cases call with
  | addPersonalWork work owner => exact List.Perm.refl _
  | spuriousWakeup worker => exact List.Perm.refl _
  | addDirectWork work userID wokenAny woken => exact added_perm _ _ _ _
  | addMirrorWork work userID wokenAny woken => exact added_perm _ _ _ _
  | addIndirectWork work userID wokenAny => exact added_perm _ _ _ _
  | waitForWork worker =>
    have hServes := found_serves workType h worker
    show (pool.queue.queuedWorks ++ []).Perm
      ((pool.waitForWork workType worker).queue.queuedWorks ++
        queuedWork (pool.found workType worker))
    unfold waitForWork
    generalize pool.found workType worker = result at hServes ⊢
    cases hServes with
    | wait _ _ => exact List.Perm.refl _
    | personal _ => exact List.Perm.refl _
    | queued _ _ hMore =>
      rw [append_nil]
      exact hMore.queuedWorks_perm.trans (perm_append_singleton _ _).symm

theorem personal_balance (owner : ι) (pool : WorkerPool Work ι) (call : PoolCall Work ι)
    (h : pool.queue.Counted) :
    (pool.personal owner ++ addedFor owner call).Perm
      ((pool.step workType call).personal owner ++ returnedTo workType owner pool call) := by
  cases call with
  | addDirectWork work userID wokenAny woken => exact List.Perm.refl _
  | addMirrorWork work userID wokenAny woken => exact List.Perm.refl _
  | addIndirectWork work userID wokenAny => exact List.Perm.refl _
  | spuriousWakeup worker => exact List.Perm.refl _
  | addPersonalWork work worker =>
    show (_ ++ if worker = owner then [work] else []).Perm
      (update pool.personal worker ((pool.personal worker).addWork work) owner ++ [])
    rw [append_nil]
    split_ifs with hOwner
    · rw [hOwner, update_self]
      exact List.Perm.refl _
    · rw [update_of_ne (Ne.symm hOwner), append_nil]
  | waitForWork worker =>
    have hServes := found_serves workType h worker
    show (pool.personal owner ++ []).Perm
      ((pool.waitForWork workType worker).personal owner ++
        if worker = owner then personalWork (pool.found workType worker) else [])
    unfold waitForWork
    generalize pool.found workType worker = result at hServes ⊢
    rw [append_nil]
    cases hServes with
    | wait _ _ => simp [personalWork]
    | queued _ _ _ => simp [personalWork]
    | @personal work rest hPersonal =>
      show (pool.personal owner).Perm (update pool.personal worker rest owner ++
        if worker = owner then [work] else [])
      split_ifs with hOwner
      · rw [← hOwner, update_self, hPersonal]
        exact (perm_append_singleton _ _).symm
      · rw [update_of_ne (Ne.symm hOwner), append_nil]

/-! ## All works are taken -/

variable [Fintype ι]

/-- The number of works that have not been returned. -/
def left (pool : WorkerPool Work ι) : Nat :=
  pool.queue.queuedWorks.length + ∑ i, (pool.personal i).length

theorem left_takePersonal {worker : ι} {work : Work} {rest : PersonalWorkQueue Work}
    (h : pool.personal worker = work :: rest) :
    ∑ i, (update pool.personal worker rest i).length + 1 = ∑ i, (pool.personal i).length := by
  have hWorker := mem_univ worker
  rw [← add_sum_erase _ _ hWorker, ← add_sum_erase _ _ hWorker, update_self, h,
    length_cons, add_right_comm]
  congr 1
  apply sum_congr rfl
  intro i hi
  rw [update_of_ne (ne_of_mem_erase hi)]

theorem left_takeQueued {worker : ι} (h : pool.queue.Counted)
    (hPersonal : pool.personal worker = [])
    (hTakeable : pool.queue.takeable (workType worker) ≠ 0) :
    (pool.waitForWork workType worker).left + 1 = pool.left := by
  have hServes := found_serves workType h worker
  unfold waitForWork
  generalize pool.found workType worker = result at hServes ⊢
  cases hServes with
  | wait _ hNone => exact absurd hNone hTakeable
  | personal hSome => cases hPersonal.symm.trans hSome
  | queued _ _ hMore =>
    have hLength := hMore.queuedWorks_perm.length_eq
    rw [length_cons] at hLength
    unfold left
    rw [hLength]
    exact add_right_comm _ _ _

section

variable (h : Inv workType pool) (hIndirect : ∃ i, workType i = .indirect)
include h hIndirect

theorem exists_taker (hLeft : pool.left ≠ 0) :
    ∃ worker, (∀ type, pool.waiting worker ≠ asleep type) ∧
      (pool.waitForWork workType worker).left + 1 = pool.left := by
  by_cases hPersonal : ∀ i, pool.personal i = []
  · -- an indirect worker that does not sleep, or one that has been notified
    have hPending : pool.queue.takeable .indirect ≠ 0 := by
      intro hZero
      apply hLeft
      rw [left, ← h.counted]
      simp only [hPersonal, length_nil, sum_const_zero]
      exact hZero
    obtain ⟨i, hi⟩ := hIndirect
    by_cases hAsleep : pool.waiting i = asleep .indirect
    · obtain ⟨j, hj, -⟩ := (h.served .indirect).exists_notified hAsleep
        (Nat.pos_of_ne_zero hPending)
      have hType := h.own j _ (.inr hj)
      refine ⟨j, by simp [hj], left_takeQueued h.counted (hPersonal j) ?_⟩
      rwa [← hType]
    · refine ⟨i, ?_, left_takeQueued h.counted (hPersonal i) (by rwa [hi])⟩
      intro type hSleep
      have hType := h.own i type (.inl hSleep)
      rw [hType, hi] at hSleep
      exact hAsleep hSleep
  · push Not at hPersonal
    obtain ⟨i, hi⟩ := hPersonal
    refine ⟨i, fun type hSleep => hi (h.idle i type hSleep), ?_⟩
    have hServes := found_serves workType h.counted i
    unfold waitForWork
    generalize pool.found workType i = result at hServes ⊢
    cases hServes with
    | wait hNone _ => exact absurd hNone hi
    | queued hNone _ _ => exact absurd hNone hi
    | personal hSome =>
      unfold left
      rw [← left_takePersonal hSome]
      rfl

theorem exists_drain :
    ∃ workers : List ι, EveryStep (step workType) Allowed pool (workers.map .waitForWork) ∧
      (after (step workType) pool (workers.map .waitForWork)).left = 0 := by
  induction hLeft : pool.left generalizing pool with
  | zero => exact ⟨[], trivial, hLeft⟩
  | succ n ih =>
    obtain ⟨worker, hAwake, hLess⟩ := exists_taker h hIndirect (by omega)
    obtain ⟨workers, hAllowed, hNone⟩ := ih (waitForWork_inv h hAwake) (by omega)
    exact ⟨worker :: workers, ⟨hAwake, hAllowed⟩, hNone⟩

end

omit [DecidableEq ι] in
/-! ## All runs -/

/-- A new queue, with the list for indirect works replaced or not. -/
inductive Prepared : MultiWorkQueue Work → Prop
  | new : Prepared (.new Work)
  | setIndirectWorkList {newWorkList : AbstractWorkContainer Work} : newWorkList.works = [] →
      Prepared ((MultiWorkQueue.new Work).setIndirectWorkList newWorkList)

variable {q : MultiWorkQueue Work}

theorem Prepared.queuedWorks_eq_nil (h : Prepared q) :
    q.queuedWorks = [] ∧ q.numPendingWorks = 0 := by
  cases h with
  | new => exact ⟨rfl, rfl⟩
  | setIndirectWorkList hEmpty =>
    refine ⟨?_, rfl⟩
    show [] ++ (MultiWorkQueue.worksOf _ .indirect ++ []) = []
    rw [nil_append, append_nil, MultiWorkQueue.setIndirectWorkList]
    exact (MultiWorkQueue.worksOf_update_self _ _ _ _).trans hEmpty

theorem Prepared.counted (h : Prepared q) : q.Counted := by
  obtain ⟨hNone, hZero⟩ := h.queuedWorks_eq_nil
  rw [Counted, hNone, hZero, length_nil]

omit [DecidableEq ι] in
theorem start_inv (h : Prepared q) : Inv workType (start q) where
  counted := h.counted
  own i type hWaits := by simp [start] at hWaits
  idle i type _ := rfl
  served type := by
    rintro ⟨i, hi⟩
    simp [start] at hi

omit [DecidableEq ι] [Fintype ι] in
theorem found_ne_error (h : pool.queue.Counted) (worker : ι) (e : MultiWorkQueueError) :
    pool.found workType worker ≠ .error e := by
  have hServes := found_serves workType h worker
  intro hError
  rw [hError] at hServes
  cases hServes

/-- Every work that is added is queued or has been returned once, personal works to their owner.
`numPendingWorks` is right and nobody gets an exception. A worker that sleeps has no personal
work, and the works it may take are at most as many as the notified workers of its type that have
nothing else to do first. Whatever has been left, the workers that are awake can take it. -/
theorem handsOutOnce (workType : ι → QueueWorkType) (hPresent : ∀ type, ∃ i, workType i = type)
    (q : MultiWorkQueue Work) (hPrepared : Prepared q) (calls : List (PoolCall Work ι))
    (hAllowed : EveryStep (step workType) Allowed (start q) calls) :
    let pool := after (step workType) (start q) calls
    (pool.queue.queuedWorks ++
        collect (step workType) (returned workType) (start q) calls).Perm
      (calls.flatMap added) ∧
    (∀ owner, (pool.personal owner ++
        collect (step workType) (returnedTo workType owner) (start q) calls).Perm
      (calls.flatMap (addedFor owner))) ∧
    pool.queue.numPendingWorks = pool.queue.queuedWorks.length ∧
    (∀ worker e, pool.found workType worker ≠ .error e) ∧
    (∀ worker type, pool.waiting worker = asleep type →
      type = workType worker ∧ pool.personal worker = [] ∧
      pool.queue.takeable type ≤
        ((notifiedThreads pool.waiting type).filter fun i => pool.personal i = []).card) ∧
    ∃ workers : List ι, EveryStep (step workType) Allowed pool (workers.map .waitForWork) ∧
      let last := after (step workType) pool (workers.map .waitForWork)
      last.queue.queuedWorks = [] ∧ ∀ owner, last.personal owner = [] := by
  intro pool
  have hInv : Inv workType pool :=
    after_invariant (step workType) step_inv (start_inv hPrepared) hAllowed
  have hQueued := collect_perm (step workType) step_counted queued_balance
    (s := start q) hPrepared.counted calls
  refine ⟨?_, fun owner => ?_, hInv.counted, found_ne_error hInv.counted, ?_, ?_⟩
  · rw [collect_const, start, hPrepared.queuedWorks_eq_nil.1] at hQueued
    exact hQueued.symm
  · have hPersonal := collect_perm (step workType) step_counted (personal_balance owner)
      (s := start q) hPrepared.counted calls
    rw [collect_const] at hPersonal
    exact hPersonal.symm
  · intro worker type hSleep
    exact ⟨hInv.own worker type (.inl hSleep), hInv.idle worker type hSleep,
      hInv.served type ⟨worker, mem_sleepers.mpr hSleep⟩⟩
  · obtain ⟨workers, hAwake, hLeft⟩ := exists_drain hInv (hPresent .indirect)
    exact ⟨workers, hAwake, by simpa [left] using hLeft⟩

/-- A direct worker sleeps until a work is announced, and a mirror worker gets a personal work. -/
theorem handsOutOnce_three :
    let workType : Fin 3 → QueueWorkType := ![.direct, .indirect, .mirror]
    let q := (new Nat).setIndirectWorkList (.user .empty)
    let calls : List (PoolCall Nat (Fin 3)) :=
      [.waitForWork 0, .addDirectWork 7 0 ∅ {0}, .addPersonalWork 9 2, .waitForWork 0,
        .waitForWork 2]
    let pool := after (step workType) (start q) calls
    (pool.queue.queuedWorks ++
        collect (step workType) (returned workType) (start q) calls).Perm
      (calls.flatMap added) := by
  intro workType q calls
  refine (handsOutOnce workType ?_ q (.setIndirectWorkList rfl) calls ?_).1
  · decide
  · decide

end Fhgfs.Workers.WorkerPool
