import Fhgfs.Lib.Run
import Fhgfs.Lib.Tickets

/-!
# Lock managers with waiter queues

The request protocol of a lock manager that answers lock, unlock and cancel requests, queues
the lock requests that have conflictors, and retries the queued ones when an operation
released something. `LockManager` has the operations of such a manager on its state as
parameters; `LockManager.request` puts them together.

* `LockManager.answer`: the ways in which a request is answered, with the tests that lead
  there. There are no others.
* `LockManager.step_invariant`: the invariant rule, one premise for each operation.
* `WaiterAccount.ledger`: if the operations account for the queue entries they touch, then in
  every run each entry that was queued is still queued, was withdrawn by a cancel or was
  notified, exactly once, and the register of tickets agrees with the queues.
-/

namespace Fhgfs

open List Run

inductive RequestKind
  | cancel
  | unlock
  | lock
deriving DecidableEq

/-- The operations of a lock manager, for requests `ρ` and states `σ`. The flag next to a
state tells whether something was released; the list is the list of waiters to notify. -/
structure LockManager (ρ σ : Type) where
  kind : ρ → RequestKind
  allowsWaiting : ρ → Bool
  isWaiting : ρ → σ → Bool
  isGranted : ρ → σ → Bool
  hasConflicts : ρ → σ → Bool
  cancel : ρ → σ → σ × Bool
  unlock : ρ → σ → σ × Bool
  grant : ρ → σ → σ
  enqueue : ρ → σ → σ
  tryNextWaiters : σ → σ × List ρ

namespace LockManager

structure Reply (ρ σ : Type) where
  state : σ
  immediatelyGranted : Bool
  notifyList : List ρ
deriving DecidableEq

variable {ρ σ : Type} (m : LockManager ρ σ)

/-- The last part of a request: retry the waiters if something was released. -/
def finish (tryNextWaiters immediatelyGranted : Bool) (s : σ) : Reply ρ σ :=
  if tryNextWaiters then ⟨(m.tryNextWaiters s).1, immediatelyGranted, (m.tryNextWaiters s).2⟩
  else ⟨s, immediatelyGranted, []⟩

/-- A lock request that is neither waiting nor granted. What the handle has is released first,
for up- and downgrades, unless the request is going to fail. -/
def newLock (r : ρ) (s : σ) : Reply ρ σ :=
  if !m.hasConflicts r s then
    m.finish (m.unlock r s).2 true (m.grant r (m.unlock r s).1)
  else if m.allowsWaiting r then
    m.finish (m.unlock r s).2 false (m.enqueue r (m.unlock r s).1)
  else ⟨s, false, []⟩

def request (r : ρ) (s : σ) : Reply ρ σ :=
  match m.kind r with
  | .cancel => m.finish (m.cancel r s).2 true (m.cancel r s).1
  | .unlock => m.finish (m.unlock r s).2 true (m.unlock r s).1
  | .lock =>
    if m.isWaiting r s then ⟨s, false, []⟩
    else if m.isGranted r s then ⟨s, true, []⟩
    else m.newLock r s

/-- One request, seen as a transition of the state. -/
def step (s : σ) (r : ρ) : σ := (m.request r s).state

/-! ## Answers -/

/-- The ways in which a request is answered. -/
inductive Answer (r : ρ) (s : σ) : Reply ρ σ → Prop
  | cancelled (hKind : m.kind r = .cancel) :
      Answer r s (m.finish (m.cancel r s).2 true (m.cancel r s).1)
  | unlocked (hKind : m.kind r = .unlock) :
      Answer r s (m.finish (m.unlock r s).2 true (m.unlock r s).1)
  | stillWaiting (hKind : m.kind r = .lock) (hWaiting : m.isWaiting r s = true) :
      Answer r s ⟨s, false, []⟩
  | alreadyGranted (hKind : m.kind r = .lock) (hWaiting : m.isWaiting r s = false)
      (hGranted : m.isGranted r s = true) : Answer r s ⟨s, true, []⟩
  | refused (hKind : m.kind r = .lock) (hConflict : m.hasConflicts r s = true)
      (hWait : m.allowsWaiting r = false) : Answer r s ⟨s, false, []⟩
  | granted (hKind : m.kind r = .lock) (hWaiting : m.isWaiting r s = false)
      (hGranted : m.isGranted r s = false) (hFree : m.hasConflicts r s = false) :
      Answer r s (m.finish (m.unlock r s).2 true (m.grant r (m.unlock r s).1))
  | queued (hKind : m.kind r = .lock) (hWaiting : m.isWaiting r s = false)
      (hGranted : m.isGranted r s = false) (hConflict : m.hasConflicts r s = true)
      (hWait : m.allowsWaiting r = true) :
      Answer r s (m.finish (m.unlock r s).2 false (m.enqueue r (m.unlock r s).1))

theorem answer (r : ρ) (s : σ) : m.Answer r s (m.request r s) := by
  unfold request
  cases hKind : m.kind r with
  | cancel => exact .cancelled hKind
  | unlock => exact .unlocked hKind
  | lock =>
    simp only
    split
    · exact .stillWaiting hKind ‹_›
    rename_i hWaiting
    have hWaiting := eq_false_of_ne_true hWaiting
    split
    · exact .alreadyGranted hKind hWaiting ‹_›
    rename_i hGranted
    have hGranted := eq_false_of_ne_true hGranted
    unfold newLock
    simp only [Bool.not_eq_true']
    split
    · exact .granted hKind hWaiting hGranted ‹_›
    · rename_i hConflict
      have hConflict := Bool.eq_true_of_not_eq_false hConflict
      split
      · exact .queued hKind hWaiting hGranted hConflict ‹_›
      · exact .refused hKind hConflict (eq_false_of_ne_true ‹_›)

@[simp] theorem finish_immediatelyGranted (tryNext granted : Bool) (s : σ) :
    (m.finish tryNext granted s).immediatelyGranted = granted := by
  cases tryNext <;> rfl

theorem finish_state {P : σ → Prop} {tryNext granted : Bool} {s : σ}
    (hRetry : tryNext = true → P (m.tryNextWaiters s).1) (hSame : tryNext = false → P s) :
    P (m.finish tryNext granted s).state := by
  cases tryNext with
  | false => exact hSame rfl
  | true => exact hRetry rfl

/-- The invariant rule of a manager: a property that retries keep, and that the steps of the
request `r` before the retry keep, holds after the request. -/
theorem step_invariant {m : LockManager ρ σ} {I : σ → Prop} {r : ρ} {s : σ} (hs : I s)
    (hRetry : ∀ t, I t → I (m.tryNextWaiters t).1) (hCancel : I (m.cancel r s).1)
    (hUnlock : I (m.unlock r s).1)
    (hGrant : m.kind r = .lock → m.hasConflicts r s = false → I (m.grant r (m.unlock r s).1))
    (hEnqueue : m.kind r = .lock → I (m.enqueue r (m.unlock r s).1)) : I (m.step s r) := by
  have hFinish : ∀ tryNext granted t, I t → I (m.finish tryNext granted t).state := by
    intro tryNext granted t ht
    exact m.finish_state (fun _ => hRetry t ht) (fun _ => ht)
  unfold step
  have hAnswer := m.answer r s
  generalize m.request r s = reply at hAnswer ⊢
  cases hAnswer with
  | cancelled _ => exact hFinish _ _ _ hCancel
  | unlocked _ => exact hFinish _ _ _ hUnlock
  | stillWaiting _ _ => exact hs
  | alreadyGranted _ _ _ => exact hs
  | refused _ _ _ => exact hs
  | granted hKind _ _ hFree => exact hFinish _ _ _ (hGrant hKind hFree)
  | queued hKind _ _ _ _ => exact hFinish _ _ _ (hEnqueue hKind)

end LockManager

/-! ## Accounting for the waiters -/

/-- The operations of a manager account for the queue entries: `queued` lists the waiters of a
state, `ids` is its register of their tickets, `own r` selects the waiters that a cancel `r`
withdraws, and `label` is the part of an entry that stays fixed until it is notified. -/
structure WaiterAccount {ρ σ κ τ : Type} [LinearOrder κ] (m : LockManager ρ σ)
    (queued : σ → List ρ) (ids : σ → OrderedSet (id : κ → κ)) (ticket : ρ → κ)
    (own : ρ → ρ → Bool) (label : ρ → τ) : Prop where
  isWaiting_iff : ∀ r s, m.isWaiting r s = true ↔ ticket r ∈ ids s
  unlock_queued : ∀ r s, queued (m.unlock r s).1 = queued s
  unlock_ids : ∀ r s, ids (m.unlock r s).1 = ids s
  grant_queued : ∀ r s, queued (m.grant r s) = queued s
  grant_ids : ∀ r s, ids (m.grant r s) = ids s
  enqueue_queued : ∀ r s, (queued (m.enqueue r s)).Perm (queued s ++ [r])
  enqueue_ids : ∀ r s, ids (m.enqueue r s) = (ids s).insert (ticket r)
  cancel_queued : ∀ r s, queued (m.cancel r s).1 = (queued s).filter (fun w => !own r w)
  cancel_ids : ∀ r s,
    ids (m.cancel r s).1 = eraseTickets ticket ((queued s).filter (own r)) (ids s)
  retry_queued : ∀ s, ((queued s).map label).Perm
    ((queued (m.tryNextWaiters s).1).map label ++ (m.tryNextWaiters s).2.map label)
  retry_registered : ∀ s, Registered ticket (ids s) (queued s) →
    Registered ticket (ids (m.tryNextWaiters s).1) (queued (m.tryNextWaiters s).1)

namespace WaiterAccount

variable {ρ σ κ τ : Type} [LinearOrder κ] {m : LockManager ρ σ} {queued : σ → List ρ}
  {ids : σ → OrderedSet (id : κ → κ)} {ticket : ρ → κ} {own : ρ → ρ → Bool} {label : ρ → τ}

section Contributions

variable (m) (queued) (ids) (ticket) (own) (label)

/-- The request that a step adds to the queues: a lock request that is willing to wait, is not
waiting yet and was not granted. -/
def entered (s : σ) (r : ρ) : List τ :=
  if m.kind r = .lock ∧ m.allowsWaiting r = true ∧ ticket r ∉ ids s ∧
      (m.request r s).immediatelyGranted = false then [label r]
  else []

/-- The waiters that a step withdraws: those that a cancel request selects. -/
def cancelled (s : σ) (r : ρ) : List τ :=
  if m.kind r = .cancel then ((queued s).filter (own r)).map label else []

def notified (s : σ) (r : ρ) : List τ := (m.request r s).notifyList.map label

end Contributions

variable (h : WaiterAccount m queued ids ticket own label)
include h

theorem finish_queued (tryNext granted : Bool) (s : σ) :
    ((queued s).map label).Perm ((queued (m.finish tryNext granted s).state).map label ++
        (m.finish tryNext granted s).notifyList.map label) := by
  cases tryNext with
  | false => simp [LockManager.finish]
  | true => exact h.retry_queued s

section

variable {s : σ} (hs : Registered ticket (ids s) (queued s))
include hs

theorem finish_registered (tryNext granted : Bool) :
    Registered ticket (ids (m.finish tryNext granted s).state)
      (queued (m.finish tryNext granted s).state) := by
  cases tryNext with
  | false => exact hs
  | true => exact h.retry_registered s hs

theorem step_registered (r : ρ) : Registered ticket (ids (m.step s r)) (queued (m.step s r)) := by
  have hUnlock : Registered ticket (ids (m.unlock r s).1) (queued (m.unlock r s).1) := by
    rwa [h.unlock_ids, h.unlock_queued]
  unfold LockManager.step
  have hAnswer := m.answer r s
  generalize m.request r s = reply at hAnswer ⊢
  cases hAnswer with
  | cancelled _ =>
    refine h.finish_registered ?_ _ _
    rw [h.cancel_ids, h.cancel_queued]
    exact hs.withdraw (own r)
  | unlocked _ => exact h.finish_registered hUnlock _ _
  | stillWaiting _ _ => exact hs
  | alreadyGranted _ _ _ => exact hs
  | refused _ _ _ => exact hs
  | granted _ _ _ _ =>
    refine h.finish_registered ?_ _ _
    rwa [h.grant_ids, h.grant_queued]
  | queued _ hWaiting _ _ _ =>
    have hFresh : ticket r ∉ ids (m.unlock r s).1 := by
      rw [h.unlock_ids, ← h.isWaiting_iff, hWaiting]
      exact Bool.false_ne_true
    refine h.finish_registered ?_ _ _
    rw [h.enqueue_ids]
    exact (hUnlock.enqueue hFresh).perm (h.enqueue_queued _ _).symm

end

theorem step_balance (s : σ) (r : ρ) :
    ((queued s).map label ++ entered m ids ticket label s r).Perm
      ((queued (m.step s r)).map label ++
        (cancelled m queued own label s r ++ notified m label s r)) := by
  unfold LockManager.step entered cancelled notified
  have hAnswer := m.answer r s
  generalize m.request r s = reply at hAnswer ⊢
  cases hAnswer with
  | cancelled hKind =>
    simp only [hKind, reduceCtorEq, false_and, if_false, if_true, append_nil]
    have hSplit : ((queued s).map label).Perm (((queued s).filter (own r)).map label ++
        (queued (m.cancel r s).1).map label) := by
      rw [h.cancel_queued, ← map_append]
      exact ((filter_append_perm _ _).symm).map label
    have hFinish := h.finish_queued (m.cancel r s).2 true (m.cancel r s).1
    refine (hSplit.trans (hFinish.append_left _)).trans ?_
    rw [← append_assoc, ← append_assoc]
    exact perm_append_comm.append_right _
  | unlocked hKind =>
    simp only [hKind, reduceCtorEq, false_and, if_false, append_nil, nil_append]
    have hFinish := h.finish_queued (m.unlock r s).2 true (m.unlock r s).1
    rwa [h.unlock_queued] at hFinish
  | stillWaiting hKind hWaiting =>
    simp [hKind, (h.isWaiting_iff r s).mp hWaiting]
  | alreadyGranted hKind hWaiting hGranted => simp [hKind]
  | refused hKind hConflict hWait => simp [hKind, hWait]
  | granted hKind hWaiting hGranted hFree =>
    simp only [hKind, reduceCtorEq, LockManager.finish_immediatelyGranted, Bool.true_eq_false,
      and_false, if_false, append_nil, nil_append]
    have hFinish := h.finish_queued (m.unlock r s).2 true (m.grant r (m.unlock r s).1)
    rwa [h.grant_queued, h.unlock_queued] at hFinish
  | queued hKind hWaiting hGranted hConflict hWait =>
    have hFresh : ticket r ∉ ids s := by
      rw [← h.isWaiting_iff, hWaiting]
      exact Bool.false_ne_true
    simp only [hKind, hWait, hFresh, not_false_eq_true, reduceCtorEq,
      LockManager.finish_immediatelyGranted, and_self, if_true, if_false, nil_append]
    have hEnter : ((queued s).map label ++ [label r]).Perm
        ((queued (m.enqueue r (m.unlock r s).1)).map label) := by
      have hPerm := (h.enqueue_queued r (m.unlock r s).1).symm.map label
      rwa [h.unlock_queued, map_append] at hPerm
    exact hEnter.trans (h.finish_queued _ false _)

theorem ledger {s : σ}
    (hQueue : queued s = []) (hIDs : ids s = OrderedSet.empty) (requests : List ρ) :
    Registered ticket (ids (after m.step s requests)) (queued (after m.step s requests)) ∧
    (collect m.step (entered m ids ticket label) s requests).Perm
      ((queued (after m.step s requests)).map label ++
        (collect m.step (cancelled m queued own label) s requests ++
          collect m.step (notified m label) s requests)) := by
  have hStart : Registered ticket (ids s) (queued s) := by
    rw [hQueue, hIDs]
    exact Registered.nil
  constructor
  · exact after_invariant m.step (I := fun s => Registered ticket (ids s) (queued s))
      (A := fun _ _ => True) (fun _ r hs _ => h.step_registered hs r) hStart
      (everyStep_of_forall m.step fun _ _ _ => trivial)
  · have hBalance := collect_perm m.step (I := fun _ => True) (fun _ _ _ => trivial)
      (fun s r _ => h.step_balance s r) (s := s) trivial requests
    rw [hQueue] at hBalance
    exact hBalance.trans ((collect_append_perm m.step _ _ _ _).append_left _)

end WaiterAccount

end Fhgfs
