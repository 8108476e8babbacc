import Fhgfs.Lib.Holdings
import Fhgfs.Lib.Run
import Fhgfs.Nodes.NodeConnPoolThreads
import Mathlib.Algebra.BigOperators.Group.Finset.Piecewise

/-!
# The accounts of a connection pool

* `Inv`: where all sockets are, what the counters say, and that a thread does not sleep while it
  could go on, unless others have been woken for that.
* `Inv.update`: what a call of one thread has to keep.
* `accounts`: the result about all runs.
-/

namespace Fhgfs.Nodes.ConnSystem

open Multiset ConnectionList ConnThread NodeConnPool ConnStage Function List Holdings
open Function WaitState ConditionVariable ConnectionList

variable {ι : Type} [DecidableEq ι] [Fintype ι]

structure Inv (variant : PoolVariant) (maxConns : Nat) (s : ConnSystem ι) : Prop where
  /-- Every socket is in the list, being shut down or deleted. -/
  sockets : (ConnectionList.socks s.pool.connList : Multiset Nat) + s.deleted +
    ∑ i, ((s.thread i).stage.closed : Multiset Nat) = Multiset.range s.numSocks
  /-- The sockets that are not available are with the threads. -/
  taken : ∑ i, ((s.thread i).held : Multiset Nat) = takenSocks s.pool.connList
  available : s.pool.availableConns = availableCount s.pool.connList
  established : s.pool.establishedConns = s.pool.connList.length + ∑ i, (s.thread i).stage.connects
  bound : s.pool.establishedConns ≤ s.pool.maxConns
  maxConns : s.pool.maxConns = maxConns
  awake : ∀ i, (s.thread i).stage ≠ .acquiring → s.waiting i = running
  covered : Covered s.waiting () (fun _ => variant = .server) s.pool.capacity

variable {variant : PoolVariant} {maxConns : Nat} {s : ConnSystem ι} {t : ι} {x : ConnThread}
  {pool : NodeConnPool} {waiting : ι → WaitState Unit} {numSocks : Nat} {deleted : List Nat}

section

variable (h : Inv variant maxConns s)
include h

theorem Inv.update
    (hSockets : (ConnectionList.socks pool.connList : Multiset Nat) + deleted + x.stage.closed +
        Multiset.range s.numSocks =
      ConnectionList.socks s.pool.connList + s.deleted + (s.thread t).stage.closed +
        Multiset.range numSocks)
    (hTaken : (x.held : Multiset Nat) + takenSocks s.pool.connList =
      (s.thread t).held + takenSocks pool.connList)
    (hAvailable : pool.availableConns = availableCount pool.connList)
    (hEstablished : pool.connList.length + x.stage.connects + s.pool.establishedConns =
      s.pool.connList.length + (s.thread t).stage.connects + pool.establishedConns)
    (hBound : pool.establishedConns ≤ pool.maxConns)
    (hMax : pool.maxConns = s.pool.maxConns)
    (hAwake : ∀ i, (Function.update s.thread t x i).stage ≠ .acquiring → waiting i = running)
    (hCovered : Covered waiting () (fun _ => variant = .server) pool.capacity) :
    Inv variant maxConns ⟨pool, Function.update s.thread t x, waiting, numSocks, deleted⟩ where
  sockets := Holdings.balance_update
    (fun th : ConnThread => (th.stage.closed : Multiset Nat)) h.sockets hSockets
  taken := by
    have hSum := Holdings.sum_update (fun th : ConnThread => (th.held : Multiset Nat)) s.thread t x
    rw [h.taken, add_comm (takenSocks s.pool.connList : Multiset Nat), hTaken, add_comm] at hSum
    exact add_left_cancel hSum
  available := hAvailable
  established := (Holdings.balance_update (fun th : ConnThread => th.stage.connects)
    h.established.symm hEstablished).symm
  bound := hBound
  maxConns := hMax.trans h.maxConns
  awake := hAwake
  covered := hCovered

/-! ## Who waits -/

theorem Inv.awake_of_update (hStage : (s.thread t).stage ≠ .acquiring)
    (i : ι) (hi : (Function.update s.thread t x i).stage ≠ .acquiring) : s.waiting i = running := by
  by_cases hSame : i = t
  · exact hSame ▸ h.awake t hStage
  · rw [update_of_ne hSame] at hi
    exact h.awake i hi

theorem Inv.awake_of_signal (hStage : (s.thread t).stage ≠ .acquiring)
    (woken : Finset ι) (i : ι) (hi : (Function.update s.thread t x i).stage ≠ .acquiring) :
    wakeThreads woken s.waiting i = running := by
  unfold wakeThreads
  rw [h.awake_of_update hStage i hi]
  split <;> rfl

theorem Inv.awake_of_proceed (i : ι) (hi : (Function.update s.thread t x i).stage ≠ .acquiring) :
    Function.update s.waiting t running i = running := by
  by_cases hSame : i = t
  · rw [hSame, update_self]
  · rw [update_of_ne hSame] at hi ⊢
    exact h.awake i hi

end

variable {woken : Finset ι}

section

variable (h : Inv variant maxConns s)
include h

theorem Inv.covered_signal (hSignals : s.Signals variant woken) :
    Covered (wakeThreads woken s.waiting) () (fun _ => variant = .server)
      (s.pool.capacity + 1) := by
  cases variant with
  | server => exact h.covered.signal hSignals fun _ _ => rfl
  | client => exact Covered.broadcast hSignals.ge

theorem Inv.covered_proceed (hAwake : s.waiting t ≠ asleep ())
    {n : Nat} (hCapacity : s.pool.capacity = n + 1) :
    Covered (Function.update s.waiting t running) () (fun _ => variant = .server) n := by
  have hBefore := h.covered
  rw [hCapacity] at hBefore
  exact hBefore.run (fun _ _ hServer => hServer) fun _ => hAwake

theorem Inv.covered_leave (hLeave : s.waiting t = notified () → variant = .client) :
    Covered (Function.update s.waiting t running) () (fun _ => variant = .server)
      s.pool.capacity := by
  apply h.covered.run_outside fun _ _ hServer => hServer
  intro hNotified
  rw [hLeave hNotified]
  nofun

end

/-! ## Acquiring -/

def AtAcquire (th : ConnThread) : Prop := th.stage = .outside ∨ th.stage = .acquiring

omit [DecidableEq ι] [Fintype ι] in
theorem AtAcquire.shares {th : ConnThread} (h : AtAcquire th) :
    th.stage.grabbed = [] ∧ th.stage.closed = [] ∧ th.stage.connects = 0 := by
  rcases h with h | h <;> rw [h] <;> exact ⟨rfl, rfl, rfl⟩

section

variable (h : Inv variant maxConns s) (hAt : AtAcquire (s.thread t))
include h hAt

theorem leave_inv (hLeave : s.waiting t = notified () → variant = .client) :
    Inv variant maxConns ((s.goTo t .outside).proceed t) := by
  obtain ⟨hGrabbed, hClosed, hConnects⟩ := hAt.shares
  apply h.update
  · rw [hClosed]
    rfl
  · rw [ConnThread.held, ConnThread.held, hGrabbed]
    rfl
  · exact h.available
  · rw [hConnects]
    rfl
  · exact h.bound
  · rfl
  · exact h.awake_of_proceed
  · exact h.covered_leave hLeave

theorem sleep_inv (hExhausted : s.pool.isExhausted = true) :
    Inv variant maxConns
      { s.goTo t .acquiring with waiting := update s.waiting t (asleep ()) } := by
  obtain ⟨hGrabbed, hClosed, hConnects⟩ := hAt.shares
  have hZero : s.pool.capacity = 0 := by
    simp only [isExhausted, Bool.and_eq_true, beq_iff_eq] at hExhausted
    rw [capacity, hExhausted.1, hExhausted.2, Nat.sub_self]
  apply h.update
  · rw [hClosed]
    rfl
  · rw [held, held, hGrabbed]
    rfl
  · exact h.available
  · rw [hConnects]
    rfl
  · exact h.bound
  · rfl
  · intro i hi
    by_cases hSame : i = t
    · rw [hSame, update_self] at hi
      exact absurd rfl hi
    · rw [update_of_ne hSame] at hi
      exact (update_of_ne hSame _ _).trans (h.awake i hi)
  · show Covered _ _ _ s.pool.capacity
    rw [hZero]
    exact covered_zero

end

variable {sock : Nat}

section

variable (h : Inv variant maxConns s)
include h

section

variable (hAt : AtAcquire (s.thread t)) (hAwake : s.waiting t ≠ asleep ())
include hAt hAwake

theorem grab_inv (hAvailable : s.pool.availableConns ≠ 0)
    (hGrab : s.pool.grabConn = some (sock, pool)) :
    Inv variant maxConns ({ s.acquire t sock with pool }.proceed t) := by
  obtain ⟨hGrabbed, hClosed, hConnects⟩ := hAt.shares
  have hCount := h.available
  obtain ⟨first, l, hList, hSocks, hTaken, hLess⟩ := exists_grabAvailable (hCount ▸ hAvailable)
  unfold NodeConnPool.grabConn at hGrab
  rw [hList] at hGrab
  cases hGrab
  have hLength : l.length = s.pool.connList.length := by
    simpa [ConnectionList.socks] using congrArg length hSocks
  apply h.update
  · show (ConnectionList.socks l : Multiset Nat) + _ + _ + _ = _
    rw [hSocks, hClosed]
    rfl
  · show ((first :: (s.thread t).acquired ++ [] : List Nat) : Multiset Nat) + _ =
      _ + (takenSocks l : Multiset Nat)
    rw [ConnThread.held, hGrabbed, append_nil, append_nil, Multiset.coe_eq_coe.mpr hTaken,
      ← Multiset.cons_coe, ← Multiset.cons_coe, Multiset.cons_add, Multiset.add_cons]
  · show s.pool.availableConns - 1 = availableCount l
    omega
  · show l.length + 0 + _ = _
    rw [hConnects, hLength]
  · exact h.bound
  · rfl
  · exact h.awake_of_proceed
  · apply h.covered_proceed hAwake
    show _ = s.pool.availableConns - 1 + (s.pool.maxConns - s.pool.establishedConns) + 1
    unfold NodeConnPool.capacity
    omega

theorem startConnect_inv (hRoom : s.pool.establishedConns ≠ s.pool.maxConns) :
    Inv variant maxConns ({ s.goTo t .connecting with pool := s.pool.startConnect }.proceed t) := by
  obtain ⟨hGrabbed, hClosed, hConnects⟩ := hAt.shares
  have hLess : s.pool.establishedConns < s.pool.maxConns := lt_of_le_of_ne h.bound hRoom
  apply h.update
  · rw [hClosed]
    rfl
  · rw [ConnThread.held, ConnThread.held, hGrabbed]
    rfl
  · exact h.available
  · rw [hConnects]
    show _ + 1 + _ = _ + 0 + (_ + 1)
    exact add_right_comm _ _ _
  · exact hLess
  · rfl
  · exact h.awake_of_proceed
  · apply h.covered_proceed hAwake
    show s.pool.capacity =
      s.pool.availableConns + (s.pool.maxConns - (s.pool.establishedConns + 1)) + 1
    unfold NodeConnPool.capacity
    omega

end

theorem acquireStreamSocketEx_inv {allowWaiting nicListCopied : Bool}
    (hAt : (s.thread t).stage = .outside ∨
      (s.thread t).stage = .acquiring ∧ s.waiting t = notified () ∧ allowWaiting = true)
    (hCopied : nicListCopied = true ∨ variant = .client) :
    Inv variant maxConns (s.acquireStreamSocketEx t allowWaiting nicListCopied) := by
  have hAt' : AtAcquire (s.thread t) := hAt.imp id And.left
  have hRunning : (s.thread t).stage = .outside → s.waiting t = running := by
    intro hOutside
    exact h.awake t (by rw [hOutside]; nofun)
  have hAwake : s.waiting t ≠ asleep () := by
    rcases hAt with hOutside | ⟨-, hNotified, -⟩
    · rw [hRunning hOutside]
      nofun
    · rw [hNotified]
      nofun
  unfold acquireStreamSocketEx
  split
  · rename_i hExhausted
    split
    · rename_i hNotAllowed
      apply leave_inv h hAt'
      rcases hAt with hOutside | ⟨-, -, hAllow⟩
      · rw [hRunning hOutside]
        nofun
      · simp [hAllow] at hNotAllowed
    · exact sleep_inv h hAt' hExhausted
  · rename_i hNotExhausted
    split
    · rename_i hAvailable
      split
      · rename_i hNone
        obtain ⟨sock, l, hGrab, -⟩ := exists_grabAvailable (h.available ▸ hAvailable)
        simp [grabConn, hGrab] at hNone
      · rename_i hGrab
        exact grab_inv h hAt' hAwake hAvailable hGrab
    · rename_i hNone
      split
      · rename_i hNoCopy
        apply leave_inv h hAt'
        intro _
        exact hCopied.resolve_left (by simpa using hNoCopy)
      · apply startConnect_inv h hAt' hAwake
        intro hFull
        simp [isExhausted, not_not.mp hNone, hFull] at hNotExhausted

theorem connectSucceeded_inv (hStage : (s.thread t).stage = .connecting) :
    Inv variant maxConns { s.acquire t s.numSocks with
      pool := s.pool.connectSucceeded s.numSocks
      numSocks := s.numSocks + 1 } := by
  obtain ⟨hSocks, hTaken, hCount⟩ := s.pool.connectSucceeded_spec s.numSocks
  apply h.update
  · rw [hSocks, hStage, ← Multiset.coe_add, Multiset.coe_singleton, Multiset.range_succ,
      ← Multiset.singleton_add]
    show (_ + _ + (s.deleted : Multiset Nat) + (0 : Multiset Nat) + _ : Multiset Nat) =
      _ + _ + 0 + _
    abel
  · rw [hTaken, ConnThread.held, ConnThread.held, hStage, ← Multiset.coe_add, ← Multiset.coe_add,
      ← Multiset.coe_add, ← Multiset.cons_coe, ← Multiset.singleton_add, Multiset.coe_singleton]
    show (_ + _ + (0 : Multiset Nat) + _ : Multiset Nat) = _ + 0 + _
    abel
  · exact h.available.trans hCount.symm
  · rw [hStage]
    show (s.pool.connList ++ [_]).length + 0 + _ = _ + 1 + _
    rw [length_append]
    rfl
  · exact h.bound
  · rfl
  · exact h.awake_of_update (by rw [hStage]; nofun)
  · exact h.covered

theorem connectFailed_inv
    (hStage : (s.thread t).stage = .connecting) (hSignals : s.Signals variant woken) :
    Inv variant maxConns
      ({ s.goTo t .outside with pool := s.pool.connectFailed }.signal woken) := by
  have hBound := h.bound
  have hSome : 0 < s.pool.establishedConns := by
    have hOne : (s.thread t).stage.connects ≤ ∑ i, (s.thread i).stage.connects :=
      Finset.single_le_sum (fun i _ => Nat.zero_le (s.thread i).stage.connects) (Finset.mem_univ t)
    rw [hStage] at hOne
    rw [h.established]
    exact Nat.add_pos_right _ hOne
  apply h.update
  · rw [hStage]
    rfl
  · rw [ConnThread.held, ConnThread.held, hStage]
    rfl
  · exact h.available
  · rw [hStage]
    show s.pool.connList.length + 0 + s.pool.establishedConns =
      s.pool.connList.length + 1 + (s.pool.establishedConns - 1)
    omega
  · exact (Nat.sub_le _ _).trans hBound
  · rfl
  · exact h.awake_of_signal (by rw [hStage]; nofun) woken
  · apply (h.covered_signal hSignals).mono
    show s.pool.availableConns + (s.pool.maxConns - (s.pool.establishedConns - 1)) ≤
      s.pool.availableConns + (s.pool.maxConns - s.pool.establishedConns) + 1
    omega

end

/-! ## Giving up -/

omit [DecidableEq ι] in
theorem Inv.nodup_socks (h : Inv variant maxConns s) :
    (ConnectionList.socks s.pool.connList).Nodup := by
  have hAll : (Multiset.range s.numSocks).Nodup := Multiset.nodup_range _
  rw [← h.sockets, add_assoc] at hAll
  exact Multiset.coe_nodup.mp (Multiset.nodup_add.mp hAll).1

omit [DecidableEq ι] in
theorem Inv.mem_takenSocks (h : Inv variant maxConns s)
    (hHeld : sock ∈ (s.thread t).held) : sock ∈ takenSocks s.pool.connList := by
  have hIn := mem_sum (fun i => ((s.thread i).held : Multiset Nat)) (i := t)
    (mem_coe.mpr hHeld)
  rw [h.taken] at hIn
  exact mem_coe.mp hIn

omit [DecidableEq ι] [Fintype ι] in
theorem held_giveUp {th : ConnThread} (hStage : th.stage = .outside)
    (hAcquired : sock ∈ th.acquired) (socks : List Nat) :
    ((ConnThread.mk (.invalidate socks) (th.acquired.erase sock)).held : Multiset Nat) + {sock} =
      th.held + socks := by
  have hPerm : (th.acquired : Multiset Nat) = {sock} + (th.acquired.erase sock : Multiset Nat) :=
    coe_eq_coe.mpr (perm_cons_erase hAcquired)
  unfold held
  rw [grabbed_invalidate, hStage, ← coe_add, ← coe_add, hPerm]
  show _ = (_ + _ + (0 : Multiset Nat) + _ : Multiset Nat)
  abel

section

variable (h : Inv variant maxConns s)
include h

section

variable (hStage : (s.thread t).stage = .outside)
include hStage

theorem releaseStreamSocket_inv {expired : Bool} (hAcquired : sock ∈ (s.thread t).acquired)
    (hSignals : expired = true ∨ s.Signals variant woken) :
    Inv variant maxConns (s.releaseStreamSocket t sock expired woken) := by
  have hAwake : (s.thread t).stage ≠ .acquiring := by
    rw [hStage]
    nofun
  unfold releaseStreamSocket
  split
  · -- the socket has expired
    have hHeld := held_giveUp hStage hAcquired [sock]
    apply h.update
    · rw [hStage]
      rfl
    · rw [Multiset.coe_singleton] at hHeld
      rw [add_right_cancel hHeld]
    · exact h.available
    · rw [hStage]
      rfl
    · exact h.bound
    · rfl
    · exact h.awake_of_update hAwake
    · exact h.covered
  · rename_i hValid
    have hTakenIn := h.mem_takenSocks (mem_append_left _ hAcquired)
    obtain ⟨hSocks, hTaken, hCount⟩ := setAvailable_spec h.nodup_socks hTakenIn
    have hHeld := held_giveUp hStage hAcquired []
    apply h.update
    · show (ConnectionList.socks (setAvailable sock s.pool.connList) : Multiset Nat) + _ + _ + _ = _
      rw [hSocks, hStage]
      rfl
    · rw [Multiset.coe_eq_coe.mpr hTaken, ← Multiset.cons_coe, ← Multiset.singleton_add,
        ← add_assoc, hHeld, Multiset.coe_nil, add_zero]
      rfl
    · exact (congrArg (· + 1) h.available).trans hCount.symm
    · rw [hStage]
      show (setAvailable sock s.pool.connList).length + _ + _ = _
      rw [setAvailable, length_map]
      rfl
    · exact h.bound
    · rfl
    · exact h.awake_of_signal hAwake woken
    · apply (h.covered_signal (hSignals.resolve_left hValid)).mono
      show s.pool.availableConns + 1 + _ ≤ s.pool.availableConns + _ + 1
      exact (add_right_comm _ _ _).le

theorem grabAllConns_inv {idleStreamsOnly : Bool} (socks acquired : List Nat)
    (hHeld : ((ConnThread.mk (.invalidate socks) acquired).held : Multiset Nat) =
      (s.thread t).held + grabbedSocks idleStreamsOnly s.pool.connList) :
    Inv variant maxConns { s with
        thread := update s.thread t ⟨.invalidate socks, acquired⟩
        pool := s.pool.grabAllConns idleStreamsOnly } := by
  obtain ⟨hTaken, hCount⟩ := grabAll_spec idleStreamsOnly s.pool.connList
  have hAvailable := h.available
  apply h.update
  · show (ConnectionList.socks (grabAll idleStreamsOnly s.pool.connList) : Multiset Nat) + _ +
      ((ConnStage.invalidate socks).closed : Multiset Nat) + _ = _
    rw [socks_grabAll, ConnStage.closed_invalidate, hStage]
    rfl
  · rw [hHeld]
    show _ = (_ + (takenSocks (grabAll idleStreamsOnly s.pool.connList) : Multiset Nat))
    rw [Multiset.coe_eq_coe.mpr hTaken, ← Multiset.coe_add, add_assoc]
  · show s.pool.availableConns - _ = availableCount (grabAll idleStreamsOnly s.pool.connList)
    omega
  · rw [hStage]
    show (grabAll idleStreamsOnly s.pool.connList).length + (ConnStage.invalidate socks).connects +
      _ = _
    rw [grabAll, length_map, ConnStage.connects_invalidate]
    rfl
  · exact h.bound
  · rfl
  · exact h.awake_of_update (by rw [hStage]; nofun)
  · exact h.covered.mono (Nat.add_le_add_right (Nat.sub_le _ _) _)

theorem invalidateStreamSocket_inv (hAcquired : sock ∈ (s.thread t).acquired) :
    Inv variant maxConns (s.invalidateStreamSocket t sock) := by
  apply grabAllConns_inv h hStage
  have hHeld := held_giveUp hStage hAcquired (grabbedSocks false s.pool.connList ++ [sock])
  rw [← coe_add, coe_singleton, ← add_assoc] at hHeld
  exact add_right_cancel hHeld

theorem invalidateAllAvailableStreams_inv (idleStreamsOnly : Bool) :
    Inv variant maxConns (s.invalidateAllAvailableStreams t idleStreamsOnly) := by
  apply grabAllConns_inv h hStage
  unfold held
  rw [grabbed_invalidate, hStage, ← coe_add]
  exact congrArg₂ _ (congrArg _ (append_nil _).symm) rfl

end

theorem invalidateSpecificStreamSocket_inv (hSignals : s.Signals variant woken) (t : ι) :
    Inv variant maxConns (s.invalidateSpecificStreamSocket t woken) := by
  unfold invalidateSpecificStreamSocket
  split
  · rename_i sock socks hStage
    have hIn : sock ∈ (s.thread t).held := by
      unfold ConnThread.held
      rw [hStage]
      exact mem_append_right _ mem_cons_self
    have hTakenIn := h.mem_takenSocks hIn
    obtain ⟨hSocks, hTaken, hCount⟩ := erase_spec h.nodup_socks hTakenIn
    have hEstablished := h.established
    have hBound := h.bound
    have hLength : s.pool.connList.length = (erase sock s.pool.connList).length + 1 := by
      simpa [ConnectionList.socks] using hSocks.length_eq
    rw [if_pos (takenSocks_subset hTakenIn)]
    apply h.update
    · show (ConnectionList.socks (erase sock s.pool.connList) : Multiset Nat) +
        (s.deleted : Multiset Nat) + ([sock] : List Nat) + _ =
          _ + (s.deleted : Multiset Nat) + _ + Multiset.range s.numSocks
      have hSplit : (ConnectionList.socks s.pool.connList : Multiset Nat) =
          ([sock] : List Nat) +
            (ConnectionList.socks (erase sock s.pool.connList) : Multiset Nat) :=
        Multiset.coe_eq_coe.mpr hSocks
      rw [hSplit, hStage]
      show _ = (_ + _ + (0 : Multiset Nat) + _ : Multiset Nat)
      abel
    · show (((s.thread t).acquired ++ socks : List Nat) : Multiset Nat) + _ =
        _ + (takenSocks (erase sock s.pool.connList) : Multiset Nat)
      rw [Multiset.coe_eq_coe.mpr hTaken, ConnThread.held, hStage, ← Multiset.cons_coe,
        ← Multiset.singleton_add, ← Multiset.coe_add, ← Multiset.coe_add]
      show (_ : Multiset Nat) = _ + ((sock :: socks : List Nat) : Multiset Nat) + _
      rw [← Multiset.cons_coe, ← Multiset.singleton_add]
      abel
    · exact h.available.trans hCount.symm
    · rw [hStage]
      show (erase sock s.pool.connList).length + 0 + s.pool.establishedConns =
        s.pool.connList.length + 0 + (s.pool.establishedConns - 1)
      omega
    · exact (Nat.sub_le _ _).trans hBound
    · rfl
    · exact h.awake_of_signal (by rw [hStage]; rintro ⟨⟩) woken
    · apply (h.covered_signal hSignals).mono
      show s.pool.availableConns + (s.pool.maxConns - (s.pool.establishedConns - 1)) ≤
        s.pool.availableConns + (s.pool.maxConns - s.pool.establishedConns) + 1
      omega
  · exact h

theorem deleteSocket_inv (t : ι) : Inv variant maxConns (s.deleteSocket t) := by
  unfold deleteSocket
  split
  · rename_i sock socks hStage
    apply h.update
    · show (ConnectionList.socks s.pool.connList : Multiset Nat) +
        ((sock :: s.deleted : List Nat) : Multiset Nat) +
        ((ConnStage.invalidate socks).closed : Multiset Nat) + Multiset.range s.numSocks =
          _ + _ + _ + Multiset.range s.numSocks
      rw [ConnStage.closed_invalidate, hStage, ← singleton_append, ← Multiset.coe_add]
      show (_ + (_ + _) + (0 : Multiset Nat) + _ : Multiset Nat) = _ + _ + ([sock] : List Nat) + _
      abel
    · rw [ConnThread.held, ConnThread.held, hStage, ConnStage.grabbed_invalidate]
      rfl
    · exact h.available
    · rw [hStage]
      show _ + (ConnStage.invalidate socks).connects + _ = _
      rw [ConnStage.connects_invalidate]
      rfl
    · exact h.bound
    · rfl
    · exact h.awake_of_update (by rw [hStage]; nofun)
    · exact h.covered
  · exact h

end

omit [DecidableEq ι] in
theorem resetStreamsIdleFlag_inv (h : Inv variant maxConns s) :
    Inv variant maxConns { s with pool := s.pool.resetStreamsIdleFlag } := by
  obtain ⟨hSocks, hTaken, hCount⟩ := resetHasActivity_spec s.pool.connList
  have hLength : (resetHasActivity s.pool.connList).length = s.pool.connList.length := length_map _
  refine ⟨?_, ?_, h.available.trans hCount.symm, ?_, h.bound, h.maxConns, h.awake, h.covered⟩
  · show (socks (resetHasActivity s.pool.connList) : Multiset Nat) + _ + _ = _
    rw [hSocks]
    exact h.sockets
  · exact h.taken.trans (congrArg _ hTaken.symm)
  · show s.pool.establishedConns = (resetHasActivity s.pool.connList).length + _
    rw [hLength]
    exact h.established

theorem step_inv (s : ConnSystem ι) (call : ConnCall ι) (h : Inv variant maxConns s)
    (hAllowed : s.Allowed variant call) : Inv variant maxConns (s.step call) := by
  cases call with
  | acquireStreamSocketEx t allowWaiting nicListCopied =>
    exact acquireStreamSocketEx_inv h hAllowed.1 hAllowed.2
  | interrupt t => exact leave_inv h (.inr hAllowed.1) fun _ => hAllowed.2
  | connectDone t success woken =>
    obtain ⟨hStage, hSignals⟩ := hAllowed
    cases success with
    | true => exact connectSucceeded_inv h hStage
    | false => exact connectFailed_inv h hStage (hSignals.resolve_left nofun)
  | releaseStreamSocket t sock expired woken =>
    exact releaseStreamSocket_inv h hAllowed.1 hAllowed.2.1 hAllowed.2.2
  | invalidateStreamSocket t sock => exact invalidateStreamSocket_inv h hAllowed.1 hAllowed.2
  | invalidateAllAvailableStreams t idleStreamsOnly =>
    exact invalidateAllAvailableStreams_inv h hAllowed idleStreamsOnly
  | invalidateSpecificStreamSocket t woken =>
    exact invalidateSpecificStreamSocket_inv h hAllowed t
  | deleteSocket t => exact deleteSocket_inv h t
  | resetStreamsIdleFlag => exact resetStreamsIdleFlag_inv h
  | spuriousWakeup t =>
    refine ⟨h.sockets, h.taken, h.available, h.established, h.bound, h.maxConns, ?_, ?_⟩
    · intro i hi
      show wakeThreads _ _ i = _
      unfold wakeThreads
      rw [h.awake i hi]
      split <;> rfl
    · exact h.covered.wake {t}

/-! ## All runs -/

omit [DecidableEq ι] in
theorem start_inv (variant : PoolVariant) (maxConns : Nat) :
    Inv variant maxConns (start maxConns : ConnSystem ι) where
  sockets := by simp [start, new, socks, closed]
  taken := by simp [start, new, takenSocks, held, grabbed]
  available := rfl
  established := by simp [start, new, connects]
  bound := Nat.zero_le _
  maxConns := rfl
  awake _ _ := rfl
  covered := by
    rintro ⟨i, hi⟩
    simp [start] at hi

omit [DecidableEq ι] in
theorem Inv.held_spec (h : Inv variant maxConns s) (hHeld : sock ∈ (s.thread t).held) :
    sock ∈ takenSocks s.pool.connList ∧ sock ∉ s.deleted ∧
      ∀ j, sock ∉ (s.thread j).stage.closed := by
  have hTaken := h.mem_takenSocks hHeld
  have hIn : sock ∈ (ConnectionList.socks s.pool.connList : Multiset Nat) :=
    Multiset.mem_coe.mpr (takenSocks_subset hTaken)
  have hAll : (Multiset.range s.numSocks).Nodup := Multiset.nodup_range _
  rw [← h.sockets, add_assoc, Multiset.nodup_add] at hAll
  have hNot := Multiset.disjoint_left.mp hAll.2.2 hIn
  rw [Multiset.mem_add, not_or] at hNot
  refine ⟨hTaken, hNot.1, fun j hClosed => hNot.2 ?_⟩
  exact Holdings.mem_sum (fun i => ((s.thread i).stage.closed : Multiset Nat))
    (Multiset.mem_coe.mpr hClosed)

omit [DecidableEq ι] in
theorem Inv.nodup_held (h : Inv variant maxConns s) :
    (∑ i, ((s.thread i).held : Multiset Nat)).Nodup := by
  rw [h.taken]
  exact coe_nodup.mpr (h.nodup_socks.sublist (filter_sublist.map _))

/-- The counters are right and the connections never more than `maxConns`. No socket is held by
two threads, twice by one, or deleted while it is held. A thread that sleeps though it could go on
leaves this to one that has been woken. -/
theorem accounts (variant : PoolVariant) (maxConns : Nat) (calls : List (ConnCall ι))
    (hAllowed : Run.EveryStep step (Allowed variant) (start maxConns) calls) :
    let s := Run.after step (start maxConns) calls
    s.pool.availableConns = availableCount s.pool.connList ∧
    s.pool.establishedConns = s.pool.connList.length +
      (Finset.univ.filter fun i => (s.thread i).stage = .connecting).card ∧
    s.pool.establishedConns ≤ maxConns ∧
    (∀ i j sock, sock ∈ (s.thread i).held → sock ∈ (s.thread j).held → i = j) ∧
    (∀ i, (s.thread i).held.Nodup) ∧
    (∀ i, ∀ sock ∈ (s.thread i).held, sock ∈ takenSocks s.pool.connList ∧ sock ∉ s.deleted ∧
      ∀ j, sock ∉ (s.thread j).stage.closed) ∧
    ∀ i, s.waiting i = asleep () →
      0 < s.pool.availableConns ∨ s.pool.establishedConns < maxConns →
      ∃ j, s.waiting j = notified () ∧ (s.thread j).stage = .acquiring := by
  intro s
  have h : Inv variant maxConns s :=
    Run.after_invariant step step_inv (start_inv variant maxConns) hAllowed
  refine ⟨h.available, ?_, h.maxConns ▸ h.bound, ?_, ?_, fun i sock hHeld => h.held_spec hHeld, ?_⟩
  · rw [Finset.card_filter]
    exact h.established
  · intro i j sock hi hj
    exact holder_unique (fun i => ((s.thread i).held : Multiset Nat)) h.nodup_held
      (mem_coe.mpr hi) (mem_coe.mpr hj)
  · intro i
    exact coe_nodup.mp (nodup_of_sum _ h.nodup_held i)
  · intro i hSleep hCapacity
    have hSome : 0 < s.pool.capacity := by
      have hMax := h.maxConns
      unfold capacity
      omega
    obtain ⟨j, hNotified, -⟩ := h.covered.exists_notified hSleep hSome
    refine ⟨j, hNotified, ?_⟩
    by_contra hOther
    rw [h.awake j hOther] at hNotified
    cases hNotified

/-- Two threads share the only connection. -/
theorem accounts_two : let calls : List (ConnCall (Fin 2)) :=
      [.acquireStreamSocketEx 0 true true, .connectDone 0 true ∅,
        .acquireStreamSocketEx 1 true true, .releaseStreamSocket 0 0 false {1},
        .acquireStreamSocketEx 1 true true]
    let s := Run.after step (start 1) calls
    s.pool.availableConns = availableCount s.pool.connList ∧ (s.thread 1).held = [0] := by
  intro calls s
  have hAllowed : Run.EveryStep step (Allowed .server) (start 1) calls := by decide
  exact ⟨(accounts .server 1 calls hAllowed).1, rfl⟩

end Fhgfs.Nodes.ConnSystem
