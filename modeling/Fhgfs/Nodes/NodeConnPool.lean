import Mathlib.Data.List.Count
import Mathlib.Data.List.Nodup
import Mathlib.Data.List.Perm.Basic

/-!
# The connection pool of a node

What the operations of a `NodeConnPool` do to its list and counters under the mutex. A socket is
known by the number of its construction.

* `availableCount`, `takenSocks`: the sockets that are marked available, and the others. The
  results say what each operation makes of them.
-/

namespace Fhgfs.Nodes

open List

structure PooledSocket where
  sock : Nat
  available : Bool
  hasActivity : Bool
deriving DecidableEq

/-- A socket as it is constructed: not available, and active. -/
def PooledSocket.new (sock : Nat) : PooledSocket := ⟨sock, false, true⟩

structure NodeConnPool where
  connList : List PooledSocket
  availableConns : Nat
  establishedConns : Nat
  maxConns : Nat
deriving DecidableEq

/-! ## The list -/

namespace ConnectionList

def socks (l : List PooledSocket) : List Nat := l.map PooledSocket.sock

def takenSocks (l : List PooledSocket) : List Nat :=
  (l.filter fun p => !p.available).map PooledSocket.sock

def availableCount (l : List PooledSocket) : Nat := l.countP PooledSocket.available

/-- The walk to the first available socket, which is marked as taken and active. Without one it
runs past the end, here `none`. -/
def grabAvailable : List PooledSocket → Option (Nat × List PooledSocket)
  | [] => none
  | p :: rest =>
    if p.available then
      some (p.sock, { p with available := false, hasActivity := true } :: rest)
    else (grabAvailable rest).map fun r => (r.1, p :: r.2)

def setAvailable (sock : Nat) (l : List PooledSocket) : List PooledSocket :=
  l.map fun p => if p.sock = sock then { p with available := true } else p

variable (idleStreamsOnly : Bool)

variable (p : PooledSocket)

/-- Which sockets stage 1 of an invalidation takes. -/
def toInvalidate : Bool :=
  p.available && !(idleStreamsOnly && p.hasActivity)

def grabAll (l : List PooledSocket) : List PooledSocket :=
  l.map fun p => if toInvalidate idleStreamsOnly p then { p with available := false } else p

def grabbedSocks (l : List PooledSocket) : List Nat :=
  (l.filter (toInvalidate idleStreamsOnly)).map PooledSocket.sock

def erase (sock : Nat) (l : List PooledSocket) : List PooledSocket :=
  l.eraseP fun p => p.sock = sock

def resetHasActivity (l : List PooledSocket) : List PooledSocket :=
  l.map fun p => if p.available then { p with hasActivity := false } else p

variable {l : List PooledSocket} {sock : Nat}

theorem takenSocks_cons (l : List PooledSocket) :
    takenSocks (p :: l) = if p.available then takenSocks l else p.sock :: takenSocks l := by
  cases hp : p.available <;> simp [takenSocks, hp]

theorem availableCount_cons (l : List PooledSocket) :
    availableCount (p :: l) = availableCount l + if p.available then 1 else 0 :=
  countP_cons

theorem takenSocks_subset : takenSocks l ⊆ socks l := map_subset _ filter_sublist.subset

theorem exists_grabAvailable (h : availableCount l ≠ 0) :
    ∃ sock l', grabAvailable l = some (sock, l') ∧ socks l' = socks l ∧
      (takenSocks l').Perm (sock :: takenSocks l) ∧
      availableCount l = availableCount l' + 1 := by
  induction l with
  | nil => exact absurd rfl h
  | cons p rest ih =>
    unfold grabAvailable
    cases hp : p.available with
    | true =>
      refine ⟨p.sock, _, rfl, rfl, ?_, ?_⟩
      · rw [takenSocks_cons, takenSocks_cons, hp]
        exact List.Perm.refl _
      · rw [availableCount_cons, availableCount_cons, hp]
        rfl
    | false =>
      rw [availableCount_cons, hp] at h
      obtain ⟨sock, l', hGrab, hSocks, hTaken, hCount⟩ := ih h
      refine ⟨sock, p :: l', by simp [hGrab], ?_, ?_, ?_⟩
      · exact congrArg (p.sock :: ·) hSocks
      · rw [takenSocks_cons, takenSocks_cons, hp]
        exact (hTaken.cons p.sock).trans (List.Perm.swap _ _ _)
      · rw [availableCount_cons, availableCount_cons, hCount, hp]
        rfl

theorem exists_split (hNodup : (socks l).Nodup) (hTaken : sock ∈ takenSocks l) :
    ∃ before p after, l = before ++ p :: after ∧ p.sock = sock ∧ p.available = false ∧
      (∀ q ∈ before, q.sock ≠ sock) ∧ ∀ q ∈ after, q.sock ≠ sock := by
  obtain ⟨p, hp, rfl⟩ := mem_map.mp hTaken
  obtain ⟨hIn, hNot⟩ := mem_filter.mp hp
  obtain ⟨before, after, rfl⟩ := append_of_mem hIn
  unfold socks at hNodup
  rw [map_append, map_cons, nodup_append, nodup_cons] at hNodup
  obtain ⟨-, ⟨hAfter, -⟩, hBefore⟩ := hNodup
  refine ⟨before, p, after, rfl, rfl, by simpa using hNot, ?_, ?_⟩
  · intro q hq hSame
    exact hBefore q.sock (mem_map_of_mem hq) p.sock mem_cons_self hSame
  · intro q hq hSame
    exact hAfter (hSame ▸ mem_map_of_mem hq)

theorem takenSocks_append (l l' : List PooledSocket) :
    takenSocks (l ++ l') = takenSocks l ++ takenSocks l' := by
  simp [takenSocks]

theorem availableCount_append (l l' : List PooledSocket) :
    availableCount (l ++ l') = availableCount l + availableCount l' :=
  countP_append

theorem setAvailable_of_notMem (h : ∀ q ∈ l, q.sock ≠ sock) : setAvailable sock l = l := by
  conv_rhs => rw [← map_id l]
  exact map_congr_left fun q hq => if_neg (h q hq)

section

variable (hNodup : (socks l).Nodup) (hTaken : sock ∈ takenSocks l)
include hNodup hTaken

theorem setAvailable_spec : socks (setAvailable sock l) = socks l ∧
      (takenSocks l).Perm (sock :: takenSocks (setAvailable sock l)) ∧
      availableCount (setAvailable sock l) = availableCount l + 1 := by
  obtain ⟨before, p, after, rfl, hSock, hNot, hBefore, hAfter⟩ := exists_split hNodup hTaken
  have hSet : setAvailable sock (before ++ p :: after) =
      before ++ { p with available := true } :: after := by
    unfold setAvailable
    rw [map_append, map_cons, if_pos hSock]
    exact congrArg₂ _ (setAvailable_of_notMem hBefore)
      (congrArg _ (setAvailable_of_notMem hAfter))
  rw [hSet]
  refine ⟨by simp [socks], ?_, ?_⟩
  · rw [takenSocks_append, takenSocks_append, takenSocks_cons, takenSocks_cons, hNot, ← hSock]
    exact perm_middle
  · rw [availableCount_append, availableCount_append, availableCount_cons, availableCount_cons,
      hNot]
    rfl

theorem erase_spec : (socks l).Perm (sock :: socks (erase sock l)) ∧
      (takenSocks l).Perm (sock :: takenSocks (erase sock l)) ∧
      availableCount (erase sock l) = availableCount l := by
  obtain ⟨before, p, after, rfl, hSock, hNot, hBefore, -⟩ := exists_split hNodup hTaken
  have hErase : erase sock (before ++ p :: after) = before ++ after := by
    unfold erase
    rw [eraseP_append_right _ (by simpa using hBefore), eraseP_cons_of_pos (by simp [hSock])]
  rw [hErase]
  refine ⟨?_, ?_, ?_⟩
  · rw [← hSock]
    simp [socks]
  · rw [takenSocks_append, takenSocks_append, takenSocks_cons, hNot, ← hSock]
    exact perm_middle
  · rw [availableCount_append, availableCount_append, availableCount_cons, hNot]
    rfl

end

section

variable (l : List PooledSocket)

theorem socks_grabAll : socks (grabAll idleStreamsOnly l) = socks l := by
  unfold socks grabAll
  rw [map_map]
  apply map_congr_left
  intro p _
  simp only [Function.comp]
  split <;> rfl

theorem grabAll_spec : (takenSocks (grabAll idleStreamsOnly l)).Perm
        (grabbedSocks idleStreamsOnly l ++ takenSocks l) ∧
      availableCount l =
        availableCount (grabAll idleStreamsOnly l) + (grabbedSocks idleStreamsOnly l).length := by
  induction l with
  | nil => exact ⟨List.Perm.refl _, rfl⟩
  | cons p l ih =>
    obtain ⟨hTaken, hCount⟩ := ih
    unfold grabAll grabbedSocks at hTaken hCount ⊢
    rw [map_cons, takenSocks_cons, takenSocks_cons, availableCount_cons, availableCount_cons]
    cases hp : toInvalidate idleStreamsOnly p with
    | true =>
      have hAvailable : p.available = true := by
        exact (Bool.and_eq_true_iff.mp hp).1
      rw [filter_cons_of_pos hp, if_pos rfl, hAvailable, hCount]
      exact ⟨hTaken.cons p.sock, rfl⟩
    | false =>
      rw [filter_cons_of_neg (by simp [hp])]
      simp only [Bool.false_eq_true, if_false]
      cases hAvailable : p.available with
      | true => exact ⟨hTaken, by simp only [if_true]; omega⟩
      | false => exact ⟨(hTaken.cons p.sock).trans perm_middle.symm, hCount⟩

theorem resetHasActivity_spec :
    socks (resetHasActivity l) = socks l ∧ takenSocks (resetHasActivity l) = takenSocks l ∧
      availableCount (resetHasActivity l) = availableCount l := by
  induction l with
  | nil => exact ⟨rfl, rfl, rfl⟩
  | cons p l ih =>
    obtain ⟨hSocks, hTaken, hCount⟩ := ih
    unfold resetHasActivity at hSocks hTaken hCount ⊢
    rw [map_cons, takenSocks_cons, takenSocks_cons, availableCount_cons, availableCount_cons,
      hTaken, hCount]
    refine ⟨?_, ?_, ?_⟩
    · unfold socks at hSocks ⊢
      rw [map_cons, map_cons, hSocks]
      cases p.available <;> rfl
    · cases hp : p.available <;> simp [hp]
    · cases hp : p.available <;> simp [hp]

end

end ConnectionList

/-! ## What is done under the mutex -/

namespace NodeConnPool

open ConnectionList

def new (maxConns : Nat) : NodeConnPool := ⟨[], 0, 0, maxConns⟩

variable (pool : NodeConnPool)

/-- All connections are in use and there may be no more of them. -/
def isExhausted : Bool :=
  pool.availableConns == 0 && pool.establishedConns == pool.maxConns

def grabConn : Option (Nat × NodeConnPool) :=
  (grabAvailable pool.connList).map fun r =>
    (r.1, { pool with connList := r.2, availableConns := pool.availableConns - 1 })

/-- Before the mutex is dropped for the connection attempts. -/
def startConnect : NodeConnPool :=
  { pool with establishedConns := pool.establishedConns + 1 }

variable (sock : Nat)

def connectSucceeded : NodeConnPool :=
  { pool with connList := pool.connList ++ [.new sock] }

def connectFailed : NodeConnPool :=
  { pool with establishedConns := pool.establishedConns - 1 }

def releaseSock : NodeConnPool :=
  { pool with
    connList := setAvailable sock pool.connList
    availableConns := pool.availableConns + 1 }

def grabAllConns (idleStreamsOnly : Bool) : NodeConnPool :=
  { pool with
    connList := grabAll idleStreamsOnly pool.connList
    availableConns :=
      pool.availableConns - (grabbedSocks idleStreamsOnly pool.connList).length }

def removeSock : NodeConnPool :=
  { pool with
    connList := erase sock pool.connList
    establishedConns := pool.establishedConns - 1 }

def resetStreamsIdleFlag : NodeConnPool :=
  { pool with connList := resetHasActivity pool.connList }

theorem connectSucceeded_spec :
    socks (pool.connectSucceeded sock).connList = socks pool.connList ++ [sock] ∧
      takenSocks (pool.connectSucceeded sock).connList = takenSocks pool.connList ++ [sock] ∧
      availableCount (pool.connectSucceeded sock).connList = availableCount pool.connList := by
  unfold connectSucceeded
  refine ⟨?_, takenSocks_append _ _, availableCount_append _ _⟩
  simp [socks, PooledSocket.new]

/-- How many threads can go on in `acquireStreamSocketEx`, each with a socket or a connect. -/
def capacity : Nat :=
  pool.availableConns + (pool.maxConns - pool.establishedConns)

end NodeConnPool

end Fhgfs.Nodes
