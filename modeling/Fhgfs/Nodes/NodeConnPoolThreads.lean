import Fhgfs.Lib.ConditionVariable
import Fhgfs.Nodes.NodeConnPool

/-!
# Threads at a connection pool

A call is what a thread does until it drops the mutex, a connect that ends, or the deletion of a
socket that has been shut down. The pool is the one of the servers or the one of the client
module. They differ in the condition: a signal of the servers' wakes at least one sleeper, and
`wake_up` in the client module all of them, because `add_wait_queue` adds no exclusive waiters.
There the wait may be interrupted, and the copy of the `nicList` may fail.
-/

namespace Fhgfs.Nodes

open Function WaitState ConditionVariable ConnectionList

inductive PoolVariant
  | server
  | client
deriving DecidableEq

/-- Where a thread is. `invalidating` has the sockets that `invalidateSpecificStreamSocket` is
still to be called for, and `closing` the one that it has taken off the list. -/
inductive ConnStage
  | outside
  | acquiring
  | connecting
  | invalidating (socks : List Nat)
  | closing (sock : Nat) (socks : List Nat)
deriving DecidableEq

namespace ConnStage

/-- The stage with the sockets still to be invalidated. -/
def invalidate : List Nat → ConnStage
  | [] => outside
  | sock :: socks => invalidating (sock :: socks)

/-- The sockets that the thread has taken to invalidate them. -/
def grabbed : ConnStage → List Nat
  | invalidating socks => socks
  | closing _ socks => socks
  | _ => []

/-- The sockets that the thread shuts down and deletes. -/
def closed : ConnStage → List Nat
  | closing sock _ => [sock]
  | _ => []

def connects (stage : ConnStage) : Nat := if stage = connecting then 1 else 0

variable (socks : List Nat)

@[simp] theorem grabbed_invalidate : (invalidate socks).grabbed = socks := by
  cases socks <;> rfl

@[simp] theorem closed_invalidate : (invalidate socks).closed = [] := by
  cases socks <;> rfl

@[simp] theorem connects_invalidate : (invalidate socks).connects = 0 := by
  cases socks <;> rfl

end ConnStage

/-- A thread with the sockets that it has acquired. -/
structure ConnThread where
  stage : ConnStage
  acquired : List Nat

/-- All sockets that are at the disposal of the thread. -/
def ConnThread.held (th : ConnThread) : List Nat := th.acquired ++ th.stage.grabbed

structure ConnSystem (ι : Type) where
  pool : NodeConnPool
  thread : ι → ConnThread
  waiting : ι → WaitState Unit
  /-- The number of sockets that have been connected. -/
  numSocks : Nat
  deleted : List Nat

inductive ConnCall (ι : Type)
  | acquireStreamSocketEx (t : ι) (allowWaiting nicListCopied : Bool)
  /-- `COND_WAIT_SIGNAL` -/
  | interrupt (t : ι)
  | connectDone (t : ι) (success : Bool) (woken : Finset ι)
  | releaseStreamSocket (t : ι) (sock : Nat) (expired : Bool) (woken : Finset ι)
  | invalidateStreamSocket (t : ι) (sock : Nat)
  | invalidateAllAvailableStreams (t : ι) (idleStreamsOnly : Bool)
  | invalidateSpecificStreamSocket (t : ι) (woken : Finset ι)
  | deleteSocket (t : ι)
  | resetStreamsIdleFlag
  | spuriousWakeup (t : ι)

namespace ConnSystem

variable {ι : Type}

def start (maxConns : Nat) : ConnSystem ι where
  pool := .new maxConns
  thread _ := ⟨.outside, []⟩
  waiting _ := .running
  numSocks := 0
  deleted := []

variable [DecidableEq ι]

variable (s : ConnSystem ι)

variable (t : ι)

def goTo (stage : ConnStage) : ConnSystem ι :=
  { s with thread := update s.thread t { s.thread t with stage } }

def proceed : ConnSystem ι :=
  { s with waiting := update s.waiting t running }

def signal (woken : Finset ι) : ConnSystem ι :=
  { s with waiting := wakeThreads woken s.waiting }

def acquire (sock : Nat) : ConnSystem ι :=
  { s with thread := update s.thread t ⟨.outside, sock :: (s.thread t).acquired⟩ }

/-- The thread gives up its socket, to invalidate the sockets `socks`. -/
def giveUp (sock : Nat) (socks : List Nat) : ConnSystem ι :=
  { s with thread := update s.thread t ⟨.invalidate socks, (s.thread t).acquired.erase sock⟩ }

/-- From the lock of the mutex, or from the end of a wait. -/
def acquireStreamSocketEx (allowWaiting nicListCopied : Bool) : ConnSystem ι :=
  if s.pool.isExhausted then
    if !allowWaiting then (s.goTo t .outside).proceed t
    else { s.goTo t .acquiring with waiting := update s.waiting t (asleep ()) }
  else if s.pool.availableConns ≠ 0 then
    match s.pool.grabConn with
    | none => s
    | some (sock, pool) => { s.acquire t sock with pool }.proceed t
  else if !nicListCopied then (s.goTo t .outside).proceed t
  else { s.goTo t .connecting with pool := s.pool.startConnect }.proceed t

/-- After all connection attempts. A socket that could be connected is in the list. -/
def connectDone (success : Bool) (woken : Finset ι) : ConnSystem ι :=
  if success then
    { s.acquire t s.numSocks with
      pool := s.pool.connectSucceeded s.numSocks
      numSocks := s.numSocks + 1 }
  else { s.goTo t .outside with pool := s.pool.connectFailed }.signal woken

def releaseStreamSocket (sock : Nat) (expired : Bool) (woken : Finset ι) : ConnSystem ι :=
  if expired then s.giveUp t sock [sock]
  else { s.giveUp t sock [] with pool := s.pool.releaseSock sock }.signal woken

/-- Stage 1 of the call of `invalidateAllAvailableStreams`; then come the sockets taken there, and
last the socket of the thread. -/
def invalidateStreamSocket (sock : Nat) : ConnSystem ι :=
  { s.giveUp t sock (grabbedSocks false s.pool.connList ++ [sock]) with
    pool := s.pool.grabAllConns false }

def invalidateAllAvailableStreams (idleStreamsOnly : Bool) : ConnSystem ι :=
  { s.goTo t (.invalidate (grabbedSocks idleStreamsOnly s.pool.connList)) with
    pool := s.pool.grabAllConns idleStreamsOnly }

/-- A socket that is not in the list is only logged. -/
def invalidateSpecificStreamSocket (woken : Finset ι) : ConnSystem ι :=
  match (s.thread t).stage with
  | .invalidating (sock :: socks) =>
    if sock ∈ ConnectionList.socks s.pool.connList then
      { s.goTo t (.closing sock socks) with pool := s.pool.removeSock sock }.signal woken
    else s.goTo t (.invalidate socks)
  | _ => s

def deleteSocket : ConnSystem ι :=
  match (s.thread t).stage with
  | .closing sock socks =>
    { s.goTo t (.invalidate socks) with deleted := sock :: s.deleted }
  | _ => s

def step : ConnCall ι → ConnSystem ι
  | .acquireStreamSocketEx t allowWaiting nicListCopied =>
    s.acquireStreamSocketEx t allowWaiting nicListCopied
  | .interrupt t => (s.goTo t .outside).proceed t
  | .connectDone t success woken => s.connectDone t success woken
  | .releaseStreamSocket t sock expired woken => s.releaseStreamSocket t sock expired woken
  | .invalidateStreamSocket t sock => s.invalidateStreamSocket t sock
  | .invalidateAllAvailableStreams t idleStreamsOnly =>
    s.invalidateAllAvailableStreams t idleStreamsOnly
  | .invalidateSpecificStreamSocket t woken => s.invalidateSpecificStreamSocket t woken
  | .deleteSocket t => s.deleteSocket t
  | .resetStreamsIdleFlag => { s with pool := s.pool.resetStreamsIdleFlag }
  | .spuriousWakeup t => s.signal {t}

variable [Fintype ι]

def Signals (variant : PoolVariant) (s : ConnSystem ι) (woken : Finset ι) : Prop :=
  match variant with
  | .server => SignalWakes s.waiting () woken
  | .client => woken = sleepers s.waiting ()

/-- What a thread may do in its stage. It releases and invalidates what it has acquired. -/
def Allowed (variant : PoolVariant) (s : ConnSystem ι) : ConnCall ι → Prop
  | .acquireStreamSocketEx t allowWaiting nicListCopied =>
    ((s.thread t).stage = .outside ∨
      (s.thread t).stage = .acquiring ∧ s.waiting t = notified () ∧ allowWaiting = true) ∧
    (nicListCopied = true ∨ variant = .client)
  | .interrupt t => (s.thread t).stage = .acquiring ∧ variant = .client
  | .connectDone t success woken =>
    (s.thread t).stage = .connecting ∧ (success = true ∨ s.Signals variant woken)
  | .releaseStreamSocket t sock expired woken =>
    (s.thread t).stage = .outside ∧ sock ∈ (s.thread t).acquired ∧
      (expired = true ∨ s.Signals variant woken)
  | .invalidateStreamSocket t sock =>
    (s.thread t).stage = .outside ∧ sock ∈ (s.thread t).acquired
  | .invalidateAllAvailableStreams t _ => (s.thread t).stage = .outside
  | .invalidateSpecificStreamSocket _ woken => s.Signals variant woken
  | .deleteSocket _ => True
  | .resetStreamsIdleFlag => True
  | .spuriousWakeup _ => True

instance (variant : PoolVariant) (s : ConnSystem ι) (woken : Finset ι) :
    Decidable (s.Signals variant woken) :=
  match variant with
  | .server => inferInstanceAs (Decidable (SignalWakes s.waiting () woken))
  | .client => inferInstanceAs (Decidable (woken = sleepers s.waiting ()))

instance (variant : PoolVariant) (s : ConnSystem ι) : DecidablePred (s.Allowed variant)
  | .acquireStreamSocketEx _ _ _ => inferInstanceAs (Decidable (_ ∧ _))
  | .interrupt _ => inferInstanceAs (Decidable (_ ∧ _))
  | .connectDone _ _ _ => inferInstanceAs (Decidable (_ ∧ _))
  | .releaseStreamSocket _ _ _ _ => inferInstanceAs (Decidable (_ ∧ _))
  | .invalidateStreamSocket _ _ => inferInstanceAs (Decidable (_ ∧ _))
  | .invalidateAllAvailableStreams _ _ => inferInstanceAs (Decidable (_ = _))
  | .invalidateSpecificStreamSocket _ woken =>
    inferInstanceAs (Decidable (s.Signals variant woken))
  | .deleteSocket _ => .isTrue trivial
  | .resetStreamsIdleFlag => .isTrue trivial
  | .spuriousWakeup _ => .isTrue trivial

end ConnSystem

end Fhgfs.Nodes
