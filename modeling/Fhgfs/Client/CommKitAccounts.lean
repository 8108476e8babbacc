import Fhgfs.Client.CommKitCommon

/-!
# The accounts of a communication

What the states have, and the counters and ledgers that have to agree with it (`Accounts`). A step
of a state changes both (`Moved`), and the steps compose.
-/

namespace Fhgfs.Client

/-- What a stage means for the accounts. -/
inductive Phase
  | preparing
  | connected
  | polling
  | cleaning
  | waiting
  | done
deriving DecidableEq

/-- A state has a connection from its acquisition to its release or invalidation. -/
def Phase.hasConn : Phase → Bool
  | .connected => true
  | .polling => true
  | _ => false

/-- Only in some phases a state may have a node reference. -/
def Phase.hasNode : Phase → Bool
  | .preparing => false
  | .waiting => false
  | .done => false
  | _ => true

/-- The phases of the stages of a read or a write. -/
structure StageKinds (σ : Type) where
  phase : σ → Phase
  prepare : σ
  retryWait : σ
  done : σ
  phase_eq_preparing : ∀ stage, phase stage = .preparing ↔ stage = prepare
  phase_eq_waiting : ∀ stage, phase stage = .waiting ↔ stage = retryWait
  phase_eq_done : ∀ stage, phase stage = .done ↔ stage = done

namespace StageKinds

variable {σ : Type} (kinds : StageKinds σ)

theorem prepare_ne_retryWait : kinds.prepare ≠ kinds.retryWait := by
  intro hSame
  have hPreparing := (kinds.phase_eq_preparing kinds.prepare).mpr rfl
  rw [(kinds.phase_eq_waiting kinds.prepare).mpr hSame] at hPreparing
  exact absurd hPreparing (by decide)

theorem retryWait_ne_done : kinds.retryWait ≠ kinds.done := by
  intro hSame
  have hWaiting := (kinds.phase_eq_waiting kinds.retryWait).mpr rfl
  rw [(kinds.phase_eq_done kinds.retryWait).mpr hSame] at hWaiting
  exact absurd hWaiting (by decide)

theorem prepare_ne_done : kinds.prepare ≠ kinds.done := by
  intro hSame
  have hPreparing := (kinds.phase_eq_preparing kinds.prepare).mpr rfl
  rw [(kinds.phase_eq_done kinds.prepare).mpr hSame] at hPreparing
  exact absurd hPreparing (by decide)

end StageKinds

/-- What a state has. -/
structure Holding where
  conn : Option (Option Nat)
  node : Option Nat
  phase : Phase

section Holding

variable {σ δ : Type} (kinds : StageKinds σ)

def holding (s : RWfileState σ δ) : Holding where
  conn := if (kinds.phase s.stage).hasConn then some s.sock else none
  node := s.node
  phase := kinds.phase s.stage

/-- A state without a node reference where it must not have one. -/
def NodeFits (s : RWfileState σ δ) : Prop :=
  (kinds.phase s.stage).hasNode = false → s.node = none

end Holding

/-- The counters and ledgers agree with what the states have. -/
structure Accounts (h : RWfileStatesHelper) (holdings : List Holding) : Prop where
  conns : h.numAcquiredConns = holdings.countP (·.conn.isSome)
  done : h.numDone = holdings.countP (·.phase = .done)
  waiters : h.numRetryWaiters = holdings.countP (·.phase = .waiting)
  socks : h.socks.Balanced (holdings.filterMap (·.conn))
  nodes : h.nodes.Balanced ((holdings.filterMap (·.node)).map some)

theorem Accounts.perm {h : RWfileStatesHelper} {holdings holdings' : List Holding}
    (a : Accounts h holdings) (hPerm : holdings.Perm holdings') : Accounts h holdings' where
  conns := by rw [a.conns, hPerm.countP_eq]
  done := by rw [a.done, hPerm.countP_eq]
  waiters := by rw [a.waiters, hPerm.countP_eq]
  socks := a.socks.perm (hPerm.filterMap _)
  nodes := a.nodes.perm ((hPerm.filterMap _).map _)

theorem Accounts.of_fields {h h' : RWfileStatesHelper} {holdings : List Holding}
    (a : Accounts h holdings) (hConns : h'.numAcquiredConns = h.numAcquiredConns)
    (hDone : h'.numDone = h.numDone) (hWaiters : h'.numRetryWaiters = h.numRetryWaiters)
    (hSocks : h'.socks = h.socks) (hNodes : h'.nodes = h.nodes) : Accounts h' holdings :=
  ⟨hConns ▸ a.conns, hDone ▸ a.done, hWaiters ▸ a.waiters, hSocks ▸ a.socks, hNodes ▸ a.nodes⟩

theorem accounts_iff_of_nothing {h : RWfileStatesHelper} {holdings : List Holding}
    (hNothing : ∀ a ∈ holdings, a.conn = none ∧ a.node = none) :
    Accounts h holdings ↔ h.numAcquiredConns = 0 ∧
      h.numDone = holdings.countP (·.phase = .done) ∧
      h.numRetryWaiters = holdings.countP (·.phase = .waiting) ∧ h.socks.Balanced [] ∧
      h.nodes.Balanced [] := by
  have hConns : holdings.countP (·.conn.isSome) = 0 := by
    rw [List.countP_eq_zero]
    intro a hIn
    rw [(hNothing a hIn).1]
    exact Bool.false_ne_true
  have hSocks : holdings.filterMap (·.conn) = [] := by
    rw [List.filterMap_eq_nil_iff]
    exact fun a hIn => (hNothing a hIn).1
  have hNodes : holdings.filterMap (·.node) = [] := by
    rw [List.filterMap_eq_nil_iff]
    exact fun a hIn => (hNothing a hIn).2
  constructor
  · rintro ⟨hA, hD, hW, hS, hN⟩
    rw [hConns] at hA
    rw [hSocks] at hS
    rw [hNodes] at hN
    exact ⟨hA, hD, hW, hS, hN⟩
  · rintro ⟨hA, hD, hW, hS, hN⟩
    refine ⟨?_, hD, hW, ?_, ?_⟩
    · rwa [hConns]
    · rwa [hSocks]
    · rwa [hNodes]

/-! ## Moves -/

def Moved (h : RWfileStatesHelper) (a : Holding) (h' : RWfileStatesHelper) (a' : Holding) : Prop :=
  ∀ others, Accounts h (a :: others) → Accounts h' (a' :: others)

namespace Moved

variable {h h' h'' : RWfileStatesHelper} {a a' a'' : Holding} {conn : Option (Option Nat)}
  {node : Option Nat} {phase phase' : Phase}

theorem refl (h : RWfileStatesHelper) (a : Holding) : Moved h a h a := fun _ => id

theorem trans (m : Moved h a h' a') (m' : Moved h' a' h'' a'') : Moved h a h'' a'' :=
  fun others hAccounts => m' others (m others hAccounts)

theorem of_fields (hConns : h'.numAcquiredConns = h.numAcquiredConns)
    (hDone : h'.numDone = h.numDone) (hWaiters : h'.numRetryWaiters = h.numRetryWaiters)
    (hSocks : h'.socks = h.socks) (hNodes : h'.nodes = h.nodes) : Moved h a h' a :=
  fun _ hAccounts => hAccounts.of_fields hConns hDone hWaiters hSocks hNodes

theorem phase_change (hDone : phase ≠ .done) (hWaiting : phase ≠ .waiting) (hDone' : phase' ≠ .done)
    (hWaiting' : phase' ≠ .waiting) : Moved h ⟨conn, node, phase⟩ h ⟨conn, node, phase'⟩ := by
  intro others hAccounts
  refine ⟨hAccounts.conns, ?_, ?_, hAccounts.socks, hAccounts.nodes⟩
  · rw [hAccounts.done]
    simp [hDone, hDone']
  · rw [hAccounts.waiters]
    simp [hWaiting, hWaiting']

theorem take_conn : Moved h ⟨none, node, phase⟩ { h with
      socks := h.socks.take
      numAcquiredConns := h.numAcquiredConns + 1 } ⟨some (some h.socks.taken), node, phase⟩ := by
  intro others hAccounts
  refine ⟨?_, hAccounts.done, hAccounts.waiters, hAccounts.socks.take, hAccounts.nodes⟩
  show h.numAcquiredConns + 1 = _
  rw [hAccounts.conns]
  simp

theorem give_conn {sock : Option Nat} :
    Moved h ⟨some sock, node, phase⟩ (h.releaseStreamSocket sock)
    ⟨none, node, phase⟩ := by
  intro others hAccounts
  refine ⟨?_, hAccounts.done, hAccounts.waiters, hAccounts.socks.giveBack, hAccounts.nodes⟩
  show h.numAcquiredConns - 1 = _
  rw [hAccounts.conns]
  simp

theorem take_node : Moved h ⟨conn, none, phase⟩ { h with nodes := h.nodes.take }
    ⟨conn, some h.nodes.taken, phase⟩ := by
  intro others hAccounts
  exact ⟨hAccounts.conns, hAccounts.done, hAccounts.waiters, hAccounts.socks, hAccounts.nodes.take⟩

theorem give_node {reference : Nat} : Moved h ⟨conn, some reference, phase⟩
    { h with nodes := h.nodes.giveBack (some reference) } ⟨conn, none, phase⟩ := by
  intro others hAccounts
  exact ⟨hAccounts.conns, hAccounts.done, hAccounts.waiters, hAccounts.socks,
    hAccounts.nodes.giveBack⟩

theorem become_done : Moved h ⟨conn, node, .cleaning⟩ { h with numDone := h.numDone + 1 }
    ⟨conn, node, .done⟩ := by
  intro others hAccounts
  refine ⟨hAccounts.conns, ?_, hAccounts.waiters, hAccounts.socks, hAccounts.nodes⟩
  show h.numDone + 1 = _
  rw [hAccounts.done]
  simp

theorem become_waiting : Moved h ⟨conn, node, .cleaning⟩
    { h with numRetryWaiters := h.numRetryWaiters + 1 } ⟨conn, node, .waiting⟩ := by
  intro others hAccounts
  refine ⟨hAccounts.conns, hAccounts.done, ?_, hAccounts.socks, hAccounts.nodes⟩
  show h.numRetryWaiters + 1 = _
  rw [hAccounts.waiters]
  simp

end Moved

/-! ## Steps of a state -/

section Steps

variable {σ δ : Type}

/-- No slot is added, and no state is counted as unconnectable. -/
structure SlotsKept (h h' : RWfileStatesHelper) : Prop where
  pollSocks : h'.pollSocks = h.pollSocks
  numPollSocks : h'.numPollSocks = h.numPollSocks
  numUnconnectable : h'.numUnconnectable = h.numUnconnectable

/-- What a step does to the slots: it adds that of the state, or none, or counts the state as
unconnectable. -/
inductive SlotStep (kinds : StageKinds σ) (h h' : RWfileStatesHelper) (s' : RWfileState σ δ) : Prop
  | polls : kinds.phase s'.stage = .polling → s'.pollSocksIndex = h.numPollSocks →
      h'.pollSocks = Function.update h.pollSocks h.numPollSocks ⟨s'.sock, false⟩ →
      h'.numPollSocks = h.numPollSocks + 1 → h'.numUnconnectable = h.numUnconnectable →
      SlotStep kinds h h' s'
  | rests : kinds.phase s'.stage ≠ .polling → SlotsKept h h' → SlotStep kinds h h' s'
  | unconnectable : kinds.phase s'.stage = .preparing → h'.pollSocks = h.pollSocks →
      h'.numPollSocks = h.numPollSocks → h'.numUnconnectable = h.numUnconnectable + 1 →
      SlotStep kinds h h' s'

/-- A step that keeps the accounts. -/
structure Stepped (kinds : StageKinds σ) (h : RWfileStatesHelper) (s : RWfileState σ δ)
    (r : RWfileStatesHelper × RWfileState σ δ) : Prop where
  moved : Moved h (holding kinds s) r.1 (holding kinds r.2)
  nodeFits : NodeFits kinds r.2
  slots : SlotStep kinds h r.1 r.2
  done : kinds.phase s.stage = .done → r.2 = s

namespace Stepped

variable {kinds : StageKinds σ} {h h' : RWfileStatesHelper} {s s' : RWfileState σ δ}
  {r : RWfileStatesHelper × RWfileState σ δ}

theorem after (hMoved : Moved h (holding kinds s) h' (holding kinds s')) (hKept : SlotsKept h h')
    (hDone : kinds.phase s.stage ≠ .done) (next : Stepped kinds h' s' r) : Stepped kinds h s r where
  moved := hMoved.trans next.moved
  nodeFits := next.nodeFits
  slots := by
    obtain ⟨hSocks, hNum, hUnconnectable⟩ := hKept
    cases next.slots with
    | polls hPhase hIndex hPollSocks hNumPollSocks hNumUnconnectable =>
      rw [hNum] at hIndex hPollSocks hNumPollSocks
      rw [hSocks] at hPollSocks
      exact .polls hPhase hIndex hPollSocks hNumPollSocks (hNumUnconnectable.trans hUnconnectable)
    | rests hPhase hKept' =>
      exact .rests hPhase ⟨hKept'.pollSocks.trans hSocks, hKept'.numPollSocks.trans hNum,
        hKept'.numUnconnectable.trans hUnconnectable⟩
    | unconnectable hPhase hPollSocks hNumPollSocks hNumUnconnectable =>
      rw [hUnconnectable] at hNumUnconnectable
      exact .unconnectable hPhase (hPollSocks.trans hSocks) (hNumPollSocks.trans hNum)
        hNumUnconnectable
  done := fun hPhase => absurd hPhase hDone

theorem nothing (hFits : NodeFits kinds s) (hPhase : kinds.phase s.stage ≠ .polling) :
    Stepped kinds h s (h, s) :=
  ⟨.refl h _, hFits, .rests hPhase ⟨rfl, rfl, rfl⟩, fun _ => rfl⟩

end Stepped

section

variable {kinds : StageKinds σ} {s : RWfileState σ δ}

theorem holding_of_hasConn (hConn : (kinds.phase s.stage).hasConn = true) :
    holding kinds s = ⟨some s.sock, s.node, kinds.phase s.stage⟩ := by
  unfold holding
  rw [if_pos hConn]

theorem holding_of_not_hasConn (hConn : (kinds.phase s.stage).hasConn = false) :
    holding kinds s = ⟨none, s.node, kinds.phase s.stage⟩ := by
  unfold holding
  rw [hConn, if_neg Bool.false_ne_true]

theorem nodeFits_of_hasNode (hNode : (kinds.phase s.stage).hasNode = true) : NodeFits kinds s := by
  intro hNone
  rw [hNode] at hNone
  exact absurd hNone (by decide)

theorem nodeFits_of_none (hNode : s.node = none) : NodeFits kinds s := fun _ => hNode

end

namespace Stepped

variable {kinds : StageKinds σ} {h h' : RWfileStatesHelper} {s s' : RWfileState σ δ}

theorem not_counted_of_hasConn {phase : Phase} (hConn : phase.hasConn = true) :
    phase ≠ .done ∧ phase ≠ .waiting := by
  constructor
  · rintro rfl
    exact absurd hConn (by decide)
  · rintro rfl
    exact absurd hConn (by decide)

section

variable (hFrom : (kinds.phase s.stage).hasConn = true)
include hFrom

theorem moved_of_hasConn (hTo : (kinds.phase s'.stage).hasConn = true) (hSock : s'.sock = s.sock)
    (hNode : s'.node = s.node) : Moved h (holding kinds s) h (holding kinds s') := by
  rw [holding_of_hasConn hFrom, holding_of_hasConn hTo, hSock, hNode]
  have hBefore := not_counted_of_hasConn hFrom
  have hAfter := not_counted_of_hasConn hTo
  exact .phase_change hBefore.1 hBefore.2 hAfter.1 hAfter.2

theorem connected (hTo : kinds.phase s'.stage = .connected) (hSock : s'.sock = s.sock)
    (hNode : s'.node = s.node) :
    Stepped kinds h s (h, s') where
  moved := moved_of_hasConn hFrom (by rw [hTo]; rfl) hSock hNode
  nodeFits := nodeFits_of_hasNode (by rw [hTo]; rfl)
  slots := .rests (by rw [hTo]; decide) ⟨rfl, rfl, rfl⟩
  done := fun hDone => absurd hDone (not_counted_of_hasConn hFrom).1

theorem polling
    (hTo : kinds.phase s'.stage = .polling) (hSock : s'.sock = s.sock) (hNode : s'.node = s.node) :
    Stepped kinds h s (h.addStateSockToPollSocks s') where
  moved := by
    have hMoved : Moved h (holding kinds s) h (holding kinds (h.addStateSockToPollSocks s').2) :=
      moved_of_hasConn hFrom (by show (kinds.phase s'.stage).hasConn = true; rw [hTo]; rfl) hSock
        hNode
    exact hMoved.trans (.of_fields rfl rfl rfl rfl rfl)
  nodeFits := nodeFits_of_hasNode (by show (kinds.phase s'.stage).hasNode = true; rw [hTo]; rfl)
  slots := .polls hTo rfl rfl rfl rfl
  done := fun hDone => absurd hDone (not_counted_of_hasConn hFrom).1

section

variable (hTo : kinds.phase s'.stage = .cleaning) (hNode : s'.node = s.node)
include hTo hNode

theorem moved_released :
    Moved h (holding kinds s) (h.releaseStreamSocket s.sock) (holding kinds s') := by
  have hNone : (kinds.phase s'.stage).hasConn = false := by rw [hTo]; rfl
  rw [holding_of_hasConn hFrom, holding_of_not_hasConn hNone, hNode, hTo]
  have hBefore := not_counted_of_hasConn hFrom
  have hGive : Moved h ⟨some s.sock, s.node, kinds.phase s.stage⟩ (h.releaseStreamSocket s.sock)
      ⟨none, s.node, kinds.phase s.stage⟩ := .give_conn
  exact hGive.trans (.phase_change hBefore.1 hBefore.2 (by decide) (by decide))

theorem released : Stepped kinds h s (h.releaseStreamSocket s.sock, s') where
  moved := moved_released hFrom hTo hNode
  nodeFits := nodeFits_of_hasNode (by rw [hTo]; rfl)
  slots := .rests (by rw [hTo]; decide) ⟨rfl, rfl, rfl⟩
  done := fun hDone => absurd hDone (not_counted_of_hasConn hFrom).1

end

end

/-! ### The end of an attempt -/

theorem moved_cleaned (hFrom : kinds.phase s.stage = .cleaning) :
    Moved h (holding kinds s) (if s.node.isSome then h.releaseNode s else (h, s)).1
        ⟨none, none, .cleaning⟩ ∧
      SlotsKept h (if s.node.isSome then h.releaseNode s else (h, s)).1 ∧
      (if s.node.isSome then h.releaseNode s else (h, s)).2.node = none := by
  have hNone : (kinds.phase s.stage).hasConn = false := by rw [hFrom]; rfl
  rw [holding_of_not_hasConn hNone, hFrom]
  cases hNode : s.node with
  | none => exact ⟨.refl h _, ⟨rfl, rfl, rfl⟩, hNode⟩
  | some reference =>
    have hReleased : h.releaseNode s =
        ({ h with nodes := h.nodes.giveBack (some reference) }, { s with node := none }) := by
      unfold RWfileStatesHelper.releaseNode
      rw [hNode]
    rw [if_pos Option.isSome_some, hReleased]
    exact ⟨.give_node, ⟨rfl, rfl, rfl⟩, rfl⟩

section

variable (hMoved : Moved h (holding kinds s) h' ⟨none, none, .cleaning⟩) (hKept : SlotsKept h h')
  (hFrom : kinds.phase s.stage ≠ .done) (hNode : s'.node = none)
include hMoved hKept hFrom hNode

theorem becomeDone (hTo : kinds.phase s'.stage = .done) :
    Stepped kinds h s ({ h' with numDone := h'.numDone + 1 }, s') where
  moved := by
    have hNone : (kinds.phase s'.stage).hasConn = false := by rw [hTo]; rfl
    rw [holding_of_not_hasConn hNone, hNode, hTo]
    exact hMoved.trans .become_done
  nodeFits := nodeFits_of_none hNode
  slots := .rests (by rw [hTo]; decide)
    ⟨hKept.pollSocks, hKept.numPollSocks, hKept.numUnconnectable⟩
  done := fun hDone => absurd hDone hFrom

theorem becomeWaiting (hTo : kinds.phase s'.stage = .waiting) :
    Stepped kinds h s ({ h' with numRetryWaiters := h'.numRetryWaiters + 1 }, s') where
  moved := by
    have hNone : (kinds.phase s'.stage).hasConn = false := by rw [hTo]; rfl
    rw [holding_of_not_hasConn hNone, hNode, hTo]
    exact hMoved.trans .become_waiting
  nodeFits := nodeFits_of_none hNode
  slots := .rests (by rw [hTo]; decide)
    ⟨hKept.pollSocks, hKept.numPollSocks, hKept.numUnconnectable⟩
  done := fun hDone => absurd hDone hFrom

end

/-! ### The preparation -/

def PrepareMoves (h : RWfileStatesHelper) (r : Prepared × RWfileStatesHelper × RWfileState σ δ) :
    Prop :=
  match r with
  | (.cleanup, h', s') =>
    Moved h ⟨none, none, .preparing⟩ h' ⟨none, s'.node, .cleaning⟩ ∧ SlotsKept h h'
  | (.unconnectable, h', s') =>
    Moved h ⟨none, none, .preparing⟩ h' ⟨none, none, .preparing⟩ ∧ s'.node = none ∧
      h'.pollSocks = h.pollSocks ∧ h'.numPollSocks = h.numPollSocks ∧
      h'.numUnconnectable = h.numUnconnectable + 1
  | (.connected, h', s') =>
    Moved h ⟨none, none, .preparing⟩ h' ⟨some s'.sock, s'.node, .connected⟩ ∧ SlotsKept h h'

theorem prepareMoves (i : PrepareInput) (h : RWfileStatesHelper) {s : RWfileState σ δ}
    (hNode : s.node = none) : PrepareMoves h (prepare i h s) := by
  have hClean : ∀ (conn : Option (Option Nat)) (node : Option Nat) (h : RWfileStatesHelper),
      Moved h ⟨conn, node, .preparing⟩ h ⟨conn, node, .cleaning⟩ := fun _ _ _ =>
    .phase_change (by decide) (by decide) (by decide) (by decide)
  unfold prepare
  dsimp only
  split_ifs
  · refine ⟨?_, rfl, rfl, rfl⟩
    rw [hNode]
    exact hClean none none h
  · refine ⟨?_, rfl, rfl, rfl⟩
    rw [hNode]
    exact hClean none none h
  · exact ⟨hClean none none h, rfl, rfl, rfl⟩
  · exact ⟨hClean none none h, rfl, rfl, rfl⟩
  · exact ⟨Moved.take_node.trans (hClean none _ _), rfl, rfl, rfl⟩
  · refine ⟨?_, rfl, rfl, rfl, rfl⟩
    have hGive : Moved { h with nodes := h.nodes.take } ⟨none, some h.nodes.taken, .preparing⟩
        { h with nodes := h.nodes.take.giveBack (some h.nodes.taken) } ⟨none, none, .preparing⟩ :=
      .give_node
    exact (Moved.take_node.trans hGive).trans (.of_fields rfl rfl rfl rfl rfl)
  · refine ⟨?_, rfl, rfl, rfl⟩
    exact (Moved.take_node.trans .take_conn).trans
      (.phase_change (by decide) (by decide) (by decide) (by decide))

variable {r : RWfileState σ δ}

theorem holding_of_preparing (hPhase : kinds.phase s.stage = .preparing)
    (hFits : NodeFits kinds s) :
    holding kinds s = ⟨none, none, .preparing⟩ := by
  have hNode : s.node = none := hFits (by rw [hPhase]; rfl)
  rw [holding_of_not_hasConn (by rw [hPhase]; rfl), hNode, hPhase]

variable (hFrom : kinds.phase s.stage = .preparing)
include hFrom

theorem notPrepared (hFits : NodeFits kinds s)
    (hMoves : PrepareMoves h (.cleanup, h', r)) (hNode : s'.node = r.node)
    (hTo : kinds.phase s'.stage = .cleaning) : Stepped kinds h s (h', s') where
  moved := by
    rw [holding_of_preparing hFrom hFits, holding_of_not_hasConn (by rw [hTo]; rfl), hNode, hTo]
    exact hMoves.1
  nodeFits := nodeFits_of_hasNode (by rw [hTo]; rfl)
  slots := .rests (by rw [hTo]; decide) hMoves.2
  done := fun hDone => absurd (hFrom.symm.trans hDone) (by decide)

theorem unconnectable (hFits : NodeFits kinds s) (hMoves : PrepareMoves h (.unconnectable, h', s'))
    (hTo : kinds.phase s'.stage = .preparing) : Stepped kinds h s (h', s') where
  moved := by
    rw [holding_of_preparing hFrom hFits, holding_of_preparing hTo (nodeFits_of_none hMoves.2.1)]
    exact hMoves.1
  nodeFits := nodeFits_of_none hMoves.2.1
  slots := .unconnectable hTo hMoves.2.2.1 hMoves.2.2.2.1 hMoves.2.2.2.2
  done := fun hDone => absurd (hFrom.symm.trans hDone) (by decide)

theorem prepared {next : RWfileStatesHelper × RWfileState σ δ} (hFits : NodeFits kinds s)
    (hNext : Stepped kinds h' s' next) (hMoves : PrepareMoves h (.connected, h', r))
    (hSock : s'.sock = r.sock) (hNode : s'.node = r.node)
    (hTo : kinds.phase s'.stage = .connected) : Stepped kinds h s next := by
  refine .after ?_ hMoves.2 ?_ hNext
  · rw [holding_of_preparing hFrom hFits, holding_of_hasConn (by rw [hTo]; rfl), hSock, hNode, hTo]
    exact hMoves.1
  · rw [hFrom]
    exact nofun

end Stepped

end Steps

end Fhgfs.Client
