import Fhgfs.Client.CommKitAccounts
import Fhgfs.Client.CommKitRounds
import Fhgfs.Lib.Run

/-!
# The accounting of a communication

If every step of a state keeps the accounts, they are right at the top of every round, the events
that a state acts on are those of its own connection, and everything is given back at the end
(`accounted_of_stepped`).
-/

namespace Fhgfs.Client

open Run List Function

/-! ## Within a round -/

section Round

variable {σ δ ι : Type}

/-- If the slot of a state has an event, it is that of its own connection. -/
def EventIsOwn (h : RWfileStatesHelper) (s : RWfileState σ δ) : Prop :=
  (h.pollSocks s.pollSocksIndex).revents = true → (h.pollSocks s.pollSocksIndex).sock = s.sock

/-- The states before the current one have had their step in this round. -/
structure InRound (kinds : StageKinds σ) (h : RWfileStatesHelper)
    (before rest : List (RWfileState σ δ)) : Prop where
  accounts : Accounts h ((before ++ rest).map (holding kinds))
  nodeFits : ∀ s ∈ before ++ rest, NodeFits kinds s
  polled : ∀ s ∈ before, kinds.phase s.stage = .polling →
    s.pollSocksIndex < h.numPollSocks ∧ (h.pollSocks s.pollSocksIndex).sock = s.sock
  unpolled : ∀ s ∈ rest, kinds.phase s.stage = .polling → EventIsOwn h s
  count : h.numPollSocks + h.numUnconnectable ≤
    before.countP fun s => ¬kinds.phase s.stage = .done ∧ ¬kinds.phase s.stage = .waiting

namespace InRound

variable {kinds : StageKinds σ} {h : RWfileStatesHelper} {before rest : List (RWfileState σ δ)}
  {s : RWfileState σ δ} {r : RWfileStatesHelper × RWfileState σ δ}

section

variable (inRound : InRound kinds h before (s :: rest)) (stepped : Stepped kinds h s r)
include inRound stepped

theorem accounts_step : Accounts r.1 ((before ++ [r.2] ++ rest).map (holding kinds)) := by
  have hPerm : ((before ++ s :: rest).map (holding kinds)).Perm
      (holding kinds s :: (before ++ rest).map (holding kinds)) := by
    rw [← map_cons]
    exact perm_middle.map _
  have hPerm' : (holding kinds r.2 :: (before ++ rest).map (holding kinds)).Perm
      ((before ++ [r.2] ++ rest).map (holding kinds)) := by
    rw [← map_cons, append_assoc, singleton_append]
    exact perm_middle.symm.map _
  exact (stepped.moved _ (inRound.accounts.perm hPerm)).perm hPerm'

theorem polled_step : ∀ t ∈ before ++ [r.2], kinds.phase t.stage = .polling →
      t.pollSocksIndex < r.1.numPollSocks ∧ (r.1.pollSocks t.pollSocksIndex).sock = t.sock := by
  intro t hIn hPolling
  cases stepped.slots with
  | polls hPhase hIndex hPollSocks hNumPollSocks hUnconnectable =>
    rw [hPollSocks, hNumPollSocks]
    rcases mem_append.mp hIn with hBefore | hNew
    · obtain ⟨hLt, hSock⟩ := inRound.polled t hBefore hPolling
      rw [update_of_ne hLt.ne]
      exact ⟨hLt.trans (Nat.lt_succ_self _), hSock⟩
    · rw [mem_singleton.mp hNew, hIndex, update_self]
      exact ⟨Nat.lt_succ_self _, rfl⟩
  | rests hPhase hKept =>
    rw [hKept.pollSocks, hKept.numPollSocks]
    rcases mem_append.mp hIn with hBefore | hNew
    · exact inRound.polled t hBefore hPolling
    · rw [mem_singleton.mp hNew] at hPolling
      exact absurd hPolling hPhase
  | unconnectable hPhase hPollSocks hNumPollSocks hUnconnectable =>
    rw [hPollSocks, hNumPollSocks]
    rcases mem_append.mp hIn with hBefore | hNew
    · exact inRound.polled t hBefore hPolling
    · rw [mem_singleton.mp hNew, hPhase] at hPolling
      exact absurd hPolling (by decide)

theorem unpolled_step : ∀ t ∈ rest, kinds.phase t.stage = .polling → EventIsOwn r.1 t := by
  intro t hIn hPolling hEvent
  have hOwn := inRound.unpolled t (mem_cons_of_mem _ hIn) hPolling
  cases stepped.slots with
  | polls hPhase hIndex hPollSocks hNumPollSocks hUnconnectable =>
    rw [hPollSocks] at hEvent ⊢
    by_cases hSlot : t.pollSocksIndex = h.numPollSocks
    · rw [hSlot, update_self] at hEvent
      exact nomatch hEvent
    · rw [update_of_ne hSlot] at hEvent ⊢
      exact hOwn hEvent
  | rests hPhase hKept =>
    rw [hKept.pollSocks] at hEvent ⊢
    exact hOwn hEvent
  | unconnectable hPhase hPollSocks hNumPollSocks hUnconnectable =>
    rw [hPollSocks] at hEvent ⊢
    exact hOwn hEvent

theorem count_step : r.1.numPollSocks + r.1.numUnconnectable ≤ (before ++ [r.2]).countP
      fun s => ¬kinds.phase s.stage = .done ∧ ¬kinds.phase s.stage = .waiting := by
  have hCount := inRound.count
  rw [countP_append, countP_singleton]
  cases stepped.slots with
  | polls hPhase hIndex hPollSocks hNumPollSocks hUnconnectable
  | unconnectable hPhase hPollSocks hNumPollSocks hUnconnectable =>
    rw [hPhase, if_pos (by decide)]
    omega
  | rests hPhase hKept =>
    have hNum := hKept.numPollSocks
    have hUnconnectable := hKept.numUnconnectable
    omega

theorem step : InRound kinds r.1 (before ++ [r.2]) rest where
  accounts := inRound.accounts_step stepped
  nodeFits := by
    intro t hIn
    rw [append_assoc, singleton_append, mem_append, mem_cons] at hIn
    rcases hIn with hBefore | rfl | hRest
    · exact inRound.nodeFits t (mem_append_left _ hBefore)
    · exact stepped.nodeFits
    · exact inRound.nodeFits t (mem_append_right _ (mem_cons_of_mem _ hRest))
  polled := inRound.polled_step stepped
  unpolled := inRound.unpolled_step stepped
  count := inRound.count_step stepped

end

end InRound

def EveryVisit (P : ι → RWfileStatesHelper → RWfileState σ δ → Prop)
    (step : ι → RWfileStatesHelper → RWfileState σ δ → RWfileStatesHelper × RWfileState σ δ)
    (i : Nat → ι) : Nat → RWfileStatesHelper → List (RWfileState σ δ) → Prop
  | _, _, [] => True
  | k, h, s :: states =>
    P (i k) h s ∧ EveryVisit P step i (k + 1) (step (i k) h s).1 states

variable {kinds : StageKinds σ}
  {step : ι → RWfileStatesHelper → RWfileState σ δ → RWfileStatesHelper × RWfileState σ δ}

theorem inRound_statesLoop (hStep : ∀ i h s, NodeFits kinds s → Stepped kinds h s (step i h s))
    (i : Nat → ι) (k : Nat) {h : RWfileStatesHelper} {before states : List (RWfileState σ δ)}
    (inRound : InRound kinds h before states) :
    InRound kinds (statesLoop step i k h states).1 (before ++ (statesLoop step i k h states).2) [] ∧
      EveryVisit (fun _ h s => kinds.phase s.stage = .polling → EventIsOwn h s) step i k h
        states := by
  induction states generalizing k h before with
  | nil =>
    refine ⟨?_, trivial⟩
    unfold statesLoop
    rwa [append_nil]
  | cons s states ih =>
    have stepped : Stepped kinds h s (step (i k) h s) :=
      hStep (i k) h s (inRound.nodeFits s (mem_append_right _ mem_cons_self))
    obtain ⟨hRest, hVisits⟩ := ih (k + 1) (inRound.step stepped)
    rw [append_assoc, singleton_append] at hRest
    exact ⟨hRest, inRound.unpolled s mem_cons_self, hVisits⟩

/-! ## Counting -/

theorem countP_add_countP_not_both {α : Type} (l : List α) (p q : α → Prop) [DecidablePred p]
    [DecidablePred q] (hNotBoth : ∀ a, p a → ¬q a) :
    l.countP (fun a => p a) + l.countP (fun a => q a) + l.countP (fun a => ¬p a ∧ ¬q a) =
      l.length := by
  induction l with
  | nil => rfl
  | cons a l ih =>
    have hHere := hNotBoth a
    rw [countP_cons, countP_cons, countP_cons, length_cons, ← ih]
    by_cases hp : p a
    · have hq := hHere hp
      simp only [hp, hq, decide_true, decide_false, not_true_eq_false, false_and, if_true, if_false,
        Bool.false_eq_true]
      omega
    · by_cases hq : q a
      all_goals
        simp only [hp, hq, decide_true, decide_false, not_true_eq_false, not_false_eq_true,
          and_false, and_self, if_true, if_false, Bool.false_eq_true]
        omega

end Round

/-! ## At the top of a round -/

section Top

variable {σ δ ι : Type}

/-- The invariant between the rounds. -/
structure TopOfRound (kinds : StageKinds σ) (c : RWfileStatesHelper × List (RWfileState σ δ)) :
    Prop where
  accounts : Accounts c.1 (c.2.map (holding kinds))
  nodeFits : ∀ s ∈ c.2, NodeFits kinds s
  slots : ∀ s ∈ c.2, kinds.phase s.stage = .polling → EventIsOwn c.1 s

variable {kinds : StageKinds σ} {c : RWfileStatesHelper × List (RWfileState σ δ)}
  {h : RWfileStatesHelper} {states : List (RWfileState σ δ)}
  {step : ι → RWfileStatesHelper → RWfileState σ δ → RWfileStatesHelper × RWfileState σ δ}

theorem inRound_roundBeforePoll
    (hStep : ∀ i h s, NodeFits kinds s → Stepped kinds h s (step i h s)) (i : RoundInput ι)
    (top : TopOfRound kinds c) :
    InRound kinds (roundBeforePoll step i c).1 (roundBeforePoll step i c).2 [] ∧
      EveryVisit (fun _ h s => kinds.phase s.stage = .polling → EventIsOwn h s) step i.stages 0
        { c.1 with numUnconnectable := 0, numPollSocks := 0 } c.2 := by
  have inRound : InRound kinds { c.1 with numUnconnectable := 0, numPollSocks := 0 } [] c.2 :=
    ⟨top.accounts.of_fields rfl rfl rfl rfl rfl, top.nodeFits,
      fun _ hIn => absurd hIn not_mem_nil, top.slots, le_rfl⟩
  exact inRound_statesLoop hStep i.stages 0 inRound

namespace InRound

section

variable (inRound : InRound kinds h states [])
include inRound

theorem counts : h.numDone = states.countP (fun s => kinds.phase s.stage = .done) ∧
      h.numRetryWaiters = states.countP (fun s => kinds.phase s.stage = .waiting) ∧
      h.numDone + h.numRetryWaiters + states.countP (fun s =>
        ¬kinds.phase s.stage = .done ∧ ¬kinds.phase s.stage = .waiting) = states.length := by
  have hDone := inRound.accounts.done
  have hWaiters := inRound.accounts.waiters
  rw [append_nil, countP_map] at hDone hWaiters
  refine ⟨hDone, hWaiters, ?_⟩
  rw [hDone, hWaiters]
  apply countP_add_countP_not_both
  intro s hPhase hWaiting
  rw [hPhase] at hWaiting
  exact absurd hWaiting (by decide)

theorem numWaiters_le :
    h.numRetryWaiters + h.numDone + h.numUnconnectable + h.numPollSocks ≤ states.length := by
  have hCount := inRound.count
  have hSum := inRound.counts.2.2
  omega

theorem topOfRound_poll (i : PollInput) (numStates : Nat) :
    TopOfRound kinds (pollStateSocks i numStates h, states) := by
  have hFields : (pollStateSocks i numStates h).numAcquiredConns = h.numAcquiredConns ∧
      (pollStateSocks i numStates h).numDone = h.numDone ∧
      (pollStateSocks i numStates h).numRetryWaiters = h.numRetryWaiters ∧
      (pollStateSocks i numStates h).socks = h.socks ∧
      (pollStateSocks i numStates h).nodes = h.nodes ∧
      ∀ slot, ((pollStateSocks i numStates h).pollSocks slot).sock = (h.pollSocks slot).sock := by
    unfold pollStateSocks
    dsimp only
    split <;> exact ⟨rfl, rfl, rfl, rfl, rfl, fun _ => rfl⟩
  obtain ⟨hConns, hDone, hWaiters, hSocks, hNodes, hSlots⟩ := hFields
  have hAccounts := inRound.accounts
  have hFits := inRound.nodeFits
  rw [append_nil] at hAccounts hFits
  refine ⟨hAccounts.of_fields hConns hDone hWaiters hSocks hNodes, hFits, ?_⟩
  intro s hIn hPolling _
  show ((pollStateSocks i numStates h).pollSocks s.pollSocksIndex).sock = s.sock
  rw [hSlots]
  exact (inRound.polled s hIn hPolling).2

theorem not_polling (hNone : h.numPollSocks = 0) :
    ∀ s ∈ states, kinds.phase s.stage ≠ .polling := by
  intro s hIn hPolling
  have hLt := (inRound.polled s hIn hPolling).1
  omega

theorem topOfRound (hNone : h.numPollSocks = 0) : TopOfRound kinds (h, states) := by
  have hAccounts := inRound.accounts
  have hFits := inRound.nodeFits
  rw [append_nil] at hAccounts hFits
  exact ⟨hAccounts, hFits, fun s hIn hPolling => absurd hPolling (inRound.not_polling hNone s hIn)⟩

end

end InRound

/-! ### The start of a retry -/

def Idle (kinds : StageKinds σ) (s : RWfileState σ δ) : Prop :=
  s.node = none ∧ (s.stage = kinds.prepare ∨ s.stage = kinds.retryWait ∨ s.stage = kinds.done)

variable {s s' : RWfileState σ δ}

theorem Idle.retried (hIdle : Idle kinds s)
    (hRetried : Retried kinds.retryWait kinds.prepare kinds.done s s') : Idle kinds s' := by
  cases hRetried with
  | same => exact hIdle
  | prepared _ _ => exact ⟨hIdle.1, Or.inl rfl⟩
  | cancelled _ _ => exact ⟨hIdle.1, Or.inr (Or.inr rfl)⟩

theorem Idle.phase (hIdle : Idle kinds s) : kinds.phase s.stage = .preparing ∨
    kinds.phase s.stage = .waiting ∨ kinds.phase s.stage = .done := by
  rw [kinds.phase_eq_preparing, kinds.phase_eq_waiting, kinds.phase_eq_done]
  exact hIdle.2

theorem Idle.holding (hIdle : Idle kinds s) :
    (holding kinds s).conn = none ∧ (holding kinds s).node = none := by
  refine ⟨?_, hIdle.1⟩
  have hNone : (kinds.phase s.stage).hasConn = false := by
    rcases hIdle.phase with hPhase | hPhase | hPhase <;> rw [hPhase] <;> rfl
  rw [holding_of_not_hasConn hNone]

theorem forall_holding_of_idle (hIdle : ∀ s ∈ states, Idle kinds s) :
    ∀ a ∈ states.map (holding kinds), a.conn = none ∧ a.node = none := by
  intro a hIn
  obtain ⟨s, hState, rfl⟩ := mem_map.mp hIn
  exact (hIdle s hState).holding

section

variable (inRound : InRound kinds h states [])
  (hAll : h.numDone + h.numRetryWaiters = states.length)
include inRound hAll

theorem InRound.idle : ∀ s ∈ states, Idle kinds s := by
  have hSum := inRound.counts.2.2
  have hNone : states.countP (fun s =>
      ¬kinds.phase s.stage = .done ∧ ¬kinds.phase s.stage = .waiting) = 0 := by omega
  intro s hIn
  have hHere := countP_eq_zero.mp hNone s hIn
  have hFits := inRound.nodeFits s (mem_append_left _ hIn)
  rw [decide_eq_true_eq, not_and_or, not_not, not_not] at hHere
  rcases hHere with hPhase | hPhase
  · exact ⟨hFits (by rw [hPhase]; rfl), Or.inr (Or.inr ((kinds.phase_eq_done _).mp hPhase))⟩
  · exact ⟨hFits (by rw [hPhase]; rfl), Or.inr (Or.inl ((kinds.phase_eq_waiting _).mp hPhase))⟩

theorem InRound.topOfRound_startRetry [DecidableEq σ] (choice : RWfileState σ δ → RetryChoice) :
    TopOfRound kinds (startRetry kinds.retryWait kinds.prepare kinds.done choice h states) := by
  have hIdle := inRound.idle hAll
  obtain ⟨retried, hFirst, hSecond⟩ :=
    retried_startRetry kinds.retryWait kinds.prepare kinds.done choice h states
  have hIdle' := forall_of_retried (fun _ _ => Idle.retried) hSecond
    (forall_of_retried (fun _ _ => Idle.retried) hFirst hIdle)
  have hDone : h.numDone = states.countP (·.stage = kinds.done) := by
    rw [inRound.counts.1]
    simp only [kinds.phase_eq_done]
  obtain ⟨hNumDone, hWaiters, hNotWaiting⟩ := startRetry_counters kinds.prepare_ne_retryWait
    kinds.retryWait_ne_done kinds.prepare_ne_done choice hDone
  obtain ⟨hConns, hSocks, hNodes⟩ := startRetry_ledgers kinds.retryWait kinds.prepare
    kinds.done choice h states
  have hAccounts := inRound.accounts
  rw [append_nil, accounts_iff_of_nothing (forall_holding_of_idle hIdle)] at hAccounts
  generalize startRetry kinds.retryWait kinds.prepare kinds.done choice h states = c at *
  refine ⟨?_, ?_, ?_⟩
  · rw [accounts_iff_of_nothing (forall_holding_of_idle hIdle'), hConns, hSocks, hNodes, hWaiters,
      hNumDone, countP_map, countP_map]
    refine ⟨hAccounts.1, ?_, ?_, hAccounts.2.2.2⟩
    · show _ = c.2.countP fun s => kinds.phase s.stage = .done
      simp only [kinds.phase_eq_done]
    · symm
      rw [countP_eq_zero]
      intro s hIn hWaiting
      have hPhase : kinds.phase s.stage = .waiting := of_decide_eq_true hWaiting
      exact hNotWaiting s hIn ((kinds.phase_eq_waiting _).mp hPhase)
  · exact fun s hIn => nodeFits_of_none (hIdle' s hIn).1
  · intro s hIn hPolling
    rcases (hIdle' s hIn).phase with hPhase | hPhase | hPhase <;> rw [hPhase] at hPolling <;>
      exact absurd hPolling (by decide)

end

theorem filterMap_conn (kinds : StageKinds σ) (states : List (RWfileState σ δ)) :
    (states.map (holding kinds)).filterMap (·.conn) =
      (states.filter fun s => (kinds.phase s.stage).hasConn).map (·.sock) := by
  induction states with
  | nil => rfl
  | cons s states ih =>
    rw [map_cons]
    cases hConn : (kinds.phase s.stage).hasConn with
    | true =>
      rw [filter_cons, if_pos hConn, map_cons, holding_of_hasConn hConn, filterMap_cons, ih]
    | false =>
      rw [filter_cons, if_neg (Bool.eq_false_iff.mp hConn), holding_of_not_hasConn hConn,
        filterMap_cons, ih]

theorem nodeFits_retried (hFits : NodeFits kinds s)
    (hRetried : Retried kinds.retryWait kinds.prepare kinds.done s s') : NodeFits kinds s' := by
  have hWaiting : s.stage = kinds.retryWait → s.node = none := by
    intro hStage
    apply hFits
    rw [(kinds.phase_eq_waiting _).mpr hStage]
    rfl
  have hPreparing : s.stage = kinds.prepare → s.node = none := by
    intro hStage
    apply hFits
    rw [(kinds.phase_eq_preparing _).mpr hStage]
    rfl
  cases hRetried with
  | same => exact hFits
  | prepared _ hStage => exact nodeFits_of_none (hWaiting hStage)
  | cancelled _ hStage => exact nodeFits_of_none (hStage.elim hWaiting hPreparing)

theorem done_retried {s t t' : RWfileState σ δ} (hDone : s.stage = kinds.done) (hSame : t = s)
    (hRetried : Retried kinds.retryWait kinds.prepare kinds.done t t') : t' = s := by
  subst hSame
  cases hRetried with
  | same => rfl
  | prepared _ hStage => exact absurd (hStage.symm.trans hDone) kinds.retryWait_ne_done
  | cancelled _ hStage =>
    rcases hStage with hStage | hStage
    · exact absurd (hStage.symm.trans hDone) kinds.retryWait_ne_done
    · exact absurd (hStage.symm.trans hDone) kinds.prepare_ne_done

theorem everyVisit_acts {acts : ι → RWfileStatesHelper → RWfileState σ δ → Prop}
    (hActs : ∀ i h s, (kinds.phase s.stage = .polling → EventIsOwn h s) → acts i h s)
    (i : Nat → ι) (k : Nat) (h : RWfileStatesHelper)
    {states : List (RWfileState σ δ)}
    (hVisits : EveryVisit (fun _ h s => kinds.phase s.stage = .polling → EventIsOwn h s) step i k h
      states) : EveryVisit acts step i k h states := by
  induction states generalizing k h with
  | nil => trivial
  | cons s states ih => exact ⟨hActs _ _ _ hVisits.1, ih _ _ hVisits.2⟩

end Top

/-! ## Runs -/

section Runs

variable {σ δ ι : Type} [DecidableEq σ]

/-- The counters at the top of a round. The connections that are out are those of the states that
have one. -/
structure CountersRight (kinds : StageKinds σ) (c : RWfileStatesHelper × List (RWfileState σ δ)) :
    Prop where
  conns : c.1.numAcquiredConns = c.2.countP fun s => (kinds.phase s.stage).hasConn
  held : c.1.socks.Balanced ((c.2.filter fun s => (kinds.phase s.stage).hasConn).map (·.sock))
  done : c.1.numDone = c.2.countP (·.stage = kinds.done)
  waiters : c.1.numRetryWaiters = c.2.countP (·.stage = kinds.retryWait)

/-- What is right within a round: the number of states that wait for something, the events that a
state acts on, and that a state that is done is left alone. -/
structure RoundRight (kinds : StageKinds σ)
    (acts : ι → RWfileStatesHelper → RWfileState σ δ → Prop)
    (step : ι → RWfileStatesHelper → RWfileState σ δ → RWfileStatesHelper × RWfileState σ δ)
    (start : RetryInput → RWfileStatesHelper → List (RWfileState σ δ) →
      RWfileStatesHelper × List (RWfileState σ δ))
    (c : RWfileStatesHelper × List (RWfileState σ δ)) (i : RoundInput ι) : Prop where
  numWaiters : (roundBeforePoll step i c).1.numRetryWaiters + (roundBeforePoll step i c).1.numDone +
    (roundBeforePoll step i c).1.numUnconnectable + (roundBeforePoll step i c).1.numPollSocks ≤
      c.2.length
  events : EveryVisit acts step i.stages 0
    { c.1 with numUnconnectable := 0, numPollSocks := 0 } c.2
  done : ∀ (j : Nat) (s s' : RWfileState σ δ), c.2[j]? = some s → s.stage = kinds.done →
    (round step start c i).2[j]? = some s' → s' = s

/-- The loop has ended: all that was taken is given back. -/
structure Finished (kinds : StageKinds σ) (c : RWfileStatesHelper × List (RWfileState σ δ)) :
    Prop where
  done : ∀ s ∈ c.2, s.stage = kinds.done
  numDone : c.1.numDone = c.2.length
  numAcquiredConns : c.1.numAcquiredConns = 0
  socks : c.1.socks.AllReturned
  nodes : c.1.nodes.AllReturned

/-- What a communication that begins with some states promises. -/
structure Accounted (kinds : StageKinds σ)
    (acts : ι → RWfileStatesHelper → RWfileState σ δ → Prop)
    (step : ι → RWfileStatesHelper → RWfileState σ δ → RWfileStatesHelper × RWfileState σ δ)
    (start : RetryInput → RWfileStatesHelper → List (RWfileState σ δ) →
      RWfileStatesHelper × List (RWfileState σ δ))
    (c : RWfileStatesHelper × List (RWfileState σ δ)) (is : List (RoundInput ι)) : Prop where
  counters : Throughout (round step start) (CountersRight kinds) c is
  rounds : EveryStep (round step start) (RoundRight kinds acts step start) c is
  finished : (after (round step start) c is).1.numDone = c.2.length →
    Finished kinds (after (round step start) c is)

variable {kinds : StageKinds σ} {c : RWfileStatesHelper × List (RWfileState σ δ)}
  {step : ι → RWfileStatesHelper → RWfileState σ δ → RWfileStatesHelper × RWfileState σ δ}
  {choice : RetryInput → RWfileStatesHelper → RWfileState σ δ → RetryChoice}
  {acts : ι → RWfileStatesHelper → RWfileState σ δ → Prop}

theorem TopOfRound.countersRight (top : TopOfRound kinds c) : CountersRight kinds c := by
  obtain ⟨hConns, hDone, hWaiters, hSocks, -⟩ := top.accounts
  rw [countP_map] at hConns hDone hWaiters
  rw [filterMap_conn] at hSocks
  refine ⟨?_, hSocks, ?_, ?_⟩
  · rw [hConns]
    congr 2
    funext s
    show (if (kinds.phase s.stage).hasConn then some s.sock else none).isSome = _
    cases (kinds.phase s.stage).hasConn <;> rfl
  · rw [hDone]
    show c.2.countP (fun s => kinds.phase s.stage = .done) = _
    simp only [kinds.phase_eq_done]
  · rw [hWaiters]
    show c.2.countP (fun s => kinds.phase s.stage = .waiting) = _
    simp only [kinds.phase_eq_waiting]

theorem TopOfRound.finished (top : TopOfRound kinds c) (hDone : c.1.numDone = c.2.length) :
    Finished kinds c := by
  have hCount := top.countersRight.done
  have hAll : ∀ s ∈ c.2, s.stage = kinds.done := by
    have hEq : c.2.countP (·.stage = kinds.done) = c.2.length := hCount.symm.trans hDone
    rw [countP_eq_length] at hEq
    exact fun s hIn => of_decide_eq_true (hEq s hIn)
  have hIdle : ∀ s ∈ c.2, Idle kinds s := by
    intro s hIn
    refine ⟨top.nodeFits s hIn ?_, Or.inr (Or.inr (hAll s hIn))⟩
    rw [(kinds.phase_eq_done _).mpr (hAll s hIn)]
    rfl
  obtain ⟨hConns, -, -, hSocks, hNodes⟩ :=
    (accounts_iff_of_nothing (forall_holding_of_idle hIdle)).mp top.accounts
  exact ⟨hAll, hDone, hConns, hSocks.allReturned, hNodes.allReturned⟩

section Rounds

variable (hStep : ∀ i h s, NodeFits kinds s → Stepped kinds h s (step i h s))
include hStep

theorem topOfRound_round (top : TopOfRound kinds c) (i : RoundInput ι) :
    TopOfRound kinds (round step (fun i h =>
      startRetry kinds.retryWait kinds.prepare kinds.done (choice i h) h) c i) := by
  obtain ⟨inRound, -⟩ := inRound_roundBeforePoll hStep i top
  unfold round
  dsimp only
  split
  · exact inRound.topOfRound_poll _ _
  · rename_i hNone
    rw [not_not] at hNone
    split
    · rename_i hRetry
      exact inRound.topOfRound_startRetry hRetry.2 _
    · exact inRound.topOfRound hNone

theorem done_round (top : TopOfRound kinds c) (i : RoundInput ι) {j : Nat}
    {s s' : RWfileState σ δ} (hState : c.2[j]? = some s) (hDone : s.stage = kinds.done)
    (hState' : (round step (fun i h =>
      startRetry kinds.retryWait kinds.prepare kinds.done (choice i h) h) c i).2[j]? = some s') :
    s' = s := by
  refine round_keeps choice (I := fun j s' => ∀ s, c.2[j]? = some s →
    NodeFits kinds s' ∧ (s.stage = kinds.done → s' = s)) ?_ ?_ ?_ hState' s hState |>.2 hDone
  · intro j h t hSome hBefore s hState
    obtain ⟨hFits, hSame⟩ := hBefore s hState
    have stepped : Stepped kinds h t (step (i.stages j) h t) := hStep _ _ _ hFits
    refine ⟨stepped.nodeFits, fun hDone => ?_⟩
    have hThis := hSame hDone
    rw [stepped.done ((kinds.phase_eq_done _).mpr (hThis ▸ hDone)), hThis]
  · intro j t t' hBefore hRetried s hState
    obtain ⟨hFits, hSame⟩ := hBefore s hState
    exact ⟨nodeFits_retried hFits hRetried, fun hDone => done_retried hDone (hSame hDone) hRetried⟩
  · intro j t hSome s hState
    cases hSome.symm.trans hState
    exact ⟨top.nodeFits _ (mem_of_getElem? hSome), fun _ => rfl⟩

variable (hActs : ∀ i h s, (kinds.phase s.stage = .polling → EventIsOwn h s) → acts i h s)
include hActs

theorem roundRight_of_topOfRound (top : TopOfRound kinds c) (i : RoundInput ι) :
    RoundRight kinds acts step
      (fun i h => startRetry kinds.retryWait kinds.prepare kinds.done (choice i h) h) c i := by
  obtain ⟨inRound, hVisits⟩ := inRound_roundBeforePoll hStep i top
  refine ⟨?_, everyVisit_acts hActs _ _ _ hVisits, fun j s s' => done_round hStep top i⟩
  have hLength : (roundBeforePoll step i c).2.length = c.2.length := length_statesLoop _ _ _ _ _
  rw [← hLength]
  exact inRound.numWaiters_le

theorem accounted_of_stepped
    (choice : RetryInput → RWfileStatesHelper → RWfileState σ δ → RetryChoice)
    (top : TopOfRound kinds c) (is : List (RoundInput ι)) :
    Accounted kinds acts step
      (fun i h => startRetry kinds.retryWait kinds.prepare kinds.done (choice i h) h) c is := by
  have hAlways : EveryStep (round step fun i h =>
      startRetry kinds.retryWait kinds.prepare kinds.done (choice i h) h) (fun _ _ => True) c is :=
    everyStep_of_forall _ fun _ _ _ => trivial
  have hLength : (after (round step fun i h =>
      startRetry kinds.retryWait kinds.prepare kinds.done (choice i h) h) c is).2.length =
      c.2.length :=
    after_invariant _ (I := fun c' => c'.2.length = c.2.length)
      (fun _ _ hSame _ => (length_round _ _ _ _ _ _ _).trans hSame) rfl hAlways
  refine ⟨?_, ?_, ?_⟩
  · exact throughout_of_invariant _ (fun _ => TopOfRound.countersRight)
      (fun _ i hTop _ => topOfRound_round hStep hTop i) top hAlways
  · exact everyStep_imp _ (fun _ i hTop _ => topOfRound_round hStep hTop i)
      (fun _ i hTop _ => roundRight_of_topOfRound hStep hActs hTop i) top hAlways
  · intro hDone
    have hTop := after_invariant _ (I := TopOfRound kinds)
      (fun _ i hTop _ => topOfRound_round hStep hTop i) top hAlways
    exact hTop.finished (hDone.trans hLength.symm)

end Rounds

end Runs

end Fhgfs.Client
