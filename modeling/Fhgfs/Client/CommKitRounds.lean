import Fhgfs.Client.CommKitCommon

/-!
# The rounds of a communication

What a round does to one of the states: it takes a step of its own, and a retry may then put it
back to the preparation or end it (`round_keeps`).
-/

namespace Fhgfs.Client

open List

/-! ## A preparation -/

section Prepare

variable {σ δ : Type}

theorem prepare_spec (i : PrepareInput) (h : RWfileStatesHelper) (s : RWfileState σ δ) :
    (prepare i h s).2.2.stage = s.stage ∧ (prepare i h s).2.2.data = s.data ∧
      (prepare i h s).2.2.offset = s.offset ∧ (prepare i h s).2.2.own = s.own ∧
      (prepare i h s).2.2.nodeResult < 0 := by
  have hComm : -FhgfsOpsErr.COMMUNICATION.code < 0 := by decide
  have hTarget : -FhgfsOpsErr.UNKNOWNTARGET.code < 0 := by decide
  have hNode : -FhgfsOpsErr.UNKNOWNNODE.code < 0 := by decide
  unfold prepare RWfileStatesHelper.releaseNode
  dsimp only
  split_ifs
  · exact ⟨rfl, rfl, rfl, rfl, hTarget⟩
  · exact ⟨rfl, rfl, rfl, rfl, hComm⟩
  · exact ⟨rfl, rfl, rfl, rfl, hTarget⟩
  · exact ⟨rfl, rfl, rfl, rfl, hNode⟩
  · exact ⟨rfl, rfl, rfl, rfl, hComm⟩
  · exact ⟨rfl, rfl, rfl, rfl, hComm⟩
  · exact ⟨rfl, rfl, rfl, rfl, hComm⟩

end Prepare

/-! ## A retry -/

section Retry

variable {σ δ : Type}

/-- What a retry does to a state: nothing, or a state that waits is prepared again or is done. -/
inductive Retried (retryWait prepare done : σ) (s : RWfileState σ δ) : RWfileState σ δ → Prop
  | same : Retried retryWait prepare done s s
  | prepared (useBuddyMirrorSecond : Bool) : s.stage = retryWait → Retried retryWait prepare done s
      { s with useBuddyMirrorSecond := useBuddyMirrorSecond, stage := prepare }
  | cancelled (useBuddyMirrorSecond : Bool) : s.stage = retryWait ∨ s.stage = prepare →
      Retried retryWait prepare done s
        { s with useBuddyMirrorSecond := useBuddyMirrorSecond, stage := done }

variable [DecidableEq σ] {retryWait prepare done : σ}

theorem retried_retryLoop (choice : RWfileState σ δ → RetryChoice)
    (states : List (RWfileState σ δ)) (resetRetries : Bool) :
    Forall₂ (Retried retryWait prepare done) states
      (retryLoop retryWait prepare choice states resetRetries).2.2 := by
  induction states generalizing resetRetries with
  | nil => exact .nil
  | cons s states ih =>
    unfold retryLoop
    split
    · rename_i hWait
      split
      · exact forall₂_same.mpr fun _ _ => .same
      all_goals exact .cons (.prepared _ hWait) (ih _)
    · exact .cons .same (ih _)

theorem retried_cancelLoop (states : List (RWfileState σ δ)) (numDone : Nat) :
    Forall₂ (Retried retryWait prepare done) states
      (cancelLoop retryWait prepare done states numDone).2 := by
  induction states generalizing numDone with
  | nil => exact .nil
  | cons s states ih =>
    unfold cancelLoop
    split
    · exact .cons .same (ih _)
    · rename_i hWait
      refine .cons (.cancelled _ ?_) (ih _)
      by_contra hOther
      exact hWait (not_or.mp hOther)

theorem retried_startRetry (retryWait prepare done : σ) (choice : RWfileState σ δ → RetryChoice)
    (h : RWfileStatesHelper) (states : List (RWfileState σ δ)) :
    ∃ retried, Forall₂ (Retried retryWait prepare done) states retried ∧
      Forall₂ (Retried retryWait prepare done) retried
        (startRetry retryWait prepare done choice h states).2 := by
  refine ⟨(retryLoop retryWait prepare choice states false).2.2, retried_retryLoop _ _ _, ?_⟩
  have hSame : Forall₂ (Retried retryWait prepare done)
      (retryLoop retryWait prepare choice states false).2.2
      (retryLoop retryWait prepare choice states false).2.2 :=
    forall₂_same.mpr fun _ _ => .same
  unfold startRetry
  dsimp only
  split_ifs
  · exact retried_cancelLoop _ _
  · exact hSame
  · exact hSame

omit [DecidableEq σ] in
theorem forall_of_retried {P : RWfileState σ δ → Prop}
    (hKeeps : ∀ s s', P s → Retried retryWait prepare done s s' → P s')
    {states states' : List (RWfileState σ δ)}
    (hRetried : Forall₂ (Retried retryWait prepare done) states states')
    (hAll : ∀ s ∈ states, P s) : ∀ s ∈ states', P s := by
  induction hRetried with
  | nil => exact hAll
  | cons hHere _ ih =>
    rw [forall_mem_cons] at hAll ⊢
    exact ⟨hKeeps _ _ hAll.1 hHere, ih hAll.2⟩

/-! ### Counting -/

theorem countP_retryLoop (hWait : retryWait ≠ done) (hPrepare : prepare ≠ done)
    (choice : RWfileState σ δ → RetryChoice) (states : List (RWfileState σ δ))
    (resetRetries : Bool) :
    (retryLoop retryWait prepare choice states resetRetries).2.2.countP (·.stage = done) =
      states.countP (·.stage = done) := by
  induction states generalizing resetRetries with
  | nil => rfl
  | cons s states ih =>
    unfold retryLoop
    split
    · rename_i hStage
      split
      · rfl
      all_goals
        rw [countP_cons_of_neg, countP_cons_of_neg, ih]
        · rwa [hStage, decide_eq_true_eq]
        · rwa [decide_eq_true_eq]
    · rw [countP_cons, countP_cons, ih]

theorem retryLoop_complete (hNe : prepare ≠ retryWait) (choice : RWfileState σ δ → RetryChoice)
    {states : List (RWfileState σ δ)} {resetRetries : Bool}
    (hNotCancelled : (retryLoop retryWait prepare choice states resetRetries).1 = false) :
    ∀ s ∈ (retryLoop retryWait prepare choice states resetRetries).2.2, s.stage ≠ retryWait := by
  induction states generalizing resetRetries with
  | nil => exact fun _ hIn => absurd hIn not_mem_nil
  | cons s states ih =>
    unfold retryLoop at hNotCancelled ⊢
    split at hNotCancelled
    · rename_i hStage
      rw [if_pos hStage]
      split at hNotCancelled
      · cases hNotCancelled
      all_goals
        rw [forall_mem_cons]
        exact ⟨hNe, ih hNotCancelled⟩
    · rename_i hStage
      rw [if_neg hStage]
      rw [forall_mem_cons]
      exact ⟨hStage, ih hNotCancelled⟩

theorem countP_cancelLoop (hWait : retryWait ≠ done) (hPrepare : prepare ≠ done)
    (states : List (RWfileState σ δ)) (numDone : Nat) :
    (cancelLoop retryWait prepare done states numDone).2.countP (·.stage = done) + numDone =
      states.countP (·.stage = done) + (cancelLoop retryWait prepare done states numDone).1 := by
  induction states generalizing numDone with
  | nil => rfl
  | cons s states ih =>
    unfold cancelLoop
    split
    · have hRest := ih numDone
      rw [countP_cons, countP_cons]
      dsimp only
      omega
    rename_i hStage
    have hRest := ih (numDone + 1)
    have hNotDone : s.stage ≠ done := by
      rintro hDone
      rw [hDone] at hStage
      exact hStage ⟨hWait.symm, hPrepare.symm⟩
    rw [countP_cons_of_pos (by simp), countP_cons_of_neg (by simp [hNotDone])]
    dsimp only at hRest ⊢
    omega

theorem cancelLoop_complete (hWait : done ≠ retryWait) (states : List (RWfileState σ δ))
    (numDone : Nat) :
    ∀ s ∈ (cancelLoop retryWait prepare done states numDone).2, s.stage ≠ retryWait := by
  induction states generalizing numDone with
  | nil => exact fun _ hIn => absurd hIn not_mem_nil
  | cons s states ih =>
    unfold cancelLoop
    split
    · rename_i hStage
      rw [forall_mem_cons]
      exact ⟨hStage.1, ih numDone⟩
    · rw [forall_mem_cons]
      exact ⟨hWait, ih (numDone + 1)⟩

theorem startRetry_counters (hNe : prepare ≠ retryWait) (hWait : retryWait ≠ done)
    (hPrepare : prepare ≠ done) (choice : RWfileState σ δ → RetryChoice) {h : RWfileStatesHelper}
    {states : List (RWfileState σ δ)} (hDone : h.numDone = states.countP (·.stage = done)) :
    (startRetry retryWait prepare done choice h states).1.numDone =
        (startRetry retryWait prepare done choice h states).2.countP (·.stage = done) ∧
      (startRetry retryWait prepare done choice h states).1.numRetryWaiters = 0 ∧
      ∀ s ∈ (startRetry retryWait prepare done choice h states).2, s.stage ≠ retryWait := by
  have hRetried := countP_retryLoop hWait hPrepare choice states false
  unfold startRetry
  dsimp only
  split
  · have hCancelled := countP_cancelLoop hWait hPrepare
      (retryLoop retryWait prepare choice states false).2.2 h.numDone
    refine ⟨?_, rfl, cancelLoop_complete hWait.symm _ _⟩
    dsimp only
    omega
  · rename_i hNot
    have hComplete := retryLoop_complete hNe choice (Bool.not_eq_true _ ▸ hNot)
    split
    · exact ⟨hDone.trans hRetried.symm, rfl, hComplete⟩
    · exact ⟨hDone.trans hRetried.symm, rfl, hComplete⟩

theorem startRetry_ledgers (retryWait prepare done : σ) (choice : RWfileState σ δ → RetryChoice)
    (h : RWfileStatesHelper) (states : List (RWfileState σ δ)) :
    (startRetry retryWait prepare done choice h states).1.numAcquiredConns = h.numAcquiredConns ∧
      (startRetry retryWait prepare done choice h states).1.socks = h.socks ∧
      (startRetry retryWait prepare done choice h states).1.nodes = h.nodes := by
  unfold startRetry
  dsimp only
  split
  · exact ⟨rfl, rfl, rfl⟩
  · split <;> exact ⟨rfl, rfl, rfl⟩

end Retry

/-! ## A round -/

section Round

variable {σ δ ι : Type}

section

variable (step : ι → RWfileStatesHelper → RWfileState σ δ → RWfileStatesHelper × RWfileState σ δ)
  (i : Nat → ι) (k : Nat) (h : RWfileStatesHelper) (states : List (RWfileState σ δ))
include h

theorem getElem?_statesLoop (j : Nat) : ∃ h', (statesLoop step i k h states).2[j]? =
      states[j]?.map fun s => (step (i (k + j)) h' s).2 := by
  induction states generalizing k h j with
  | nil => exact ⟨h, rfl⟩
  | cons s states ih =>
    unfold statesLoop
    cases j with
    | zero => exact ⟨h, rfl⟩
    | succ j =>
      obtain ⟨h', hRest⟩ := ih (k + 1) (step (i k) h s).1 j
      refine ⟨h', ?_⟩
      rw [getElem?_cons_succ, getElem?_cons_succ, hRest, add_right_comm, add_assoc]

theorem length_statesLoop : (statesLoop step i k h states).2.length = states.length := by
  induction states generalizing k h with
  | nil => rfl
  | cons s states ih =>
    unfold statesLoop
    rw [length_cons, length_cons, ih]

end

theorem length_round [DecidableEq σ] (step : ι → RWfileStatesHelper → RWfileState σ δ →
      RWfileStatesHelper × RWfileState σ δ) (retryWait prepare done : σ)
    (choice : RetryInput → RWfileStatesHelper → RWfileState σ δ → RetryChoice)
    (c : RWfileStatesHelper × List (RWfileState σ δ)) (i : RoundInput ι) :
    (round step (fun i h => startRetry retryWait prepare done (choice i h) h) c i).2.length =
      c.2.length := by
  have hLoop : (roundBeforePoll step i c).2.length = c.2.length := length_statesLoop _ _ _ _ _
  unfold round
  dsimp only
  split_ifs
  · exact hLoop
  · obtain ⟨retried, hFirst, hSecond⟩ := retried_startRetry retryWait prepare done
      (choice i.retry (roundBeforePoll step i c).1) (roundBeforePoll step i c).1
      (roundBeforePoll step i c).2
    rw [← hSecond.length_eq, ← hFirst.length_eq, hLoop]
  · exact hLoop

theorem round_keeps [DecidableEq σ] {step : ι → RWfileStatesHelper → RWfileState σ δ →
      RWfileStatesHelper × RWfileState σ δ} {retryWait prepare done : σ}
    (choice : RetryInput → RWfileStatesHelper → RWfileState σ δ → RetryChoice)
    {I : Nat → RWfileState σ δ → Prop} {c : RWfileStatesHelper × List (RWfileState σ δ)}
    {i : RoundInput ι}
    (hStep : ∀ j h s, c.2[j]? = some s → I j s → I j (step (i.stages j) h s).2)
    (hRetry : ∀ j s s', I j s → Retried retryWait prepare done s s' → I j s')
    (hStates : ∀ j s, c.2[j]? = some s → I j s) {j : Nat} {s : RWfileState σ δ}
    (hState : (round step (fun i h => startRetry retryWait prepare done (choice i h) h) c i).2[j]? =
      some s) : I j s := by
  have hLoop : ∀ j s, (roundBeforePoll step i c).2[j]? = some s → I j s := by
    intro j s hSome
    obtain ⟨h', hGet⟩ := getElem?_statesLoop step i.stages 0
      { c.1 with numUnconnectable := 0, numPollSocks := 0 } c.2 j
    unfold roundBeforePoll at hSome
    rw [hGet, Option.map_eq_some_iff, zero_add] at hSome
    obtain ⟨before, hBefore, rfl⟩ := hSome
    exact hStep j h' before hBefore (hStates j before hBefore)
  have hForall : ∀ states states', List.Forall₂ (Retried retryWait prepare done) states states' →
      (∀ j s, states[j]? = some s → I j s) → ∀ j s, states'[j]? = some s → I j s := by
    intro states states' hRetried hAll j s hSome
    have hLength := hRetried.length_eq
    obtain ⟨hLt, hGet⟩ := List.getElem?_eq_some_iff.mp hSome
    have hHere := (List.forall₂_iff_get.mp hRetried).2 j (by omega) hLt
    rw [← hGet]
    exact hRetry j _ _ (hAll j _ (List.getElem?_eq_getElem (by omega))) hHere
  unfold round at hState
  dsimp only at hState
  split_ifs at hState
  · exact hLoop j s hState
  · obtain ⟨retried, hFirst, hSecond⟩ := retried_startRetry retryWait prepare done
      (choice i.retry (roundBeforePoll step i c).1) (roundBeforePoll step i c).1
      (roundBeforePoll step i c).2
    exact hForall _ _ hSecond (hForall _ _ hFirst hLoop) j s hState
  · exact hLoop j s hState

end Round

end Fhgfs.Client
