import Fhgfs.Nodes.TargetStateStore

/-!
# The loops over target states

Each loop of the state store by what it leaves at one target (`reachabilityOf_foldl`,
`consistencyOf_foldl`, `reachabilityOf_checkOldStates`) and at one group
(`groupOf_applyStateChanges`, `groupOf_switchIfSecondaryGoods`). The members of different groups
do not interfere, and every switchover promotes a target that is ONLINE and GOOD.
-/

namespace Fhgfs.Nodes

open Option List MirrorBuddyGroupMap
open TargetConsistencyState (GOOD NEEDS_RESYNC)

namespace MgmtdTargetStateStore

/-- The mapper has groups of two members, and each target is in one group at most. -/
def DisjointGroups (s : MgmtdTargetStateStore) : Prop :=
  ∀ buddyGroups, s.buddyGroups = some buddyGroups → buddyGroups.Disjoint

/-- Every switchover so far promoted a target that was ONLINE and GOOD. -/
def PromotedGood (s : MgmtdTargetStateStore) : Prop :=
  ∀ w ∈ s.switchovers, ∃ info, w.promotedState = some info ∧
    info.reachabilityState = .ONLINE ∧ info.consistencyState = GOOD

/-! ## The reports about one target -/

section Reports

variable {α : Type} (report : α → Nat × TargetConsistencyState)

/-- The states that a list reports for a target, in order. -/
def reportsOf (reports : List α) (targetID : Nat) : List TargetConsistencyState :=
  reports.filterMap fun a => if (report a).1 = targetID then some (report a).2 else none

@[simp] theorem reportsOf_nil (t : Nat) : reportsOf report [] t = [] := rfl

theorem reportsOf_cons (a : α) (l : List α) (t : Nat) : reportsOf report (a :: l) t =
    if (report a).1 = t then (report a).2 :: reportsOf report l t else reportsOf report l t := by
  unfold reportsOf
  rw [filterMap_cons]
  split_ifs <;> rfl

variable {f : MgmtdTargetStateStore → α → MgmtdTargetStateStore}

theorem reachabilityOf_foldl {g : Option TargetReachabilityState → TargetReachabilityState}
    (hg : ∀ r, g (some (g r)) = g r)
    (hf : ∀ s a t, (f s a).reachabilityOf t =
      if (report a).1 = t then some (g (s.reachabilityOf t)) else s.reachabilityOf t)
    (l : List α) (s : MgmtdTargetStateStore) (t : Nat) :
    (l.foldl f s).reachabilityOf t =
      if reportsOf report l t = [] then s.reachabilityOf t
      else some (g (s.reachabilityOf t)) := by
  induction l generalizing s with
  | nil => rfl
  | cons a l ih =>
    rw [foldl_cons, ih, hf, reportsOf_cons]
    by_cases hHere : (report a).1 = t
    · simp [hHere, hg]
    · simp [hHere]

theorem consistencyOf_foldl (hf : ∀ s a t, (f s a).consistencyOf t =
      if (report a).1 = t then some (report a).2 else s.consistencyOf t)
    (l : List α) (s : MgmtdTargetStateStore) (t : Nat) :
    (l.foldl f s).consistencyOf t = (reportsOf report l t).getLast?.or (s.consistencyOf t) := by
  induction l generalizing s with
  | nil => rfl
  | cons a l ih =>
    rw [foldl_cons, ih, hf, reportsOf_cons]
    by_cases hHere : (report a).1 = t
    · rw [if_pos hHere, if_pos hHere, getLast?_cons]
      cases (reportsOf report l t).getLast? <;> rfl
    · rw [if_neg hHere, if_neg hHere]

end Reports

/-! ## Set reported states -/

section SetStates

variable (setOnline : Bool) (now : Time) (s : MgmtdTargetStateStore)

section

variable (r : Nat × TargetConsistencyState) (t : Nat)

theorem reachabilityOf_applyStateReport : (applyStateReport setOnline now s r).reachabilityOf t =
      if r.1 = t then
        some (if setOnline then .ONLINE else (s.reachabilityOf t).getD .OFFLINE)
      else s.reachabilityOf t := by
  unfold applyStateReport
  rw [reachabilityOf_changeState, stateOf_reachabilityState]
  by_cases hHere : r.1 = t
  · rw [hHere]
  · rw [if_neg hHere, if_neg hHere]

end

variable (reports : List (Nat × TargetConsistencyState))

theorem applyStateReports_groups :
    (reports.foldl (applyStateReport setOnline now) s).buddyGroups = s.buddyGroups ∧
      (reports.foldl (applyStateReport setOnline now) s).switchovers = s.switchovers := by
  induction reports generalizing s with
  | nil => exact ⟨rfl, rfl⟩
  | cons r reports ih =>
    rw [foldl_cons, (ih _).1, (ih _).2]
    exact ⟨changeState_buddyGroups s r.1 _ _, changeState_switchovers s r.1 _ _⟩

theorem reachabilityOf_applyStateReports (t : Nat) :
    (reports.foldl (applyStateReport setOnline now) s).reachabilityOf t =
      if reportsOf id reports t = [] then s.reachabilityOf t
      else some (if setOnline then .ONLINE else (s.reachabilityOf t).getD .OFFLINE) := by
  refine reachabilityOf_foldl id (g := fun r =>
    if setOnline then .ONLINE else r.getD .OFFLINE) ?_ ?_ reports s t
  · intro r
    cases setOnline <;> rfl
  · intro s r t
    exact reachabilityOf_applyStateReport setOnline now s r t

theorem consistencyOf_applyStateReports (t : Nat) :
    (reports.foldl (applyStateReport setOnline now) s).consistencyOf t =
      (reportsOf id reports t).getLast?.or (s.consistencyOf t) :=
  consistencyOf_foldl id (fun s r => consistencyOf_changeState s r.1 _ _) reports s t

end SetStates

/-! ## Switchovers -/

section Switch

variable {s : MgmtdTargetStateStore}

theorem DisjointGroups.switchover (h : s.DisjointGroups) (gid : Nat) :
    (s.switchover gid).DisjointGroups := by
  intro buddyGroups' hGroups
  unfold MgmtdTargetStateStore.switchover at hGroups
  split at hGroups
  · exact h buddyGroups' hGroups
  · rename_i buddyGroups hSome
    obtain rfl : buddyGroups.switchover gid = buddyGroups' := some.inj hGroups
    exact (h buddyGroups hSome).switchover gid

theorem DisjointGroups.congr {s' : MgmtdTargetStateStore} (h : s.DisjointGroups)
    (hGroups : s'.buddyGroups = s.buddyGroups) : s'.DisjointGroups := by
  intro buddyGroups hSome
  exact h buddyGroups (hGroups.symm.trans hSome)

theorem DisjointGroups.two_members (h : s.DisjointGroups) {gid : Nat} {mbg : MirrorBuddyGroup}
    (hGroup : s.groupOf gid = some mbg) : mbg.firstTargetID ≠ mbg.secondTargetID := by
  obtain ⟨buddyGroups, hSome, hFind⟩ := bind_eq_some_iff.mp hGroup
  exact (h buddyGroups hSome).two_members hFind

theorem DisjointGroups.one_group (h : s.DisjointGroups) {gid gid' t : Nat}
    {mbg mbg' : MirrorBuddyGroup} (hGroup : s.groupOf gid = some mbg)
    (hGroup' : s.groupOf gid' = some mbg') (hMem : mbg.HasMember t) (hMem' : mbg'.HasMember t) :
    gid = gid' := by
  obtain ⟨buddyGroups, hSome, hFind⟩ := bind_eq_some_iff.mp hGroup
  obtain ⟨buddyGroups', hSome', hFind'⟩ := bind_eq_some_iff.mp hGroup'
  obtain rfl : buddyGroups = buddyGroups' := some.inj (hSome.symm.trans hSome')
  exact (h buddyGroups hSome).one_group hFind hFind' hMem hMem'

theorem PromotedGood.congr {s' : MgmtdTargetStateStore} (h : s.PromotedGood)
    (hSwitchovers : s'.switchovers = s.switchovers) : s'.PromotedGood := by
  intro w hw
  rw [hSwitchovers] at hw
  exact h w hw

theorem PromotedGood.switchover (h : s.PromotedGood) {gid : Nat} {mbg : MirrorBuddyGroup}
    (hGroup : s.groupOf gid = some mbg)
    (hOnline : s.reachabilityOf mbg.secondTargetID = some .ONLINE)
    (hGood : s.consistencyOf mbg.secondTargetID = some GOOD) :
    (s.switchover gid).PromotedGood := by
  obtain ⟨buddyGroups, hSome, hFind⟩ := bind_eq_some_iff.mp hGroup
  obtain ⟨info, hInfo, hReach⟩ := map_eq_some_iff.mp hOnline
  have hCons : info.consistencyState = GOOD := by
    simpa [consistencyOf, hInfo] using hGood
  intro w hw
  simp only [MgmtdTargetStateStore.switchover, hSome,
    getSecondaryTargetIDUnlocked, hFind, hInfo, mem_append,
    mem_singleton] at hw
  rcases hw with hOld | rfl
  · exact h w hOld
  · exact ⟨info, rfl, hReach, hCons⟩

theorem DisjointGroups.lookup_cases (h : s.DisjointGroups) {buddyGroups : MirrorBuddyGroupMap}
    (hGroups : s.buddyGroups = some buddyGroups) (targetID : Nat) :
    (∃ gid mbg, s.groupOf gid = some mbg ∧ mbg.HasMember targetID ∧
      (∀ gid' mbg', s.groupOf gid' = some mbg' → mbg'.HasMember targetID →
        gid' = gid ∧ mbg' = mbg) ∧
      buddyGroups.find gid = some mbg ∧
      buddyGroups.getBuddyGroupIDUnlocked targetID = (gid, decide (mbg.firstTargetID = targetID))) ∨
    ((∀ gid mbg, s.groupOf gid = some mbg → ¬ mbg.HasMember targetID) ∧
      buddyGroups.getBuddyGroupIDUnlocked targetID = (0, false)) := by
  have hGroupOf : ∀ gid, s.groupOf gid = buddyGroups.find gid := by
    intro gid
    rw [groupOf, hGroups, bind_some]
  rcases buddyGroups.getBuddyGroupIDUnlocked_cases targetID with
    ⟨gid, mbg, hFind, hMem, hLookup⟩ | ⟨hNone, hLookup⟩
  · refine Or.inl ⟨gid, mbg, (hGroupOf gid).trans hFind, hMem, ?_, hFind, hLookup⟩
    intro gid' mbg' hGroup' hMem'
    obtain rfl := h.one_group hGroup' ((hGroupOf gid).trans hFind) hMem' hMem
    rw [hGroupOf, hFind] at hGroup'
    exact ⟨rfl, (some.inj hGroup').symm⟩
  · refine Or.inr ⟨?_, hLookup⟩
    intro gid mbg hGroup
    exact hNone gid mbg ((hGroupOf gid).symm.trans hGroup)

/-- The switch when `targetID` comes online: of the group whose secondary it is, if the primary
is OFFLINE. Group ID 0 means "unmapped" to the code. -/
theorem switchIfPrimaryOffline_cases (h : s.DisjointGroups) (targetID : Nat) :
    (∃ gid mbg, s.groupOf gid = some mbg ∧ mbg.secondTargetID = targetID ∧ gid ≠ 0 ∧
      s.reachabilityOf mbg.firstTargetID = some .OFFLINE ∧
      s.switchIfPrimaryOffline targetID = s.switchover gid) ∨
    ((∀ gid mbg, s.groupOf gid = some mbg → mbg.secondTargetID = targetID → gid ≠ 0 →
      s.reachabilityOf mbg.firstTargetID ≠ some .OFFLINE) ∧
      s.switchIfPrimaryOffline targetID = s) := by
  cases hGroups : s.buddyGroups with
  | none => simp [switchIfPrimaryOffline, groupOf, hGroups]
  | some buddyGroups =>
    rcases h.lookup_cases hGroups targetID with
      ⟨gid, mbg, hGroup, hMem, hOnly, hFind, hLookup⟩ | ⟨hNone, hLookup⟩
    · have hStay (hNot : mbg.secondTargetID = targetID → gid ≠ 0 →
          s.reachabilityOf mbg.firstTargetID ≠ some .OFFLINE) :
          ∀ gid' mbg', s.groupOf gid' = some mbg' → mbg'.secondTargetID = targetID →
            gid' ≠ 0 → s.reachabilityOf mbg'.firstTargetID ≠ some .OFFLINE := by
        intro gid' mbg' hGroup' hSecond
        obtain ⟨rfl, rfl⟩ := hOnly gid' mbg' hGroup' (Or.inr hSecond)
        exact hNot hSecond
      simp only [switchIfPrimaryOffline, hGroups, hLookup, decide_eq_true_eq,
        getPrimaryTargetIDUnlocked, hFind]
      split_ifs with hSkip
      · refine Or.inr ⟨hStay fun hSecond hZero => ?_, rfl⟩
        rcases hSkip with hFirst | hSkip
        · exact absurd (hFirst.trans hSecond.symm) (h.two_members hGroup)
        · exact absurd hSkip hZero
      push Not at hSkip
      cases hState : s.statesMap.find mbg.firstTargetID with
      | none =>
        refine Or.inr ⟨hStay fun _ _ => ?_, rfl⟩
        simp [reachabilityOf, hState]
      | some info =>
        have hReach : s.reachabilityOf mbg.firstTargetID = some info.reachabilityState := by
          simp [reachabilityOf, hState]
        by_cases hOffline : info.reachabilityState = .OFFLINE
        · refine Or.inl ⟨gid, mbg, hGroup, hMem.resolve_left hSkip.1, hSkip.2, ?_,
            if_pos hOffline⟩
          rw [hReach, hOffline]
        · refine Or.inr ⟨hStay fun _ _ => ?_, if_neg hOffline⟩
          rw [hReach]
          exact fun hSame => hOffline (some.inj hSame)
    · refine Or.inr ⟨?_, ?_⟩
      · intro gid mbg hGroup hSecond
        exact absurd (Or.inr hSecond) (hNone gid mbg hGroup)
      · simp [switchIfPrimaryOffline, hGroups, hLookup]

/-- The switch when `targetID` went OFFLINE: of the group whose primary it is, if the secondary
is ONLINE and GOOD. -/
theorem switchIfSecondaryGood_cases (h : s.DisjointGroups) (targetID : Nat) :
    (∃ gid mbg, s.groupOf gid = some mbg ∧ mbg.firstTargetID = targetID ∧
      s.reachabilityOf mbg.secondTargetID = some .ONLINE ∧
      s.consistencyOf mbg.secondTargetID = some GOOD ∧
      s.switchIfSecondaryGood targetID = s.switchover gid) ∨
    ((∀ gid mbg, s.groupOf gid = some mbg → mbg.firstTargetID = targetID →
      ¬ (s.reachabilityOf mbg.secondTargetID = some .ONLINE ∧
        s.consistencyOf mbg.secondTargetID = some GOOD)) ∧
      s.switchIfSecondaryGood targetID = s) := by
  cases hGroups : s.buddyGroups with
  | none => simp [switchIfSecondaryGood, groupOf, hGroups]
  | some buddyGroups =>
    rcases h.lookup_cases hGroups targetID with
      ⟨gid, mbg, hGroup, hMem, hOnly, hFind, hLookup⟩ | ⟨hNone, hLookup⟩
    · have hStay (hNot : mbg.firstTargetID = targetID →
          ¬ (s.reachabilityOf mbg.secondTargetID = some .ONLINE ∧
            s.consistencyOf mbg.secondTargetID = some GOOD)) :
          ∀ gid' mbg', s.groupOf gid' = some mbg' → mbg'.firstTargetID = targetID →
            ¬ (s.reachabilityOf mbg'.secondTargetID = some .ONLINE ∧
              s.consistencyOf mbg'.secondTargetID = some GOOD) := by
        intro gid' mbg' hGroup' hFirst
        obtain ⟨rfl, rfl⟩ := hOnly gid' mbg' hGroup' (Or.inl hFirst)
        exact hNot hFirst
      simp only [switchIfSecondaryGood, hGroups, hLookup, decide_eq_false_iff_not,
        getSecondaryTargetIDUnlocked, hFind]
      split_ifs with hFirst
      · cases hState : s.statesMap.find mbg.secondTargetID with
        | none =>
          refine Or.inr ⟨hStay fun _ hGood => ?_, rfl⟩
          simp [reachabilityOf, hState] at hGood
        | some info =>
          have hReach : s.reachabilityOf mbg.secondTargetID = some info.reachabilityState := by
            simp [reachabilityOf, hState]
          have hCons : s.consistencyOf mbg.secondTargetID = some info.consistencyState := by
            simp [consistencyOf, hState]
          by_cases hBad : info.reachabilityState ≠ .ONLINE ∨ info.consistencyState ≠ GOOD
          · refine Or.inr ⟨hStay fun _ hGood => ?_, if_pos hBad⟩
            rw [hReach, hCons, some.injEq, some.injEq] at hGood
            exact hBad.elim (· hGood.1) (· hGood.2)
          · push Not at hBad
            refine Or.inl ⟨gid, mbg, hGroup, hFirst, ?_, ?_, if_neg (by simp [hBad])⟩
            · rw [hReach, hBad.1]
            · rw [hCons, hBad.2]
      · exact Or.inr ⟨hStay fun hPrimary => absurd hPrimary hFirst, rfl⟩
    · refine Or.inr ⟨?_, ?_⟩
      · intro gid mbg hGroup hFirst
        exact absurd (Or.inl hFirst) (hNone gid mbg hGroup)
      · simp [switchIfSecondaryGood, hGroups, hLookup]

end Switch

/-! ## Change checked states -/

section CheckStates

variable (now : Time) (s : MgmtdTargetStateStore)

/-- The consistency that the check compares with the old state. -/
def checkedConsistency (targetID : Nat) : TargetConsistencyState :=
  (s.consistencyOf targetID).getD GOOD

/-- The targets whose states the first loop reads: all up to the first mismatch. -/
def checkedIDs (consistency : Nat → TargetConsistencyState) : List StateChange → List Nat
  | [] => []
  | change :: changes =>
    change.targetID ::
      (if consistency change.targetID = change.oldState then checkedIDs consistency changes
      else [])

def OldStatesMatch (consistency : Nat → TargetConsistencyState) (changes : List StateChange) :
    Prop :=
  ∀ change ∈ changes, consistency change.targetID = change.oldState

instance (consistency : Nat → TargetConsistencyState) (changes : List StateChange) :
    Decidable (OldStatesMatch consistency changes) :=
  inferInstanceAs (Decidable (∀ change ∈ changes, _))

theorem checkedIDs_of_match {consistency : Nat → TargetConsistencyState}
    {changes : List StateChange} (h : OldStatesMatch consistency changes) :
    checkedIDs consistency changes = changes.map StateChange.targetID := by
  induction changes with
  | nil => rfl
  | cons change changes ih =>
    obtain ⟨hHere, hRest⟩ := forall_mem_cons.mp h
    rw [checkedIDs, if_pos hHere, ih hRest, map_cons]

/-- The entry that `statesMap[targetID]` creates. -/
def createdState : TargetStateInfo := ⟨.OFFLINE, GOOD, now⟩

theorem find_read (t u : Nat) :
    (s.storeState t (s.stateOf now t)).statesMap.find u =
      (s.statesMap.find u).or (if u = t then some (createdState now) else none) := by
  unfold storeState
  rw [OrderedMap.find_put]
  split_ifs with hHere
  · rw [hHere, stateOf]
    cases s.statesMap.find t <;> rfl
  · rw [or_none]

theorem consistencyOf_read (t u : Nat) :
    (s.storeState t (s.stateOf now t)).consistencyOf u =
      (s.consistencyOf u).or (if u = t then some GOOD else none) := by
  unfold consistencyOf
  rw [find_read, map_or]
  split_ifs <;> rfl

theorem checkedConsistency_read (t : Nat) :
    (s.storeState t (s.stateOf now t)).checkedConsistency = s.checkedConsistency := by
  ext1 u
  unfold checkedConsistency
  rw [consistencyOf_read]
  cases s.consistencyOf u with
  | none => split_ifs <;> rfl
  | some c => rfl

variable (changes : List StateChange)

theorem checkOldStates_fst :
    (checkOldStates now changes s).1 =
      if OldStatesMatch s.checkedConsistency changes then .SUCCESS else .AGAIN := by
  induction changes generalizing s with
  | nil => simp [checkOldStates, OldStatesMatch]
  | cons change changes ih =>
    have hSplit : OldStatesMatch s.checkedConsistency (change :: changes) ↔
        s.checkedConsistency change.targetID = change.oldState ∧
          OldStatesMatch s.checkedConsistency changes := forall_mem_cons
    unfold checkOldStates
    dsimp only
    rw [stateOf_consistencyState, ← checkedConsistency]
    by_cases hHere : s.checkedConsistency change.targetID = change.oldState
    · rw [if_pos hHere, ih, checkedConsistency_read]
      simp only [hSplit, hHere, true_and]
    · rw [if_neg hHere, if_neg fun h => hHere (hSplit.mp h).1]

theorem changeConsistencyStatesFromLists_snd (targetIDs : List Nat)
    (oldStates newStates : List TargetConsistencyState) :
    (s.changeConsistencyStatesFromLists targetIDs oldStates newStates now).2 =
      if OldStatesMatch s.checkedConsistency (stateChanges targetIDs oldStates newStates) then
        (stateChanges targetIDs oldStates newStates).foldl (applyStateChange now)
          (checkOldStates now (stateChanges targetIDs oldStates newStates) s).2
      else (checkOldStates now (stateChanges targetIDs oldStates newStates) s).2 := by
  unfold changeConsistencyStatesFromLists
  have hResult := checkOldStates_fst now s (stateChanges targetIDs oldStates newStates)
  rcases hCheck : checkOldStates now (stateChanges targetIDs oldStates newStates) s with
    ⟨res, checked⟩
  rw [hCheck] at hResult
  split_ifs at hResult ⊢ with hMatch
  · obtain rfl : res = .SUCCESS := hResult
    simp only [hCheck]
  · obtain rfl : res = .AGAIN := hResult
    simp only [hCheck]

theorem checkOldStates_groups :
    (checkOldStates now changes s).2.buddyGroups = s.buddyGroups ∧
      (checkOldStates now changes s).2.switchovers = s.switchovers := by
  induction changes generalizing s with
  | nil => exact ⟨rfl, rfl⟩
  | cons change changes ih =>
    unfold checkOldStates
    dsimp only
    split_ifs
    · exact ih _
    · exact ⟨rfl, rfl⟩

private theorem or_read {α : Type} (o : Option α) (x : α) (P Q : Prop) [Decidable P] [Decidable Q] :
    (o.or (if P then some x else none)).or (if Q then some x else none) =
      o.or (if P ∨ Q then some x else none) := by
  cases o <;> by_cases hP : P <;> by_cases hQ : Q <;> simp [hP, hQ]

theorem find_checkOldStates (u : Nat) :
    (checkOldStates now changes s).2.statesMap.find u = (s.statesMap.find u).or
      (if u ∈ checkedIDs s.checkedConsistency changes then some (createdState now) else none) := by
  induction changes generalizing s with
  | nil => simp [checkOldStates, checkedIDs]
  | cons change changes ih =>
    unfold checkOldStates checkedIDs
    dsimp only
    rw [stateOf_consistencyState, ← checkedConsistency]
    by_cases hHere : s.checkedConsistency change.targetID = change.oldState
    · rw [if_pos hHere, if_pos hHere, ih, checkedConsistency_read, find_read, or_read]
      simp only [mem_cons]
    · rw [if_neg hHere, if_neg hHere, find_read]
      simp only [mem_cons, not_mem_nil, or_false]

theorem reachabilityOf_checkOldStates (u : Nat) :
    (checkOldStates now changes s).2.reachabilityOf u = (s.reachabilityOf u).or
      (if u ∈ checkedIDs s.checkedConsistency changes then some .OFFLINE else none) := by
  unfold reachabilityOf
  rw [find_checkOldStates, map_or]
  split_ifs <;> rfl

theorem consistencyOf_checkOldStates (u : Nat) :
    (checkOldStates now changes s).2.consistencyOf u = (s.consistencyOf u).or
      (if u ∈ checkedIDs s.checkedConsistency changes then some GOOD else none) := by
  unfold consistencyOf
  rw [find_checkOldStates, map_or]
  split_ifs <;> rfl

end CheckStates

section ChangeStates

variable (now : Time)

def StateChange.report (change : StateChange) : Nat × TargetConsistencyState :=
  (change.targetID, change.newState)

theorem switchIfPrimaryOffline_statesMap (t : Nat) (s : MgmtdTargetStateStore) :
    (s.switchIfPrimaryOffline t).statesMap = s.statesMap := by
  unfold switchIfPrimaryOffline
  split
  · rfl
  dsimp only
  split_ifs
  · rfl
  · split
    · rfl
    · split_ifs
      · exact statesMap_switchover s _
      · rfl

section

variable (s : MgmtdTargetStateStore) (change : StateChange)

theorem applyStateChange_statesMap : (applyStateChange now s change).statesMap =
      s.statesMap.put change.targetID ⟨.ONLINE, change.newState, now⟩ := by
  unfold applyStateChange
  dsimp only
  split_ifs
  · rw [switchIfPrimaryOffline_statesMap, changeState_statesMap]
  · exact changeState_statesMap s _ _ _

theorem reachabilityOf_applyStateChange
    (t : Nat) : (applyStateChange now s change).reachabilityOf t =
      if change.targetID = t then some .ONLINE else s.reachabilityOf t := by
  rw [← reachabilityOf_changeState s change.targetID ⟨.ONLINE, GOOD, now⟩
    ⟨.ONLINE, change.newState, now⟩ t]
  unfold reachabilityOf
  rw [applyStateChange_statesMap, changeState_statesMap]

theorem consistencyOf_applyStateChange (t : Nat) : (applyStateChange now s change).consistencyOf t =
      if change.targetID = t then some change.newState else s.consistencyOf t := by
  rw [← consistencyOf_changeState s change.targetID ⟨.ONLINE, GOOD, now⟩
    ⟨.ONLINE, change.newState, now⟩ t]
  unfold consistencyOf
  rw [applyStateChange_statesMap, changeState_statesMap]

end

section

variable (changes : List StateChange) (s : MgmtdTargetStateStore) (t : Nat)

theorem reachabilityOf_applyStateChanges :
    (changes.foldl (applyStateChange now) s).reachabilityOf t =
      if reportsOf StateChange.report changes t = [] then s.reachabilityOf t
      else some .ONLINE :=
  reachabilityOf_foldl _ (g := fun _ => .ONLINE) (fun _ => rfl)
    (reachabilityOf_applyStateChange now) changes s t

theorem consistencyOf_applyStateChanges : (changes.foldl (applyStateChange now) s).consistencyOf t =
      (reportsOf StateChange.report changes t).getLast?.or (s.consistencyOf t) :=
  consistencyOf_foldl _ (consistencyOf_applyStateChange now) changes s t

end

variable {s : MgmtdTargetStateStore}

section

variable (h : s.DisjointGroups)
include h

/-- What one change does to the groups: nothing, or the switchover of the one group whose
secondary comes online GOOD while the primary is OFFLINE. -/
theorem applyStateChange_cases (change : StateChange) :
    (∃ gid mbg, s.groupOf gid = some mbg ∧ mbg.secondTargetID = change.targetID ∧ gid ≠ 0 ∧
      s.reachabilityOf mbg.firstTargetID = some .OFFLINE ∧
      s.reachabilityOf change.targetID ≠ some .ONLINE ∧ change.newState = GOOD ∧
      ∃ updated : MgmtdTargetStateStore, updated.buddyGroups = s.buddyGroups ∧
        updated.switchovers = s.switchovers ∧
        updated.reachabilityOf change.targetID = some .ONLINE ∧
        updated.consistencyOf change.targetID = some GOOD ∧
        applyStateChange now s change = updated.switchover gid) ∨
    ((∀ gid mbg, s.groupOf gid = some mbg → mbg.secondTargetID = change.targetID → gid ≠ 0 →
      s.reachabilityOf mbg.firstTargetID = some .OFFLINE →
      s.reachabilityOf change.targetID ≠ some .ONLINE → change.newState ≠ GOOD) ∧
      (applyStateChange now s change).buddyGroups = s.buddyGroups ∧
      (applyStateChange now s change).switchovers = s.switchovers) := by
  have hComing : (s.stateOf now change.targetID).reachabilityState ≠ .ONLINE ↔
      s.reachabilityOf change.targetID ≠ some .ONLINE := by
    rw [stateOf_reachabilityState]
    cases s.reachabilityOf change.targetID <;> simp
  generalize hUpdated : s.changeState change.targetID (s.stateOf now change.targetID)
    ⟨.ONLINE, change.newState, now⟩ = updated
  have hGroups : updated.buddyGroups = s.buddyGroups := by
    rw [← hUpdated, changeState_buddyGroups]
  have hSwitchovers : updated.switchovers = s.switchovers := by
    rw [← hUpdated, changeState_switchovers]
  have hGroupOf : ∀ gid, updated.groupOf gid = s.groupOf gid := by
    intro gid
    rw [groupOf, groupOf, hGroups]
  have hFirst : ∀ gid mbg, s.groupOf gid = some mbg →
      mbg.secondTargetID = change.targetID →
      updated.reachabilityOf mbg.firstTargetID = s.reachabilityOf mbg.firstTargetID := by
    intro gid mbg hGroup hSecond
    rw [← hUpdated, reachabilityOf_changeState, if_neg]
    exact fun hSame => h.two_members hGroup (hSame.symm.trans hSecond.symm)
  unfold applyStateChange
  simp only [hUpdated]
  split_ifs with hSwitch
  · rcases switchIfPrimaryOffline_cases (h.congr hGroups) change.targetID with
      ⟨gid, mbg, hGroup, hSecond, hZero, hOffline, hEq⟩ | ⟨hNone, hEq⟩
    · rw [hGroupOf] at hGroup
      refine Or.inl ⟨gid, mbg, hGroup, hSecond, hZero, ?_, hComing.mp hSwitch.1, hSwitch.2,
        updated, hGroups, hSwitchovers, ?_, ?_, hEq⟩
      · rw [← hFirst gid mbg hGroup hSecond, hOffline]
      · rw [← hUpdated, reachabilityOf_changeState, if_pos rfl]
      · rw [← hUpdated, consistencyOf_changeState, if_pos rfl, hSwitch.2]
    · refine Or.inr ⟨?_, ?_⟩
      · intro gid mbg hGroup hSecond hZero hOffline
        refine absurd ?_ (hNone gid mbg ((hGroupOf gid).trans hGroup) hSecond hZero)
        rw [hFirst gid mbg hGroup hSecond, hOffline]
      · rw [hEq]
        exact ⟨hGroups, hSwitchovers⟩
  · refine Or.inr ⟨?_, hGroups, hSwitchovers⟩
    intro gid mbg _ _ _ _ hNotOnline hGood
    exact hSwitch ⟨hComing.mpr hNotOnline, hGood⟩

theorem applyStateChange_disjoint (change : StateChange) :
    (applyStateChange now s change).DisjointGroups := by
  rcases applyStateChange_cases now h change with
    ⟨gid, _, _, _, _, _, _, _, updated, hGroups, _, _, _, hEq⟩ | ⟨_, hGroups, _⟩
  · rw [hEq]
    exact (h.congr hGroups).switchover gid
  · exact h.congr hGroups

theorem applyStateChange_promotedGood (hPromoted : s.PromotedGood)
    (change : StateChange) : (applyStateChange now s change).PromotedGood := by
  rcases applyStateChange_cases now h change with
    ⟨gid, mbg, hGroup, hSecond, _, _, _, _, updated, hGroups, hSwitchovers, hOnline, hGood,
      hEq⟩ | ⟨_, _, hSwitchovers⟩
  · rw [hEq]
    have hUpdated : updated.groupOf gid = some mbg := by
      rw [groupOf, hGroups]
      exact hGroup
    refine (hPromoted.congr hSwitchovers).switchover hUpdated ?_ ?_
    · rw [hSecond, hOnline]
    · rw [hSecond, hGood]
  · exact hPromoted.congr hSwitchovers

theorem applyStateChanges_disjoint (changes : List StateChange) :
    (changes.foldl (applyStateChange now) s).DisjointGroups := by
  induction changes generalizing s with
  | nil => exact h
  | cons change changes ih => exact ih (applyStateChange_disjoint now h change)

theorem applyStateChanges_promotedGood (hPromoted : s.PromotedGood)
    (changes : List StateChange) : (changes.foldl (applyStateChange now) s).PromotedGood := by
  induction changes generalizing s with
  | nil => exact hPromoted
  | cons change changes ih =>
    exact ih (applyStateChange_disjoint now h change)
      (applyStateChange_promotedGood now h hPromoted change)

end

/-- The secondary comes online GOOD while the primary is OFFLINE. -/
def ComesOnlineGood (s : MgmtdTargetStateStore) (gid : Nat) (mbg : MirrorBuddyGroup)
    (reported : Option TargetConsistencyState) : Prop :=
  reported = some GOOD ∧ s.reachabilityOf mbg.secondTargetID ≠ some .ONLINE ∧ gid ≠ 0 ∧
    s.reachabilityOf mbg.firstTargetID = some .OFFLINE

instance (s : MgmtdTargetStateStore) (gid : Nat) (mbg : MirrorBuddyGroup)
    (reported : Option TargetConsistencyState) :
    Decidable (s.ComesOnlineGood gid mbg reported) :=
  inferInstanceAs (Decidable (_ ∧ _))

variable {mbg : MirrorBuddyGroup} {gid : Nat}

theorem groupOf_applyStateChange (h : s.DisjointGroups) (change : StateChange)
    (hGroup : s.groupOf gid = some mbg) :
    (applyStateChange now s change).groupOf gid =
      if change.targetID = mbg.secondTargetID ∧ s.ComesOnlineGood gid mbg change.newState then
        some mbg.swap
      else some mbg := by
  rcases applyStateChange_cases now h change with
    ⟨gid', mbg', hGroup', hSecond', hZero, hOffline, hNotOnline, hGood, updated, hGroups, _, _,
      _, hEq⟩ | ⟨hNone, hGroups, _⟩
  · have hUpdated : updated.groupOf gid = some mbg := by
      rw [groupOf, hGroups]
      exact hGroup
    rw [hEq, groupOf_switchover, hUpdated]
    by_cases hSame : gid = gid'
    · subst hSame
      obtain rfl : mbg' = mbg := some.inj (hGroup'.symm.trans hGroup)
      rw [if_pos rfl, if_pos, map_some]
      refine ⟨hSecond'.symm, congrArg some hGood, ?_, hZero, hOffline⟩
      rwa [hSecond']
    · rw [if_neg hSame, if_neg]
      rintro ⟨hHere, -⟩
      exact hSame (h.one_group hGroup hGroup' (Or.inr hHere.symm) (Or.inr hSecond'))
  · have hGroupOf : (applyStateChange now s change).groupOf gid = some mbg := by
      rw [groupOf, hGroups]
      exact hGroup
    rw [hGroupOf, if_neg]
    rintro ⟨hHere, hGood, hNotOnline, hZero, hOffline⟩
    refine hNone gid mbg hGroup hHere.symm hZero hOffline ?_ (some.inj hGood)
    rwa [hHere]

section

variable (h : s.DisjointGroups) (changes : List StateChange)
include h

/-- The group keeps its two members over the loop. If they change their roles, the new primary
was reported. -/
theorem groupOf_applyStateChanges_or (hGroup : s.groupOf gid = some mbg) :
    (changes.foldl (applyStateChange now) s).groupOf gid = some mbg ∨
      (changes.foldl (applyStateChange now) s).groupOf gid = some mbg.swap ∧
        reportsOf StateChange.report changes mbg.secondTargetID ≠ [] := by
  induction changes generalizing s mbg with
  | nil => exact Or.inl hGroup
  | cons change changes ih =>
    rw [foldl_cons]
    have hNext := applyStateChange_disjoint now h change
    have hHere := groupOf_applyStateChange now h change hGroup
    have hReported : ∀ t, reportsOf StateChange.report changes t ≠ [] →
        reportsOf StateChange.report (change :: changes) t ≠ [] := by
      intro t ht
      rw [reportsOf_cons]
      split_ifs
      · exact cons_ne_nil _ _
      · exact ht
    split_ifs at hHere with hSwitch
    · have hSecond : reportsOf StateChange.report (change :: changes) mbg.secondTargetID ≠ [] := by
        rw [reportsOf_cons, if_pos (by exact hSwitch.1)]
        exact cons_ne_nil _ _
      rcases ih hNext hHere with hSame | ⟨hBack, -⟩
      · exact Or.inr ⟨hSame, hSecond⟩
      · exact Or.inl hBack
    · rcases ih hNext hHere with hSame | ⟨hSwap, hLater⟩
      · exact Or.inl hSame
      · exact Or.inr ⟨hSwap, hReported _ hLater⟩

/-- While the primary is not reported, only the first report of the secondary can switch the
group. -/
theorem groupOf_applyStateChanges (hGroup : s.groupOf gid = some mbg)
    (hPrimary : reportsOf StateChange.report changes mbg.firstTargetID = []) :
    (changes.foldl (applyStateChange now) s).groupOf gid =
      if s.ComesOnlineGood gid mbg
          (reportsOf StateChange.report changes mbg.secondTargetID).head? then
        some mbg.swap
      else some mbg := by
  induction changes generalizing s with
  | nil =>
    rw [if_neg fun hGood => nomatch hGood.1]
    exact hGroup
  | cons change changes ih =>
    have hNext := applyStateChange_disjoint now h change
    have hHere := groupOf_applyStateChange now h change hGroup
    rw [reportsOf_cons] at hPrimary
    split_ifs at hPrimary with hFirst
    have hFirst' : change.targetID ≠ mbg.firstTargetID := hFirst
    rw [foldl_cons]
    by_cases hSecond : change.targetID = mbg.secondTargetID
    · have hReports : reportsOf StateChange.report (change :: changes) mbg.secondTargetID =
          change.newState :: reportsOf StateChange.report changes mbg.secondTargetID := by
        rw [reportsOf_cons, if_pos (by exact hSecond)]
        rfl
      rw [hReports, head?_cons]
      by_cases hGood : s.ComesOnlineGood gid mbg change.newState
      · rw [if_pos ⟨hSecond, hGood⟩] at hHere
        rw [if_pos hGood]
        -- the new secondary is not reported, so nothing switches back
        rcases groupOf_applyStateChanges_or now hNext changes hHere with hSame | ⟨-, hLater⟩
        · exact hSame
        · exact absurd hPrimary hLater
      · rw [if_neg fun hSwitch => hGood hSwitch.2] at hHere
        rw [ih hNext hHere hPrimary, if_neg hGood, if_neg]
        rintro ⟨-, hNotOnline, -⟩
        rw [reachabilityOf_applyStateChange, if_pos hSecond] at hNotOnline
        exact hNotOnline rfl
    · have hReports : reportsOf StateChange.report (change :: changes) mbg.secondTargetID =
          reportsOf StateChange.report changes mbg.secondTargetID := by
        rw [reportsOf_cons, if_neg (by exact hSecond)]
      have hComes : ∀ reported, (applyStateChange now s change).ComesOnlineGood gid mbg reported ↔
          s.ComesOnlineGood gid mbg reported := by
        intro reported
        unfold ComesOnlineGood
        rw [reachabilityOf_applyStateChange, reachabilityOf_applyStateChange, if_neg hSecond,
          if_neg hFirst']
      rw [if_neg fun hSwitch => hSecond hSwitch.1] at hHere
      rw [ih hNext hHere hPrimary, hReports]
      simp only [hComes]

theorem groupOf_applyStateChanges_exists {mbg' : MirrorBuddyGroup}
    (hGroup : (changes.foldl (applyStateChange now) s).groupOf gid = some mbg') :
    ∃ mbg, s.groupOf gid = some mbg := by
  induction changes generalizing s with
  | nil => exact ⟨mbg', hGroup⟩
  | cons change changes ih =>
    obtain ⟨mbg, hMbg⟩ := ih (applyStateChange_disjoint now h change) hGroup
    rcases applyStateChange_cases now h change with
      ⟨gid', mbg₀, hGroup₀, _, _, _, _, _, updated, hGroups, _, _, _, hEq⟩ | ⟨_, hGroups, _⟩
    · rw [hEq, groupOf_switchover] at hMbg
      have hUpdated : updated.groupOf gid = s.groupOf gid := by
        rw [groupOf, groupOf, hGroups]
      rw [hUpdated] at hMbg
      split_ifs at hMbg with hSame
      · exact ⟨mbg₀, hSame ▸ hGroup₀⟩
      · exact ⟨mbg, hMbg⟩
    · rw [groupOf, hGroups] at hMbg
      exact ⟨mbg, hMbg⟩

end

end ChangeStates

/-! ## Time-outs -/

section AutoOffline

variable {s : MgmtdTargetStateStore}

theorem switchIfSecondaryGood_disjoint (h : s.DisjointGroups) (t : Nat) :
    (s.switchIfSecondaryGood t).DisjointGroups := by
  rcases switchIfSecondaryGood_cases h t with ⟨gid, _, _, _, _, _, hEq⟩ | ⟨_, hEq⟩
  · rw [hEq]
    exact h.switchover gid
  · rw [hEq]
    exact h

theorem switchIfSecondaryGood_promotedGood (h : s.DisjointGroups) (hPromoted : s.PromotedGood)
    (t : Nat) : (s.switchIfSecondaryGood t).PromotedGood := by
  rcases switchIfSecondaryGood_cases h t with
    ⟨gid, mbg, hGroup, _, hOnline, hGood, hEq⟩ | ⟨_, hEq⟩
  · rw [hEq]
    exact hPromoted.switchover hGroup hOnline hGood
  · rw [hEq]
    exact hPromoted

theorem switchIfSecondaryGood_statesMap (h : s.DisjointGroups) (t : Nat) :
    (s.switchIfSecondaryGood t).statesMap = s.statesMap := by
  rcases switchIfSecondaryGood_cases h t with ⟨gid, _, _, _, _, _, hEq⟩ | ⟨_, hEq⟩
  · rw [hEq, statesMap_switchover]
  · rw [hEq]

def SecondaryGood (s : MgmtdTargetStateStore) (mbg : MirrorBuddyGroup) : Prop :=
  s.reachabilityOf mbg.secondTargetID = some .ONLINE ∧
    s.consistencyOf mbg.secondTargetID = some GOOD

instance (s : MgmtdTargetStateStore) (mbg : MirrorBuddyGroup) : Decidable (s.SecondaryGood mbg) :=
  inferInstanceAs (Decidable (_ ∧ _))

/-! ### The states after a look at the times -/

section Timed

variable (pofflineTimeoutMS offlineTimeoutMS : Nat) (nowTime : Time)
  {timed : MgmtdTargetStateStore}

theorem mem_offlinedTargets {statesMap : OrderedMap Nat TargetStateInfo} {t : Nat} :
    t ∈ offlinedTargets offlineTimeoutMS nowTime statesMap ↔
      ∃ info, statesMap.find t = some info ∧
        offlineTimeoutMS < nowTime.elapsedSinceMS info.lastChangedTime ∧
        info.reachabilityState ≠ .OFFLINE := by
  unfold offlinedTargets
  rw [List.mem_map]
  constructor
  · rintro ⟨⟨t', info⟩, hIn, rfl⟩
    obtain ⟨hEntry, hOff⟩ := List.mem_filter.mp hIn
    exact ⟨info, OrderedMap.find_eq_some.mpr hEntry, of_decide_eq_true hOff⟩
  · rintro ⟨info, hFind, hOff⟩
    refine ⟨(t, info), List.mem_filter.mpr ⟨OrderedMap.find_eq_some.mp hFind, ?_⟩, rfl⟩
    exact decide_eq_true hOff

section

variable
  (hFind : ∀ t, timed.statesMap.find t =
    (s.statesMap.find t).map (offlineState pofflineTimeoutMS offlineTimeoutMS nowTime))
include hFind

theorem reachabilityOf_of_mem_offlinedTargets :
    ∀ t ∈ offlinedTargets offlineTimeoutMS nowTime s.statesMap,
      timed.reachabilityOf t = some .OFFLINE := by
  intro t ht
  obtain ⟨info, hInfo, hElapsed, -⟩ := (mem_offlinedTargets offlineTimeoutMS nowTime).mp ht
  rw [reachabilityOf, hFind, hInfo, map_some, map_some, offlineState, if_pos hElapsed]

/-- A target is OFFLINE because it was before, or because the look found it without a report. -/
theorem offline_before_or_mem {t : Nat} (hOffline : timed.reachabilityOf t = some .OFFLINE) :
    s.reachabilityOf t = some .OFFLINE ∨
      t ∈ offlinedTargets offlineTimeoutMS nowTime s.statesMap := by
  unfold reachabilityOf at hOffline ⊢
  rw [hFind, Option.map_map] at hOffline
  obtain ⟨info, hInfo, hReach⟩ := Option.map_eq_some_iff.mp hOffline
  rw [hInfo, Option.map_some, Option.some.injEq]
  by_cases hBefore : info.reachabilityState = .OFFLINE
  · exact Or.inl hBefore
  refine Or.inr ((mem_offlinedTargets offlineTimeoutMS nowTime).mpr
    ⟨info, hInfo, ?_, hBefore⟩)
  by_contra hElapsed
  simp only [Function.comp_apply, offlineState, if_neg hElapsed] at hReach
  split_ifs at hReach
  exact hBefore hReach

theorem secondaryGood_of_offlineState
    {mbg : MirrorBuddyGroup} (hGood : timed.SecondaryGood mbg) : s.SecondaryGood mbg := by
  unfold SecondaryGood reachabilityOf consistencyOf at hGood ⊢
  rw [hFind] at hGood
  cases hInfo : s.statesMap.find mbg.secondTargetID with
  | none =>
    rw [hInfo] at hGood
    cases hGood.1
  | some info =>
    simp only [hInfo, map_some, some.injEq, offlineState] at hGood ⊢
    split_ifs at hGood
    · cases hGood.1
    · cases hGood.1
    · exact hGood

end

end Timed

variable (h : s.DisjointGroups)
include h

theorem groupOf_switchIfSecondaryGood (t : Nat) {gid : Nat}
    {mbg : MirrorBuddyGroup} (hGroup : s.groupOf gid = some mbg) :
    (s.switchIfSecondaryGood t).groupOf gid =
      if mbg.firstTargetID = t ∧ s.SecondaryGood mbg then some mbg.swap else some mbg := by
  rcases switchIfSecondaryGood_cases h t with
    ⟨gid', mbg', hGroup', hFirst', hOnline, hGood, hEq⟩ | ⟨hNone, hEq⟩
  · rw [hEq, groupOf_switchover, hGroup]
    by_cases hSame : gid = gid'
    · subst hSame
      obtain rfl : mbg' = mbg := some.inj (hGroup'.symm.trans hGroup)
      rw [if_pos rfl, if_pos ⟨hFirst', hOnline, hGood⟩, map_some]
    · rw [if_neg hSame, if_neg]
      rintro ⟨hFirst, -⟩
      exact hSame (h.one_group hGroup hGroup' (Or.inl hFirst) (Or.inl hFirst'))
  · rw [hEq, hGroup, if_neg]
    rintro ⟨hFirst, hGood⟩
    exact hNone gid mbg hGroup hFirst hGood

theorem switchIfSecondaryGoods_disjoint (ts : List Nat) :
    (ts.foldl switchIfSecondaryGood s).DisjointGroups := by
  induction ts generalizing s with
  | nil => exact h
  | cons t ts ih => exact ih (switchIfSecondaryGood_disjoint h t)

theorem switchIfSecondaryGoods_promotedGood (hPromoted : s.PromotedGood)
    (ts : List Nat) : (ts.foldl switchIfSecondaryGood s).PromotedGood := by
  induction ts generalizing s with
  | nil => exact hPromoted
  | cons t ts ih =>
    exact ih (switchIfSecondaryGood_disjoint h t)
      (switchIfSecondaryGood_promotedGood h hPromoted t)

theorem switchIfSecondaryGoods_statesMap (ts : List Nat) :
    (ts.foldl switchIfSecondaryGood s).statesMap = s.statesMap := by
  induction ts generalizing s with
  | nil => rfl
  | cons t ts ih =>
    rw [foldl_cons, ih (switchIfSecondaryGood_disjoint h t), switchIfSecondaryGood_statesMap h t]

/-- The loop over OFFLINE targets switches the groups whose primaries they are, where the
secondary is ONLINE and GOOD. -/
theorem groupOf_switchIfSecondaryGoods {ts : List Nat}
    (hOffline : ∀ t ∈ ts, s.reachabilityOf t = some .OFFLINE) {gid : Nat}
    {mbg : MirrorBuddyGroup} (hGroup : s.groupOf gid = some mbg) :
    (ts.foldl switchIfSecondaryGood s).groupOf gid =
      if mbg.firstTargetID ∈ ts ∧ s.SecondaryGood mbg then some mbg.swap else some mbg := by
  induction ts generalizing s mbg with
  | nil =>
    rw [if_neg fun hIn => not_mem_nil hIn.1]
    exact hGroup
  | cons t ts ih =>
    obtain ⟨hHere, hRest⟩ := forall_mem_cons.mp hOffline
    have hStates := switchIfSecondaryGood_statesMap h t
    have hReach : ∀ u, (s.switchIfSecondaryGood t).reachabilityOf u = s.reachabilityOf u := by
      intro u
      rw [reachabilityOf, reachabilityOf, hStates]
    have hGood : ∀ mbg, (s.switchIfSecondaryGood t).SecondaryGood mbg ↔ s.SecondaryGood mbg := by
      intro mbg
      unfold SecondaryGood reachabilityOf consistencyOf
      rw [hStates]
    have hOffline' : ∀ u ∈ ts, (s.switchIfSecondaryGood t).reachabilityOf u = some .OFFLINE := by
      intro u hu
      rw [hReach, hRest u hu]
    have hNext := switchIfSecondaryGood_disjoint h t
    have hGroup' := groupOf_switchIfSecondaryGood h t hGroup
    rw [foldl_cons]
    split_ifs at hGroup' with hSwitch
    · rw [ih hNext hOffline' hGroup', if_neg, if_pos]
      · exact ⟨mem_cons.mpr (Or.inl hSwitch.1), hSwitch.2⟩
      · rintro ⟨-, hBack⟩
        have hOnline := ((hGood _).mp hBack).1
        rw [MirrorBuddyGroup.swap_secondTargetID, hSwitch.1, hHere] at hOnline
        cases hOnline
    · rw [ih hNext hOffline' hGroup']
      simp only [hGood, mem_cons]
      refine if_congr (and_congr_left fun hSecond => ?_) rfl rfl
      exact ⟨Or.inr, fun hIn => hIn.resolve_left fun hFirst => hSwitch ⟨hFirst, hSecond⟩⟩

theorem groupOf_switchIfSecondaryGoods_exists (ts : List Nat) {gid : Nat} {mbg' : MirrorBuddyGroup}
    (hGroup : (ts.foldl switchIfSecondaryGood s).groupOf gid = some mbg') :
    ∃ mbg, s.groupOf gid = some mbg := by
  induction ts generalizing s with
  | nil => exact ⟨mbg', hGroup⟩
  | cons t ts ih =>
    obtain ⟨mbg, hMbg⟩ := ih (switchIfSecondaryGood_disjoint h t) hGroup
    rcases switchIfSecondaryGood_cases h t with ⟨gid', mbg₀, hGroup₀, _, _, _, hEq⟩ | ⟨_, hEq⟩
    · rw [hEq, groupOf_switchover] at hMbg
      split_ifs at hMbg with hSame
      · exact ⟨mbg₀, hSame ▸ hGroup₀⟩
      · exact ⟨mbg, hMbg⟩
    · exact ⟨mbg, hEq ▸ hMbg⟩

end AutoOffline

end MgmtdTargetStateStore

end Fhgfs.Nodes
