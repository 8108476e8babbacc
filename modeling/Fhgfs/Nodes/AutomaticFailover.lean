import Fhgfs.Lib.Run
import Fhgfs.Nodes.TargetStateLoops

/-!
# Automatic failover

A buddy group is unusable while its primary is OFFLINE although its secondary is ONLINE and GOOD.
The operations look for a switchover only at some of the events that make a group so. For each
operation, `KeepsUsable` says on the state before it and on its lists when it leaves no group
unusable, and a run leaves none if and only if all its operations meet this condition. Time-outs
always do.
-/

namespace Fhgfs.Nodes

open Option OrderedMap List
open TargetConsistencyState (GOOD NEEDS_RESYNC)

/-- An operation on the state store, with the reading of the clock. -/
inductive FailoverOp
  | setConsistencyStates (targetIDs : List Nat) (consistencyStates : List TargetConsistencyState)
      (setOnline : Bool) (now : Time)
  | changeConsistencyStates (targetIDs : List Nat)
      (oldStates newStates : List TargetConsistencyState) (now : Time)
  | autoOfflineTargets (pofflineTimeoutMS offlineTimeoutMS : Nat) (nowTime : Time)

namespace MgmtdTargetStateStore

def failoverStep (s : MgmtdTargetStateStore) : FailoverOp → MgmtdTargetStateStore
  | .setConsistencyStates targetIDs consistencyStates setOnline now =>
    s.setConsistencyStatesFromLists targetIDs consistencyStates setOnline now
  | .changeConsistencyStates targetIDs oldStates newStates now =>
    (s.changeConsistencyStatesFromLists targetIDs oldStates newStates now).2
  | .autoOfflineTargets pofflineTimeoutMS offlineTimeoutMS nowTime =>
    (s.autoOfflineTargets pofflineTimeoutMS offlineTimeoutMS nowTime).2

/-- No group has an OFFLINE primary and a secondary that is ONLINE and GOOD. -/
def Usable (s : MgmtdTargetStateStore) : Prop :=
  ∀ gid mbg, s.groupOf gid = some mbg → s.reachabilityOf mbg.firstTargetID = some .OFFLINE →
    ¬ s.SecondaryGood mbg

/-! ## When an operation leaves no group unusable -/

/-- Reports that set targets online must not make the secondary GOOD while the primary is OFFLINE
and not reported. Other reports must not make an ONLINE secondary GOOD while the primary is
OFFLINE, nor create the OFFLINE entry of an unknown primary with such a secondary. -/
def SetKeepsUsable (reports : List (Nat × TargetConsistencyState)) (setOnline : Bool)
    (s : MgmtdTargetStateStore) : Prop :=
  ∀ gid mbg, s.groupOf gid = some mbg →
    if setOnline then
      s.reachabilityOf mbg.firstTargetID = some .OFFLINE →
        reportsOf id reports mbg.firstTargetID = [] →
        (reportsOf id reports mbg.secondTargetID).getLast? ≠ some GOOD
    else
      (s.reachabilityOf mbg.firstTargetID = some .OFFLINE ∨
        s.reachabilityOf mbg.firstTargetID = none ∧
          reportsOf id reports mbg.firstTargetID ≠ []) →
        s.reachabilityOf mbg.secondTargetID = some .ONLINE →
        (reportsOf id reports mbg.secondTargetID).getLast?.or
          (s.consistencyOf mbg.secondTargetID) ≠ some GOOD

/-- Changes that pass the check must not make the secondary GOOD while the primary is OFFLINE and
not listed, unless the secondary was not ONLINE and its first change makes it GOOD. Changes that
fail the check must not create the OFFLINE entry of an unknown primary whose secondary is ONLINE
and GOOD. -/
def ChangeKeepsUsable (changes : List StateChange) (s : MgmtdTargetStateStore) : Prop :=
  ∀ gid mbg, s.groupOf gid = some mbg →
    if OldStatesMatch s.checkedConsistency changes then
      s.reachabilityOf mbg.firstTargetID = some .OFFLINE →
        reportsOf StateChange.report changes mbg.firstTargetID = [] →
        (reportsOf StateChange.report changes mbg.secondTargetID).getLast? = some GOOD →
        s.ComesOnlineGood gid mbg
          (reportsOf StateChange.report changes mbg.secondTargetID).head?
    else
      s.reachabilityOf mbg.firstTargetID = none →
        mbg.firstTargetID ∈ checkedIDs s.checkedConsistency changes → ¬ s.SecondaryGood mbg

def KeepsUsable (s : MgmtdTargetStateStore) : FailoverOp → Prop
  | .setConsistencyStates targetIDs consistencyStates setOnline _ =>
    s.SetKeepsUsable (targetIDs.zip consistencyStates) setOnline
  | .changeConsistencyStates targetIDs oldStates newStates _ =>
    s.ChangeKeepsUsable (stateChanges targetIDs oldStates newStates)
  | .autoOfflineTargets _ _ _ => True

section Steps

variable {s : MgmtdTargetStateStore}

theorem usable_setConsistencyStates_iff (hUsable : s.Usable)
    (reports : List (Nat × TargetConsistencyState)) (setOnline : Bool) (now : Time) :
    (reports.foldl (applyStateReport setOnline now) s).Usable ↔
      s.SetKeepsUsable reports setOnline := by
  unfold Usable SetKeepsUsable SecondaryGood
  have hGroupOf : ∀ gid, (reports.foldl (applyStateReport setOnline now) s).groupOf gid =
      s.groupOf gid := by
    intro gid
    rw [groupOf, (applyStateReports_groups setOnline now s reports).1, groupOf]
  refine forall_congr' fun gid => forall_congr' fun mbg => ?_
  rw [hGroupOf]
  refine forall_congr' fun hGroup => ?_
  have hBefore := hUsable gid mbg hGroup
  rw [reachabilityOf_applyStateReports, reachabilityOf_applyStateReports,
    consistencyOf_applyStateReports]
  generalize reportsOf id reports mbg.firstTargetID = primaryReports
  generalize reportsOf id reports mbg.secondTargetID = secondaryReports
  cases setOnline with
  | true =>
    by_cases hPrimary : primaryReports = []
    · by_cases hSecondary : secondaryReports = []
      · simp only [hPrimary, hSecondary, if_true, getLast?_nil, none_or] at hBefore ⊢
        tauto
      · have hLast := getLast?_eq_some_getLast hSecondary
        simp [hPrimary, hSecondary, hLast]
    · simp [hPrimary]
  | false =>
    simp only [Bool.false_eq_true, if_false]
    have hFirst : (if primaryReports = [] then s.reachabilityOf mbg.firstTargetID
          else some ((s.reachabilityOf mbg.firstTargetID).getD .OFFLINE)) = some .OFFLINE ↔
        s.reachabilityOf mbg.firstTargetID = some .OFFLINE ∨
          s.reachabilityOf mbg.firstTargetID = none ∧ primaryReports ≠ [] := by
      by_cases hPrimary : primaryReports = []
      · simp [hPrimary]
      · cases s.reachabilityOf mbg.firstTargetID <;> simp [hPrimary]
    have hSecond : (if secondaryReports = [] then s.reachabilityOf mbg.secondTargetID
          else some ((s.reachabilityOf mbg.secondTargetID).getD .OFFLINE)) = some .ONLINE ↔
        s.reachabilityOf mbg.secondTargetID = some .ONLINE := by
      by_cases hSecondary : secondaryReports = []
      · simp [hSecondary]
      · cases s.reachabilityOf mbg.secondTargetID <;> simp [hSecondary]
    rw [hFirst, hSecond, not_and]

theorem usable_applyStateChanges_iff (hDisjoint : s.DisjointGroups) (hUsable : s.Usable)
    {checked : MgmtdTargetStateStore} (hGroups : checked.buddyGroups = s.buddyGroups)
    (now : Time) (changes : List StateChange)
    (hReach : ∀ t, checked.reachabilityOf t = (s.reachabilityOf t).or
      (if reportsOf StateChange.report changes t = [] then none else some .OFFLINE))
    (hCons : ∀ t, reportsOf StateChange.report changes t = [] →
      checked.consistencyOf t = s.consistencyOf t) :
    (changes.foldl (applyStateChange now) checked).Usable ↔
      ∀ gid mbg, s.groupOf gid = some mbg → s.reachabilityOf mbg.firstTargetID = some .OFFLINE →
        reportsOf StateChange.report changes mbg.firstTargetID = [] →
        (reportsOf StateChange.report changes mbg.secondTargetID).getLast? = some GOOD →
        s.ComesOnlineGood gid mbg
          (reportsOf StateChange.report changes mbg.secondTargetID).head? := by
  have hChecked := hDisjoint.congr hGroups
  have hGroupOf : ∀ gid, checked.groupOf gid = s.groupOf gid := by
    intro gid
    rw [groupOf, groupOf, hGroups]
  have hUnreported : ∀ t, reportsOf StateChange.report changes t = [] →
      checked.reachabilityOf t = s.reachabilityOf t := by
    intro t ht
    rw [hReach, if_pos ht, or_none]
  have hNotOnline : ∀ t, checked.reachabilityOf t ≠ some .ONLINE ↔
      s.reachabilityOf t ≠ some .ONLINE := by
    intro t
    rw [hReach]
    cases s.reachabilityOf t with
    | none => split_ifs <;> simp
    | some r => simp
  -- while the primary is not reported, the checked state decides as the state before it
  have hComes : ∀ gid mbg reported, reportsOf StateChange.report changes mbg.firstTargetID = [] →
      (checked.ComesOnlineGood gid mbg reported ↔ s.ComesOnlineGood gid mbg reported) := by
    intro gid mbg reported hFirst
    unfold ComesOnlineGood
    rw [hNotOnline, hUnreported _ hFirst]
  constructor
  · intro hAfter gid mbg hGroup hOffline hFirst hLast
    by_contra hStays
    have hGroup' := groupOf_applyStateChanges now hChecked changes
      ((hGroupOf gid).trans hGroup) hFirst
    rw [if_neg fun hIn => hStays ((hComes gid mbg _ hFirst).mp hIn)] at hGroup'
    have hReported : reportsOf StateChange.report changes mbg.secondTargetID ≠ [] := by
      intro hNil
      rw [hNil] at hLast
      cases hLast
    refine hAfter gid mbg hGroup' ?_ ⟨?_, ?_⟩
    · rw [reachabilityOf_applyStateChanges, if_pos hFirst, hUnreported _ hFirst, hOffline]
    · rw [reachabilityOf_applyStateChanges, if_neg hReported]
    · rw [consistencyOf_applyStateChanges, hLast, some_or]
  · intro hKeeps gid mbg' hGroup' hOffline hGood
    obtain ⟨mbg, hMbg⟩ := groupOf_applyStateChanges_exists now hChecked changes hGroup'
    have hMbg' : s.groupOf gid = some mbg := (hGroupOf gid).symm.trans hMbg
    -- an OFFLINE primary was not reported
    have hFirst : reportsOf StateChange.report changes mbg'.firstTargetID = [] := by
      by_contra hReported
      rw [reachabilityOf_applyStateChanges, if_neg hReported] at hOffline
      cases hOffline
    rcases groupOf_applyStateChanges_or now hChecked changes hMbg with hSame | ⟨hSwap, hSecond⟩
    · obtain rfl : mbg = mbg' := some.inj (hSame.symm.trans hGroup')
      have hBefore : s.reachabilityOf mbg.firstTargetID = some .OFFLINE := by
        rw [← hUnreported _ hFirst, ← hOffline, reachabilityOf_applyStateChanges, if_pos hFirst]
      by_cases hReported : reportsOf StateChange.report changes mbg.secondTargetID = []
      · refine hUsable gid mbg hMbg' hBefore ⟨?_, ?_⟩
        · rw [← hUnreported _ hReported, ← hGood.1, reachabilityOf_applyStateChanges,
            if_pos hReported]
        · rw [← hCons _ hReported, ← hGood.2, consistencyOf_applyStateChanges, hReported]
          rfl
      have hLast : (reportsOf StateChange.report changes mbg.secondTargetID).getLast? =
          some GOOD := by
        have hCons' := hGood.2
        rw [consistencyOf_applyStateChanges, getLast?_eq_some_getLast hReported, some_or] at hCons'
        rw [getLast?_eq_some_getLast hReported, hCons']
      have hSwitch := groupOf_applyStateChanges now hChecked changes hMbg hFirst
      rw [if_pos ((hComes gid mbg _ hFirst).mpr (hKeeps gid mbg hMbg' hBefore hFirst hLast)),
        hSame] at hSwitch
      have hTwo := hDisjoint.two_members hMbg'
      exact hTwo (congrArg MirrorBuddyGroup.firstTargetID (some.inj hSwitch))
    · obtain rfl : mbg.swap = mbg' := some.inj (hSwap.symm.trans hGroup')
      exact hSecond hFirst

theorem mem_map_targetID_iff (changes : List StateChange) (t : Nat) :
    t ∈ changes.map StateChange.targetID ↔ reportsOf StateChange.report changes t ≠ [] := by
  induction changes with
  | nil => simp
  | cons change changes ih =>
    rw [map_cons, mem_cons, reportsOf_cons, ih]
    by_cases hHere : change.targetID = t
    · rw [if_pos (by exact hHere)]
      simp [hHere]
    · rw [if_neg (by exact hHere)]
      simp [Ne.symm hHere]

section

variable (hDisjoint : s.DisjointGroups) (hUsable : s.Usable)
include hDisjoint hUsable

theorem usable_changeConsistencyStates_iff
    (targetIDs : List Nat) (oldStates newStates : List TargetConsistencyState) (now : Time) :
    (s.changeConsistencyStatesFromLists targetIDs oldStates newStates now).2.Usable ↔
      s.ChangeKeepsUsable (stateChanges targetIDs oldStates newStates) := by
  unfold ChangeKeepsUsable
  rw [changeConsistencyStatesFromLists_snd]
  generalize stateChanges targetIDs oldStates newStates = changes
  have hGroups := (checkOldStates_groups now s changes).1
  have hReach := reachabilityOf_checkOldStates now s changes
  have hCons := consistencyOf_checkOldStates now s changes
  generalize (checkOldStates now changes s).2 = checked at hGroups hReach hCons ⊢
  by_cases hMatch : OldStatesMatch s.checkedConsistency changes
  · simp only [hMatch, if_true]
    simp only [checkedIDs_of_match hMatch, mem_map_targetID_iff] at hReach hCons
    refine usable_applyStateChanges_iff hDisjoint hUsable hGroups now changes ?_ ?_
    · intro t
      rw [hReach, ite_not]
    · intro t ht
      rw [hCons, if_neg (not_not.mpr ht), or_none]
  · simp only [hMatch, if_false]
    have hSecondary : ∀ mbg, checked.SecondaryGood mbg ↔ s.SecondaryGood mbg := by
      intro mbg
      unfold SecondaryGood
      rw [hReach, hCons]
      unfold reachabilityOf consistencyOf
      cases s.statesMap.find mbg.secondTargetID with
      | none => simp
      | some info => simp
    refine forall_congr' fun gid => forall_congr' fun mbg => ?_
    have hGroupOf : checked.groupOf gid = s.groupOf gid := by
      rw [groupOf, hGroups, groupOf]
    rw [hGroupOf, hSecondary, hReach]
    refine forall_congr' fun hGroup => ?_
    have hBefore := hUsable gid mbg hGroup
    cases hFirst : s.reachabilityOf mbg.firstTargetID with
    | none => simp
    | some r =>
      rw [hFirst] at hBefore
      simpa using hBefore

theorem usable_autoOfflineTargets (pofflineTimeoutMS offlineTimeoutMS : Nat) (nowTime : Time) :
    (s.autoOfflineTargets pofflineTimeoutMS offlineTimeoutMS nowTime).2.Usable := by
  unfold autoOfflineTargets
  dsimp only
  generalize hTimed : ({ s with
    statesMap := s.statesMap.mapVal
      (offlineState pofflineTimeoutMS offlineTimeoutMS nowTime) } :
    MgmtdTargetStateStore) = timed
  have hFind : ∀ t, timed.statesMap.find t =
      (s.statesMap.find t).map (offlineState pofflineTimeoutMS offlineTimeoutMS nowTime) := by
    intro t
    rw [← hTimed]
    exact find_mapVal _ _ t
  have hGroups : timed.buddyGroups = s.buddyGroups := by
    rw [← hTimed]
  have hGroupOf : ∀ gid, timed.groupOf gid = s.groupOf gid := by
    intro gid
    rw [groupOf, groupOf, hGroups]
  have hOffline := reachabilityOf_of_mem_offlinedTargets pofflineTimeoutMS offlineTimeoutMS
    nowTime hFind
  have hTimedDisjoint := hDisjoint.congr hGroups
  intro gid mbg' hGroup' hFirst hGood
  have hStates := switchIfSecondaryGoods_statesMap hTimedDisjoint
    (offlinedTargets offlineTimeoutMS nowTime s.statesMap)
  unfold reachabilityOf at hFirst
  unfold SecondaryGood reachabilityOf consistencyOf at hGood
  rw [hStates] at hFirst hGood
  obtain ⟨mbg, hMbg⟩ := groupOf_switchIfSecondaryGoods_exists hTimedDisjoint _ hGroup'
  rw [groupOf_switchIfSecondaryGoods hTimedDisjoint hOffline hMbg] at hGroup'
  split_ifs at hGroup' with hSwitch
  · obtain rfl : mbg.swap = mbg' := some.inj hGroup'
    have hOnline : timed.reachabilityOf mbg.secondTargetID = some .OFFLINE := hFirst
    rw [hSwitch.2.1] at hOnline
    cases hOnline
  obtain rfl : mbg = mbg' := some.inj hGroup'
  rcases offline_before_or_mem pofflineTimeoutMS offlineTimeoutMS nowTime hFind hFirst with
    hBefore | hIn
  · refine hUsable gid mbg ((hGroupOf gid).symm.trans hMbg) hBefore ?_
    exact secondaryGood_of_offlineState pofflineTimeoutMS offlineTimeoutMS nowTime hFind hGood
  · exact hSwitch ⟨hIn, hGood⟩

end

/-! ## Runs -/

theorem failoverStep_disjoint (h : s.DisjointGroups) (op : FailoverOp) :
    (s.failoverStep op).DisjointGroups := by
  cases op with
  | setConsistencyStates targetIDs consistencyStates setOnline now =>
    exact h.congr (applyStateReports_groups setOnline now s _).1
  | changeConsistencyStates targetIDs oldStates newStates now =>
    unfold failoverStep
    have hChecked := h.congr
      (checkOldStates_groups now s (stateChanges targetIDs oldStates newStates)).1
    dsimp only
    rw [changeConsistencyStatesFromLists_snd]
    split_ifs
    · exact applyStateChanges_disjoint now hChecked _
    · exact hChecked
  | autoOfflineTargets pofflineTimeoutMS offlineTimeoutMS nowTime =>
    refine switchIfSecondaryGoods_disjoint (h.congr ?_) _
    rfl

theorem failoverStep_promotedGood (h : s.DisjointGroups) (hPromoted : s.PromotedGood)
    (op : FailoverOp) : (s.failoverStep op).PromotedGood := by
  cases op with
  | setConsistencyStates targetIDs consistencyStates setOnline now =>
    exact hPromoted.congr (applyStateReports_groups setOnline now s _).2
  | changeConsistencyStates targetIDs oldStates newStates now =>
    unfold failoverStep
    obtain ⟨hGroups, hSwitchovers⟩ :=
      checkOldStates_groups now s (stateChanges targetIDs oldStates newStates)
    dsimp only
    rw [changeConsistencyStatesFromLists_snd]
    split_ifs
    · exact applyStateChanges_promotedGood now (h.congr hGroups) (hPromoted.congr hSwitchovers) _
    · exact hPromoted.congr hSwitchovers
  | autoOfflineTargets pofflineTimeoutMS offlineTimeoutMS nowTime =>
    refine switchIfSecondaryGoods_promotedGood (h.congr ?_) (hPromoted.congr ?_) _
    · rfl
    · rfl

theorem usable_failoverStep_iff (hDisjoint : s.DisjointGroups) (hUsable : s.Usable)
    (op : FailoverOp) : (s.failoverStep op).Usable ↔ s.KeepsUsable op := by
  cases op with
  | setConsistencyStates targetIDs consistencyStates setOnline now =>
    exact usable_setConsistencyStates_iff hUsable _ setOnline now
  | changeConsistencyStates targetIDs oldStates newStates now =>
    exact usable_changeConsistencyStates_iff hDisjoint hUsable targetIDs oldStates newStates now
  | autoOfflineTargets pofflineTimeoutMS offlineTimeoutMS nowTime =>
    exact iff_of_true (usable_autoOfflineTargets hDisjoint hUsable _ _ nowTime) trivial

/-- Automatic failover over any run: the groups stay usable, and no stale target is promoted, if
and only if every operation meets its condition on the state before it. -/
theorem failover_throughout_iff (hDisjoint : s.DisjointGroups) (hUsable : s.Usable)
    (hNoSwitchover : s.switchovers = []) (ops : List FailoverOp) :
    Run.Throughout failoverStep (fun s => s.Usable ∧ s.PromotedGood) s ops ↔
      Run.EveryStep failoverStep KeepsUsable s ops := by
  have hPromoted : s.PromotedGood := by
    intro w hw
    rw [hNoSwitchover] at hw
    cases hw
  refine Run.throughout_iff_everyStep failoverStep
    (J := fun s => s.DisjointGroups ∧ s.Usable ∧ s.PromotedGood) (A := fun _ _ => True)
    ?_ ?_ ?_ ⟨hDisjoint, hUsable, hPromoted⟩
    (Run.everyStep_of_forall failoverStep fun _ _ _ => trivial)
  · intro s hJ
    exact hJ.2
  · intro s op hJ _ hKeeps
    exact ⟨failoverStep_disjoint hJ.1 op, (usable_failoverStep_iff hJ.1 hJ.2.1 op).mpr hKeeps,
      failoverStep_promotedGood hJ.1 hJ.2.2 op⟩
  · intro s op hJ _ hKeeps hAfter
    exact hKeeps ((usable_failoverStep_iff hJ.1 hJ.2.1 op).mp hAfter.1)

end Steps

/-! ### A group that stays unusable -/

/-- Group 1 with the primary 1 and the secondary 2, both OFFLINE, at time 0. -/
def bothOffline : MgmtdTargetStateStore where
  statesMap :=
    OrderedMap.put (OrderedMap.put OrderedSet.empty 1 ⟨.OFFLINE, GOOD, ⟨0, 0⟩⟩) 2
      ⟨.OFFLINE, GOOD, ⟨0, 0⟩⟩
  targetsToResync := OrderedSet.empty
  buddyGroups := some (OrderedMap.put OrderedSet.empty 1 ⟨1, 2⟩)
  switchovers := []

theorem bothOffline_groupOf {gid : Nat} {mbg : MirrorBuddyGroup}
    (h : bothOffline.groupOf gid = some mbg) : gid = 1 ∧ mbg = ⟨1, 2⟩ := by
  have hFind : find (put OrderedSet.empty 1 ⟨1, 2⟩) gid = some mbg := h
  rw [find_put, find_empty] at hFind
  split_ifs at hFind with hGid
  exact ⟨hGid, (some.inj hFind).symm⟩

theorem bothOffline_disjoint : bothOffline.DisjointGroups := by
  intro buddyGroups hGroups
  have hGroupOf : ∀ {gid mbg}, buddyGroups.find gid = some mbg → gid = 1 ∧ mbg = ⟨1, 2⟩ := by
    intro gid mbg hFind
    apply bothOffline_groupOf
    rw [groupOf, hGroups]
    exact hFind
  refine ⟨?_, ?_⟩
  · intro gid mbg hFind
    obtain ⟨-, rfl⟩ := hGroupOf hFind
    decide
  · intro gid gid' targetID mbg mbg' hFind hFind' _ _
    rw [(hGroupOf hFind).1, (hGroupOf hFind').1]

theorem bothOffline_usable : bothOffline.Usable := by
  intro gid mbg hGroup _ hGood
  obtain ⟨-, rfl⟩ := bothOffline_groupOf hGroup
  exact absurd hGood (by decide)

/-- The secondary is reported online and GOOD by `setConsistencyStatesFromLists`, which does not
look for a switchover. -/
theorem not_failover_setConsistencyStates :
    ¬ ∀ s : MgmtdTargetStateStore, s.DisjointGroups → s.Usable → s.switchovers = [] →
      ∀ ops, Run.Throughout failoverStep (fun s => s.Usable ∧ s.PromotedGood) s ops := by
  intro hAll
  have hRun := hAll bothOffline bothOffline_disjoint bothOffline_usable rfl
    [.setConsistencyStates [2] [GOOD] true ⟨1, 0⟩]
  refine hRun.2.1 1 ⟨1, 2⟩ ?_ ?_ ?_
  · decide
  · decide
  · decide

/-- The same report by `changeConsistencyStatesFromLists` switches the group, and a time-out of
the new primary leaves it as it is. -/
theorem failover_throughout_changeConsistencyStates :
    Run.Throughout failoverStep (fun s => s.Usable ∧ s.PromotedGood) bothOffline
      [.changeConsistencyStates [2] [GOOD] [GOOD] ⟨1, 0⟩, .autoOfflineTargets 10 20 ⟨100, 0⟩] := by
  refine (failover_throughout_iff bothOffline_disjoint bothOffline_usable rfl _).mpr
    ⟨?_, trivial, trivial⟩
  intro gid mbg hGroup
  obtain ⟨rfl, rfl⟩ := bothOffline_groupOf hGroup
  decide

end MgmtdTargetStateStore

end Fhgfs.Nodes
