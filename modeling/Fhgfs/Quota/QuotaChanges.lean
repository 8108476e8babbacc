import Fhgfs.Quota.QuotaManager

/-!
# Changes of quota limits

A limit that changes while the loop calculates is either still read by the calculation, or its
flag leads to another one. The branch of the timer resets the flag behind its calculation, so
that it must not run into a change.
-/

namespace Fhgfs.Quota

namespace QuotaManager

variable {m : QuotaManager}

/-! ## The calculation and the current limits -/

theorem calculateGroups_upToDate (timer : Bool) (h : m.UsersUpToDate) :
    (m.calculateGroups timer m.defaultLimits.defaultLimitsConfigured m.quotaGroupLimits).UpToDate :=
  ⟨h, rfl, rfl⟩

/-! ## The condition on the steps -/

/-- The loop is in the branch that resets the flag at its end. -/
def timer (m : QuotaManager) : Bool :=
  match m.pos with
  | .idle => false
  | .collect _ | .reset => true
  | .calculate timer _ | .users timer _ _ | .groups timer _ | .groupsRead timer _ _ => timer

/-- The calculation in progress is still to read what the update changes. -/
def ReadLater (m : QuotaManager) : QuotaOp → Prop
  | .loop _ => False
  | .updateQuotaLimits first _ =>
    match m.pos with
    | .collect _ | .calculate _ _ => True
    | .users _ _ _ | .groups _ _ => first.type ≠ .USER
    | .idle | .groupsRead _ _ _ | .reset => False
  | .updateDefaultUserLimits _ _ _ =>
    match m.pos with
    | .collect _ | .calculate _ _ | .users _ _ _ => True
    | .idle | .groups _ _ | .groupsRead _ _ _ | .reset => False
  | .updateDefaultGroupLimits inodeLimit sizeLimit _ =>
    match m.pos with
    | .collect _ | .calculate _ _ | .users _ _ _ => True
    | .groups _ configured | .groupsRead _ configured _ =>
      (m.defaultLimits.updateGroupLimits inodeLimit sizeLimit).defaultLimitsConfigured = configured
    | .idle | .reset => False

def SetsFlag : QuotaOp → Prop
  | .loop _ => False
  | .updateQuotaLimits _ _ => True
  | .updateDefaultUserLimits _ _ saved | .updateDefaultGroupLimits _ _ saved => saved = true

/-- An update behind the reads of the calculation needs a flag that is not reset, and the ID
files are there when a flag is found. -/
def InTime (m : QuotaManager) (op : QuotaOp) : Prop :=
  match op with
  | .loop input => m.pos = .idle → (m.firstUpdate || input.intervalOver) = false →
      m.limitChanged = true → m.loadIDs input ≠ none
  | op => m.ReadLater op ∨ m.timer = false ∧ (SetsFlag op ∨ m.limitChanged = true)

/-! ## Invariant -/

/-- No change waits behind the reads of the calculation. -/
def Settled (m : QuotaManager) : Prop := m.timer = true ∨ m.limitChanged = false

def InvAt (m : QuotaManager) : LoopPos → Prop
  | .idle => m.limitChanged = false → m.collected = true → m.UpToDate
  | .collect _ | .calculate _ _ => True
  | .users _ _ userLimits => m.Settled → userLimits = m.quotaUserLimits
  | .groups _ configured => m.Settled →
      m.UsersUpToDate ∧ configured = m.defaultLimits.defaultLimitsConfigured
  | .groupsRead _ configured groupLimits => m.Settled →
      m.UsersUpToDate ∧ configured = m.defaultLimits.defaultLimitsConfigured ∧
        groupLimits = m.quotaGroupLimits
  | .reset => m.UpToDate

def Inv (m : QuotaManager) : Prop := m.InvAt m.pos

theorem Inv.requestLoop (h : m.Inv) {input : LoopInput} (hInTime : m.InTime (.loop input)) :
    (m.requestLoop input).Inv := by
  unfold Inv at h
  unfold QuotaManager.requestLoop
  cases hPos : m.pos with
  | idle =>
    rw [hPos] at h
    unfold wake
    split_ifs with hTimer hFlag
    · cases m.loadIDs input with
      | none =>
        show InvAt _ m.pos
        rwa [hPos]
      | some ids => trivial
    · cases hLoad : m.loadIDs input with
      | none => exact absurd hLoad (hInTime hPos (by simpa using hTimer) hFlag)
      | some ids => trivial
    · unfold Inv
      rwa [hPos]
  | collect ids => trivial
  | calculate timer ids => exact fun _ => rfl
  | users timer ids userLimits =>
    rw [hPos] at h
    intro hSettled
    have hHere : m.Settled := by
      unfold Settled QuotaManager.timer at hSettled ⊢
      rwa [hPos]
    rw [h hHere]
    exact ⟨⟨rfl, rfl⟩, rfl⟩
  | groups timer configured =>
    rw [hPos] at h
    intro hSettled
    have hHere : m.Settled := by
      unfold Settled QuotaManager.timer at hSettled ⊢
      rwa [hPos]
    obtain ⟨hUsers, hConfigured⟩ := h hHere
    exact ⟨hUsers, hConfigured, rfl⟩
  | groupsRead timer configured groupLimits =>
    rw [hPos] at h
    cases timer with
    | true =>
      have hHere : m.Settled := by
        unfold Settled QuotaManager.timer
        rw [hPos]
        exact Or.inl rfl
      obtain ⟨hUsers, rfl, rfl⟩ := h hHere
      exact calculateGroups_upToDate true hUsers
    | false =>
      intro hFlag _
      obtain ⟨hUsers, rfl, rfl⟩ := h (Or.inr hFlag)
      exact calculateGroups_upToDate false hUsers
  | reset =>
    rw [hPos] at h
    exact fun _ _ => h

theorem inv_of_limitChanged (hTimer : m.timer = false) (hFlag : m.limitChanged = true) : m.Inv := by
  have hNot : ¬m.Settled := by
    unfold Settled
    rw [hTimer, hFlag]
    simp
  unfold Inv
  cases hPos : m.pos with
  | idle =>
    intro hClear
    rw [hFlag] at hClear
    cases hClear
  | collect ids => trivial
  | calculate timer ids => trivial
  | users timer ids userLimits => exact fun h => absurd h hNot
  | groups timer configured => exact fun h => absurd h hNot
  | groupsRead timer configured groupLimits => exact fun h => absurd h hNot
  | reset =>
    unfold timer at hTimer
    rw [hPos] at hTimer
    cases hTimer

theorem Settled.of_update {m' : QuotaManager} (h : m'.Settled) (hPos : m'.pos = m.pos)
    (hFlag : m'.limitChanged = false → m.limitChanged = false) : m.Settled := by
  unfold Settled timer at h ⊢
  rw [hPos] at h
  exact h.imp_right hFlag

theorem Inv.updateQuotaLimits (h : m.Inv) {first : QuotaData} {rest : List QuotaData}
    (hInTime : m.InTime (.updateQuotaLimits first rest)) :
    (m.updateQuotaLimits first rest).Inv := by
  have hPos : (m.updateQuotaLimits first rest).pos = m.pos := by
    unfold QuotaManager.updateQuotaLimits
    split_ifs <;> rfl
  have hFlag : (m.updateQuotaLimits first rest).limitChanged = true := by
    unfold QuotaManager.updateQuotaLimits
    split_ifs <;> rfl
  have hSettled : (m.updateQuotaLimits first rest).Settled → m.Settled := fun hHere =>
    hHere.of_update hPos fun hClear => by rw [hFlag] at hClear; cases hClear
  rcases hInTime with hLater | ⟨hTimer, -⟩
  · unfold Inv at h ⊢
    unfold ReadLater at hLater
    rw [hPos]
    cases hAt : m.pos with
    | idle | groupsRead timer configured groupLimits | reset =>
      rw [hAt] at hLater
      exact hLater.elim
    | collect ids => trivial
    | calculate timer ids => trivial
    | users timer ids userLimits | groups timer configured =>
      rw [hAt] at h hLater
      intro hHere
      unfold QuotaManager.updateQuotaLimits
      rw [if_neg hLater]
      exact h (hSettled hHere)
  · refine inv_of_limitChanged ?_ hFlag
    unfold timer at hTimer ⊢
    rwa [hPos]

section

variable (h : m.Inv) {inodeLimit sizeLimit : UInt64} {saved : Bool}
include h

theorem Inv.updateDefaultUserLimits
    (hInTime : m.InTime (.updateDefaultUserLimits inodeLimit sizeLimit saved)) :
    (m.step (.updateDefaultUserLimits inodeLimit sizeLimit saved)).Inv := by
  rcases hInTime with hLater | ⟨hTimer, hFlag⟩
  · unfold Inv at h
    unfold ReadLater at hLater
    show InvAt _ m.pos
    cases hAt : m.pos with
    | collect ids => trivial
    | calculate timer ids => trivial
    | users timer ids userLimits =>
      rw [hAt] at h
      exact fun hHere => h (hHere.of_update rfl fun hClear => (Bool.or_eq_false_iff.mp hClear).2)
    | idle | groups | groupsRead | reset =>
      rw [hAt] at hLater
      exact hLater.elim
  · exact inv_of_limitChanged hTimer (Bool.or_eq_true_iff.mpr hFlag)

theorem Inv.updateDefaultGroupLimits
    (hInTime : m.InTime (.updateDefaultGroupLimits inodeLimit sizeLimit saved)) :
    (m.step (.updateDefaultGroupLimits inodeLimit sizeLimit saved)).Inv := by
  rcases hInTime with hLater | ⟨hTimer, hFlag⟩
  · unfold Inv at h
    unfold ReadLater at hLater
    have hSettled : (m.step (.updateDefaultGroupLimits inodeLimit sizeLimit saved)).Settled →
        m.Settled := fun hHere =>
      hHere.of_update rfl fun hClear => (Bool.or_eq_false_iff.mp hClear).2
    -- the users only see whether there are default limits
    have hUsers : (m.defaultLimits.updateGroupLimits inodeLimit sizeLimit).defaultLimitsConfigured =
        m.defaultLimits.defaultLimitsConfigured → m.UsersUpToDate →
        (m.step (.updateDefaultGroupLimits inodeLimit sizeLimit saved)).UsersUpToDate := by
      intro hConfigured hHere
      unfold UsersUpToDate exceededUsers step updateDefaultLimits
      rwa [hConfigured]
    show InvAt _ m.pos
    cases hAt : m.pos with
    | collect ids => trivial
    | calculate timer ids => trivial
    | users timer ids userLimits =>
      rw [hAt] at h
      exact fun hHere => h (hSettled hHere)
    | groups timer configured =>
      rw [hAt] at h hLater
      intro hHere
      obtain ⟨hUpToDate, rfl⟩ := h (hSettled hHere)
      exact ⟨hUsers hLater hUpToDate, hLater.symm⟩
    | groupsRead timer configured groupLimits =>
      rw [hAt] at h hLater
      intro hHere
      obtain ⟨hUpToDate, rfl, hLimits⟩ := h (hSettled hHere)
      exact ⟨hUsers hLater hUpToDate, hLater.symm, hLimits⟩
    | idle | reset =>
      rw [hAt] at hLater
      exact hLater.elim
  · exact inv_of_limitChanged hTimer (Bool.or_eq_true_iff.mpr hFlag)

end

theorem Inv.step (h : m.Inv) {op : QuotaOp} (hInTime : m.InTime op) : (m.step op).Inv := by
  cases op with
  | loop input => exact h.requestLoop hInTime
  | updateQuotaLimits first rest => exact h.updateQuotaLimits hInTime
  | updateDefaultUserLimits inodeLimit sizeLimit saved => exact h.updateDefaultUserLimits hInTime
  | updateDefaultGroupLimits inodeLimit sizeLimit saved =>
    exact h.updateDefaultGroupLimits hInTime

theorem Inv.keepsChanges (h : m.Inv) : m.KeepsChanges := by
  intro hPos
  unfold Inv at h
  rwa [hPos] at h

def Started (m : QuotaManager) : Prop :=
  ∃ cfg quotaUserLimits quotaGroupLimits defaultLimits usedQuotaUser usedQuotaGroup,
    m = init cfg quotaUserLimits quotaGroupLimits defaultLimits usedQuotaUser usedQuotaGroup

/-- When all updates come in time, no change of a limit is lost. -/
theorem keepsChanges_of_reachable (h : Run.Reachable step Started InTime m) : m.KeepsChanges := by
  have hInv : m.Inv := by
    refine h.invariant (I := Inv) ?_ ?_
    · rintro s ⟨cfg, userLimits, groupLimits, defaultLimits, usedUser, usedGroup, rfl⟩
      intro _ hCollected
      cases hCollected
    · intro s op hs hOp
      exact hs.step hOp
  exact hInv.keepsChanges

section Runs

def sampleInput : LoopInput where
  intervalOver := true
  idFiles := none
  usedQuotaUser := OrderedMap.put OrderedSet.empty 1
    (OrderedMap.put OrderedSet.empty 7 ⟨7, .USER, 10, 1⟩)
  usedQuotaGroup := OrderedSet.empty
  systemIDs := ⟨[], []⟩

def sampleManager : QuotaManager :=
  init ⟨.RANGE, (0, 10), (0, 10)⟩ OrderedSet.empty OrderedSet.empty ⟨0, 0, 0, 0⟩ OrderedSet.empty
    OrderedSet.empty

theorem sampleManager_started : sampleManager.Started := ⟨_, _, _, _, _, _, rfl⟩

/-- The limit of user 7 is set before the calculation reads the limits. -/
theorem keepsChanges_of_reachable_early :
    (Run.after step sampleManager [.loop sampleInput, .loop sampleInput,
      .updateQuotaLimits ⟨7, .USER, 5, 0⟩ [], .loop sampleInput, .loop sampleInput,
      .loop sampleInput, .loop sampleInput, .loop sampleInput]).KeepsChanges := by
  have hStart : Run.Reachable step Started InTime sampleManager := .start sampleManager_started
  refine keepsChanges_of_reachable
    (hStart.after ⟨?_, ?_, Or.inl trivial, ?_, ?_, ?_, ?_, ?_, trivial⟩)
  all_goals
    intro hPos
    cases hPos
  intro hTimer
  cases hTimer

/-- The limit is set behind the calculation: the reset of the flag forgets it. -/
theorem not_keepsChanges :
    ¬ ∀ m, Run.Reachable step Started (fun _ _ => True) m → m.KeepsChanges := by
  intro hAll
  have hStart : Run.Reachable step Started (fun _ _ => True) sampleManager :=
    .start sampleManager_started
  have hReached : Run.Reachable step Started (fun _ _ => True) (Run.after step sampleManager
      [.loop sampleInput, .loop sampleInput, .loop sampleInput, .loop sampleInput,
        .loop sampleInput, .loop sampleInput, .updateQuotaLimits ⟨7, .USER, 5, 0⟩ [],
        .loop sampleInput]) :=
    hStart.after (Run.everyStep_of_forall step fun _ _ _ => trivial)
  have hSize := (hAll _ hReached rfl rfl rfl).1.1
  have hIDs := congrArg OrderedSet.elems hSize
  exact absurd hIDs (by decide)

end Runs

end QuotaManager

end Fhgfs.Quota
