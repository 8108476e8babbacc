import Fhgfs.Lib.Run
import Fhgfs.Quota.ExceededQuotaStore
import Mathlib.Data.List.Range

/-!
# Quota manager

The request loop of `QuotaManager` and the limit updates of the message workers. One step of the
loop goes from one access of shared data to the next; an update is one step.
-/

namespace Fhgfs.Quota

open Option List

/-- `QuotaStoreLimits`. Zero limits remove the entry. -/
def addOrUpdateLimitUnlocked (limits : QuotaDataMap) (quotaData : QuotaData) : QuotaDataMap :=
  if quotaData.size = 0 ∧ quotaData.inodes = 0 then limits.remove quotaData.id
  else limits.put quotaData.id quotaData

def addOrUpdateLimits (limits : QuotaDataMap) (quotaDataList : List QuotaData) : QuotaDataMap :=
  quotaDataList.foldl addOrUpdateLimitUnlocked limits

structure QuotaDefaultLimits where
  defaultUserQuotaInodes : UInt64
  defaultUserQuotaSize : UInt64
  defaultGroupQuotaInodes : UInt64
  defaultGroupQuotaSize : UInt64
deriving DecidableEq

namespace QuotaDefaultLimits

variable (d : QuotaDefaultLimits)

def updateUserLimits (inodeLimit sizeLimit : UInt64) : QuotaDefaultLimits :=
  { d with defaultUserQuotaInodes := inodeLimit, defaultUserQuotaSize := sizeLimit }

def updateGroupLimits (inodeLimit sizeLimit : UInt64) : QuotaDefaultLimits :=
  { d with defaultGroupQuotaInodes := inodeLimit, defaultGroupQuotaSize := sizeLimit }

def defaultLimitsConfigured : Bool :=
  decide (d.defaultUserQuotaInodes ≠ 0) || decide (d.defaultUserQuotaSize ≠ 0) ||
    decide (d.defaultGroupQuotaInodes ≠ 0) || decide (d.defaultGroupQuotaSize ≠ 0)

/-- The default limit that is handed to the check of an ID. -/
def limit (dataType : QuotaDataType) (limitType : QuotaLimitType) : UInt64 :=
  match dataType, limitType with
  | .USER, .SIZE => d.defaultUserQuotaSize
  | .USER, .INODE => d.defaultUserQuotaInodes
  | .GROUP, .SIZE => d.defaultGroupQuotaSize
  | .GROUP, .INODE => d.defaultGroupQuotaInodes
  | _, _ => 0

theorem limit_of_not_configured (h : d.defaultLimitsConfigured = false) (dataType : QuotaDataType)
    (limitType : QuotaLimitType) : d.limit dataType limitType = 0 := by
  simp only [defaultLimitsConfigured, Bool.or_eq_false_iff, decide_eq_false_iff_not, not_not] at h
  cases dataType <;> cases limitType <;> simp [limit, h]

end QuotaDefaultLimits

inductive MgmtQuotaQueryType where
  | SYSTEM
  | FILE
  | RANGE
deriving DecidableEq

/-- The configuration: where the IDs to check come from. The ends of the ranges are included. -/
structure QuotaConfig where
  quotaQueryType : MgmtQuotaQueryType
  quotaQueryUIDRange : Nat × Nat
  quotaQueryGIDRange : Nat × Nat

structure IDLists where
  uidList : List Nat
  gidList : List Nat
deriving DecidableEq

/-! ## Calculation of the exceeded quota -/

/-- The amount that a limit of this type is about. -/
def QuotaData.value (data : QuotaData) : QuotaLimitType → UInt64
  | .SIZE => data.size
  | .INODE => data.inodes
  | .NONE => 0

def usedValue (usedQuota : QuotaDataMapForTarget) (limitType : QuotaLimitType) (id : Nat) :
    UInt64 :=
  usedQuota.elems.foldl (fun used p =>
    match p.2.find id with
    | some quotaDataUsed => used + quotaDataUsed.value limitType
    | none => used) 0

def isQuotaExceededForIDunlocked (id : Nat) (limitType : QuotaLimitType)
    (usedQuota : QuotaDataMapForTarget) (limits : QuotaDataMap) (defaultLimit : UInt64) : Bool :=
  let used := usedValue usedQuota limitType id
  let limitValue := match limits.find id with
    | some limit => limit.value limitType
    | none => 0
  if limitValue ≠ 0 then decide (limitValue ≤ used)
  else decide (defaultLimit ≠ 0) && decide (defaultLimit ≤ used)

/-- The IDs that the loops of `calculateExceededQuota` check. -/
def idsToCheck (queryType : MgmtQuotaQueryType) (range : Nat × Nat) (configured : Bool)
    (idList : List Nat) (limits : QuotaDataMap) : List Nat :=
  if configured then
    match queryType with
    | .SYSTEM | .FILE => idList
    | .RANGE => List.range' range.1 (range.2 + 1 - range.1)
  else limits.elems.map Prod.fst

def exceededIDs (ids : List Nat) (limitType : QuotaLimitType)
    (usedQuota : QuotaDataMapForTarget) (limits : QuotaDataMap) (defaultLimit : UInt64) :
    List Nat :=
  ids.filter fun id => isQuotaExceededForIDunlocked id limitType usedQuota limits defaultLimit

/-! ## State -/

/-- Where the loop is. `timer` is the branch that has also collected the usage and that resets
the flag at its end. The calculation reads the limits of the users, finds their exceeded quota,
and does the same for the groups. -/
inductive LoopPos where
  | idle
  | collect (ids : IDLists)
  | calculate (timer : Bool) (ids : IDLists)
  | users (timer : Bool) (ids : IDLists) (userLimits : QuotaDataMap)
  | groups (timer : Bool) (defaultLimitsConfigured : Bool)
  | groupsRead (timer : Bool) (defaultLimitsConfigured : Bool) (groupLimits : QuotaDataMap)
  | reset

/-- `checkedIDs` are the ID lists of the last calculation, and `collected` says whether the loop
has collected usage data since the start. -/
structure QuotaManager where
  cfg : QuotaConfig
  quotaUserLimits : QuotaDataMap
  quotaGroupLimits : QuotaDataMap
  defaultLimits : QuotaDefaultLimits
  usedQuotaUser : QuotaDataMapForTarget
  usedQuotaGroup : QuotaDataMapForTarget
  exceededQuotaStore : ExceededQuotaStore
  limitChanged : Bool
  firstUpdate : Bool
  pos : LoopPos
  checkedIDs : IDLists
  collected : Bool

/-- What a step of the loop gets from outside: whether the update interval is over, the contents
of the ID files if both could be read, the quota data of the servers, the IDs of the system. -/
structure LoopInput where
  intervalOver : Bool
  idFiles : Option IDLists
  usedQuotaUser : QuotaDataMapForTarget
  usedQuotaGroup : QuotaDataMapForTarget
  systemIDs : IDLists

/-- A list of limits is of the type of its first element. -/
inductive QuotaOp where
  | loop (input : LoopInput)
  | updateQuotaLimits (first : QuotaData) (rest : List QuotaData)
  | updateDefaultUserLimits (inodeLimit sizeLimit : UInt64) (saved : Bool)
  | updateDefaultGroupLimits (inodeLimit sizeLimit : UInt64) (saved : Bool)

namespace QuotaManager

/-- The state behind the constructor, with the limits and the usage that it loads. -/
def init (cfg : QuotaConfig) (quotaUserLimits quotaGroupLimits : QuotaDataMap)
    (defaultLimits : QuotaDefaultLimits) (usedQuotaUser usedQuotaGroup : QuotaDataMapForTarget) :
    QuotaManager where
  cfg := cfg
  quotaUserLimits := quotaUserLimits
  quotaGroupLimits := quotaGroupLimits
  defaultLimits := defaultLimits
  usedQuotaUser := usedQuotaUser
  usedQuotaGroup := usedQuotaGroup
  exceededQuotaStore := ExceededQuotaStore.init
  limitChanged := false
  firstUpdate := true
  pos := .idle
  checkedIDs := ⟨[], []⟩
  collected := false

variable (m : QuotaManager)

/-- The ID lists with which an iteration starts, none if the ID files could not be read. -/
def loadIDs (input : LoopInput) : Option IDLists :=
  if m.cfg.quotaQueryType = .FILE then input.idFiles else some ⟨[], []⟩

/-- `addOrUpdateLimits` can not fail, so the flag is always set. -/
def updateQuotaLimits (first : QuotaData) (rest : List QuotaData) (m : QuotaManager) :
    QuotaManager :=
  if first.type = .USER then
    { m with
      quotaUserLimits := addOrUpdateLimits m.quotaUserLimits (first :: rest)
      limitChanged := true }
  else
    { m with
      quotaGroupLimits := addOrUpdateLimits m.quotaGroupLimits (first :: rest)
      limitChanged := true }

/-- `saved` is the result of `saveDefaultQuotaToFile`. -/
def updateDefaultLimits (defaultLimits : QuotaDefaultLimits) (saved : Bool) (m : QuotaManager) :
    QuotaManager :=
  { m with defaultLimits := defaultLimits, limitChanged := saved || m.limitChanged }

variable (input : LoopInput)

/-- The end of a sleep interval: the update of the usage, a changed limit, or nothing to do. -/
def wake (m : QuotaManager) : QuotaManager :=
  if m.firstUpdate || input.intervalOver then
    match m.loadIDs input with
    | some ids => { m with firstUpdate := false, pos := .collect ids }
    | none => { m with firstUpdate := false }
  else if m.limitChanged then
    match m.loadIDs input with
    | some ids => { m with limitChanged := false, pos := .calculate false ids }
    | none => { m with limitChanged := false }
  else m

def updateUsedQuota (ids : IDLists) (m : QuotaManager) : QuotaManager :=
  { m with
    usedQuotaUser := input.usedQuotaUser
    usedQuotaGroup := input.usedQuotaGroup
    collected := true
    pos := .calculate true ids }

/-- The exceeded quota of the users, from the limits as they were read. -/
def calculateUsers (timer : Bool) (ids : IDLists) (userLimits : QuotaDataMap)
    (m : QuotaManager) : QuotaManager :=
  let configured := m.defaultLimits.defaultLimitsConfigured
  let ids := if configured && decide (m.cfg.quotaQueryType = .SYSTEM) then input.systemIDs else ids
  let uids := idsToCheck m.cfg.quotaQueryType m.cfg.quotaQueryUIDRange configured ids.uidList
    userLimits
  let size := exceededIDs uids .SIZE m.usedQuotaUser userLimits
    m.defaultLimits.defaultUserQuotaSize
  let inodes := exceededIDs uids .INODE m.usedQuotaUser userLimits
    m.defaultLimits.defaultUserQuotaInodes
  { m with
    checkedIDs := ids
    exceededQuotaStore :=
      (m.exceededQuotaStore.updateExceededQuota size .USER .SIZE).updateExceededQuota inodes
        .USER .INODE
    pos := .groups timer configured }

def calculateGroups (timer configured : Bool) (groupLimits : QuotaDataMap) (m : QuotaManager) :
    QuotaManager :=
  let gids := idsToCheck m.cfg.quotaQueryType m.cfg.quotaQueryGIDRange configured
    m.checkedIDs.gidList groupLimits
  let size := exceededIDs gids .SIZE m.usedQuotaGroup groupLimits
    m.defaultLimits.defaultGroupQuotaSize
  let inodes := exceededIDs gids .INODE m.usedQuotaGroup groupLimits
    m.defaultLimits.defaultGroupQuotaInodes
  { m with
    exceededQuotaStore :=
      (m.exceededQuotaStore.updateExceededQuota size .GROUP .SIZE).updateExceededQuota inodes
        .GROUP .INODE
    pos := if timer then .reset else .idle }

def requestLoop (m : QuotaManager) : QuotaManager :=
  match m.pos with
  | .idle => m.wake input
  | .collect ids => m.updateUsedQuota input ids
  | .calculate timer ids => { m with pos := .users timer ids m.quotaUserLimits }
  | .users timer ids userLimits => m.calculateUsers input timer ids userLimits
  | .groups timer configured => { m with pos := .groupsRead timer configured m.quotaGroupLimits }
  | .groupsRead timer configured groupLimits => m.calculateGroups timer configured groupLimits
  | .reset => { m with limitChanged := false, pos := .idle }

def step : QuotaOp → QuotaManager
  | .loop input => m.requestLoop input
  | .updateQuotaLimits first rest => m.updateQuotaLimits first rest
  | .updateDefaultUserLimits inodeLimit sizeLimit saved =>
    m.updateDefaultLimits (m.defaultLimits.updateUserLimits inodeLimit sizeLimit) saved
  | .updateDefaultGroupLimits inodeLimit sizeLimit saved =>
    m.updateDefaultLimits (m.defaultLimits.updateGroupLimits inodeLimit sizeLimit) saved

/-! ## The exceeded quota of the current limits -/

/-- The exceeded quota of the users under the current limits and the usage. -/
def exceededUsers (limitType : QuotaLimitType) (defaultLimit : UInt64) : UIntSet :=
  ExceededQuotaStore.updateExceededQuotaUnlocked (exceededIDs
    (idsToCheck m.cfg.quotaQueryType m.cfg.quotaQueryUIDRange
      m.defaultLimits.defaultLimitsConfigured m.checkedIDs.uidList m.quotaUserLimits)
    limitType m.usedQuotaUser m.quotaUserLimits defaultLimit)

def exceededGroups (limitType : QuotaLimitType) (defaultLimit : UInt64) : UIntSet :=
  ExceededQuotaStore.updateExceededQuotaUnlocked (exceededIDs
    (idsToCheck m.cfg.quotaQueryType m.cfg.quotaQueryGIDRange
      m.defaultLimits.defaultLimitsConfigured m.checkedIDs.gidList m.quotaGroupLimits)
    limitType m.usedQuotaGroup m.quotaGroupLimits defaultLimit)

def UsersUpToDate : Prop :=
  m.exceededQuotaStore.exceededUserQuotaSize =
      m.exceededUsers .SIZE m.defaultLimits.defaultUserQuotaSize ∧
    m.exceededQuotaStore.exceededUserQuotaInode =
      m.exceededUsers .INODE m.defaultLimits.defaultUserQuotaInodes

def GroupsUpToDate : Prop :=
  m.exceededQuotaStore.exceededGroupQuotaSize =
      m.exceededGroups .SIZE m.defaultLimits.defaultGroupQuotaSize ∧
    m.exceededQuotaStore.exceededGroupQuotaInode =
      m.exceededGroups .INODE m.defaultLimits.defaultGroupQuotaInodes

/-- The store is the one of the current limits and the collected usage data. -/
def UpToDate : Prop := m.UsersUpToDate ∧ m.GroupsUpToDate

def KeepsChanges : Prop :=
  m.pos = .idle → m.limitChanged = false → m.collected = true → m.UpToDate

end QuotaManager

/-! ## The lists of one calculation -/

/-- The loop over a range, with its 32 bit counter: `none` if it goes on after so many rounds. -/
def rangeLoop : Nat → UInt32 → UInt32 → Option (List Nat)
  | 0, _, _ => none
  | fuel + 1, index, last =>
    if index ≤ last then (rangeLoop fuel (index + 1) last).map (index.toNat :: ·) else some []

/-- What `calculateExceededQuota` has for the users, or for the groups. The list is the one of the
ID file or of the system. -/
structure QuotaCheck where
  range : UInt32 × UInt32
  idList : List Nat
  usedQuota : QuotaDataMapForTarget
  limits : QuotaDataMap

namespace QuotaCheck

variable (queryType : MgmtQuotaQueryType) (d : QuotaDefaultLimits) (dataType : QuotaDataType)
  (c : QuotaCheck)

def checkedIDs (fuel : Nat) : Option (List Nat) :=
  if d.defaultLimitsConfigured ∧ queryType = .RANGE then rangeLoop fuel c.range.1 c.range.2
  else some (idsToCheck queryType (0, 0) d.defaultLimitsConfigured c.idList c.limits)

/-- The exceeded IDs by their size and by their inodes. -/
def exceeded (fuel : Nat) : Option (List Nat × List Nat) :=
  (c.checkedIDs queryType d fuel).map fun ids =>
    (exceededIDs ids .SIZE c.usedQuota c.limits (d.limit dataType .SIZE),
      exceededIDs ids .INODE c.usedQuota c.limits (d.limit dataType .INODE))

/-- The configured IDs. -/
def Selected (id : Nat) : Prop :=
  match queryType with
  | .SYSTEM | .FILE => id ∈ c.idList
  | .RANGE => c.range.1.toNat ≤ id ∧ id ≤ c.range.2.toNat

/-- The limit of its own, or else the default limit. -/
def effectiveLimit (limitType : QuotaLimitType) (id : Nat) : Nat :=
  let own := (c.limits.find id).elim 0 (·.value limitType)
  if own ≠ 0 then own.toNat else (d.limit dataType limitType).toNat

/-- The usage over all targets, without a bound. -/
def usage (limitType : QuotaLimitType) (id : Nat) : Nat :=
  (c.usedQuota.elems.map fun p => (p.2.find id).elim 0 fun data => (data.value limitType).toNat).sum

def Exceeds (limitType : QuotaLimitType) (id : Nat) : Prop :=
  c.effectiveLimit d dataType limitType id ≠ 0 ∧
    c.effectiveLimit d dataType limitType id ≤ c.usage limitType id

/-- The lists have exactly the selected IDs whose usage reaches their limit. -/
def Exact (lists : List Nat × List Nat) : Prop :=
  ∀ id, (id ∈ lists.1 ↔ c.Selected queryType id ∧ c.Exceeds d dataType .SIZE id) ∧
    (id ∈ lists.2 ↔ c.Selected queryType id ∧ c.Exceeds d dataType .INODE id)

/-- The loop over the range ends. -/
def Ends : Prop :=
  d.defaultLimitsConfigured = true → queryType = .RANGE → c.range.2.toNat + 1 < 2 ^ 32

/-- No usage of a selected ID beyond 64 bits is below its limit after the overflow. -/
def NoFalseRest (limitType : QuotaLimitType) : Prop :=
  ∀ id, c.Selected queryType id → 2 ^ 64 ≤ c.usage limitType id →
    c.effectiveLimit d dataType limitType id ≤ c.usage limitType id % 2 ^ 64

/-- Without default limits all IDs with a limit are checked, the selected ones or not. None of the
others may be over its limit. -/
def NoneOutside (limitType : QuotaLimitType) : Prop :=
  d.defaultLimitsConfigured = false → ∀ id, ¬ c.Selected queryType id →
    c.effectiveLimit d dataType limitType id ≠ 0 →
      c.usage limitType id % 2 ^ 64 < c.effectiveLimit d dataType limitType id

/-- The range ends before 2^32 - 1, no usage beyond 64 bits falls below its limit, and no ID
outside of the selection gets to the lists. -/
structure Calculable : Prop where
  ends : c.Ends queryType d
  noFalseRest : ∀ limitType ∈ [QuotaLimitType.SIZE, .INODE],
    c.NoFalseRest queryType d dataType limitType
  noneOutside : ∀ limitType ∈ [QuotaLimitType.SIZE, .INODE],
    c.NoneOutside queryType d dataType limitType

end QuotaCheck

/-- The lists of the users and of the groups. -/
def calculateExceededQuota (queryType : MgmtQuotaQueryType) (d : QuotaDefaultLimits)
    (user group : QuotaCheck) (fuel : Nat) :
    Option ((List Nat × List Nat) × (List Nat × List Nat)) :=
  (user.exceeded queryType d .USER fuel).bind fun users =>
    (group.exceeded queryType d .GROUP fuel).map fun groups => (users, groups)

theorem rangeLoop_eq_some {fuel : Nat} {index last : UInt32} {ids : List Nat}
    (h : rangeLoop fuel index last = some ids) :
    last.toNat + 1 < 2 ^ 32 ∧ ids = range' index.toNat (last.toNat + 1 - index.toNat) := by
  induction fuel generalizing index ids with
  | zero => cases h
  | succ fuel ih =>
    rw [rangeLoop] at h
    split_ifs at h with hLe
    · obtain ⟨rest, hRest, rfl⟩ := map_eq_some_iff.mp h
      obtain ⟨hLast, hRange⟩ := ih hRest
      rw [UInt32.le_iff_toNat_le] at hLe
      have hNext : (index + 1).toNat = index.toNat + 1 := by
        rw [UInt32.toNat_add, UInt32.toNat_one, Nat.mod_eq_of_lt (by omega)]
      have hLength : last.toNat + 1 - index.toNat = last.toNat + 1 - (index.toNat + 1) + 1 := by
        omega
      exact ⟨hLast, by rw [hRange, hNext, hLength, range'_succ]⟩
    · cases h
      have hIndex := index.toNat_lt
      rw [UInt32.le_iff_toNat_le] at hLe
      exact ⟨by omega, by rw [Nat.sub_eq_zero_of_le (by omega), range'_zero]⟩

theorem exists_rangeLoop {last : UInt32} (hLast : last.toNat + 1 < 2 ^ 32) {fuel : Nat}
    {index : UInt32} (hFuel : last.toNat + 1 - index.toNat < fuel) :
    ∃ ids, rangeLoop fuel index last = some ids := by
  induction fuel generalizing index with
  | zero => omega
  | succ fuel ih =>
    rw [rangeLoop]
    split_ifs with hLe
    · rw [UInt32.le_iff_toNat_le] at hLe
      have hNext : (index + 1).toNat = index.toNat + 1 := by
        rw [UInt32.toNat_add, UInt32.toNat_one, Nat.mod_eq_of_lt (by omega)]
      obtain ⟨ids, hIDs⟩ := @ih (index + 1) (by omega)
      exact ⟨_, by rw [hIDs, map_some]⟩
    · exact ⟨[], rfl⟩

namespace QuotaCheck

variable {queryType : MgmtQuotaQueryType} {d : QuotaDefaultLimits} {dataType : QuotaDataType}
  {c : QuotaCheck} {fuel : Nat} {ids : List Nat}

/-- A loop that ends has checked the same IDs as the one of `QuotaManager`. -/
theorem checkedIDs_eq_some (h : c.checkedIDs queryType d fuel = some ids) :
    c.Ends queryType d ∧ ids = idsToCheck queryType (c.range.1.toNat, c.range.2.toNat)
      d.defaultLimitsConfigured c.idList c.limits := by
  unfold checkedIDs at h
  split_ifs at h with hRange
  · obtain ⟨hConfigured, rfl⟩ := hRange
    obtain ⟨hLast, rfl⟩ := rangeLoop_eq_some h
    exact ⟨fun _ _ => hLast, by rw [idsToCheck, if_pos hConfigured]⟩
  cases h
  refine ⟨fun hConfigured hType => absurd ⟨hConfigured, hType⟩ hRange, ?_⟩
  unfold idsToCheck
  split_ifs with hConfigured
  · cases queryType with
    | SYSTEM | FILE => rfl
    | RANGE => exact absurd ⟨hConfigured, rfl⟩ hRange
  · rfl

theorem exists_checkedIDs (h : c.Ends queryType d) :
    ∃ ids, c.checkedIDs queryType d (2 ^ 32) = some ids := by
  unfold checkedIDs
  split_ifs with hRange
  · have hLast := h hRange.1 hRange.2
    exact exists_rangeLoop hLast (by omega)
  · exact ⟨_, rfl⟩

/-- Among the IDs with an effective limit, the selected ones are checked, or all of them if there
are no default limits. -/
theorem mem_checkedIDs (h : c.checkedIDs queryType d fuel = some ids) {limitType : QuotaLimitType}
    {id : Nat} (hLimit : c.effectiveLimit d dataType limitType id ≠ 0) :
    id ∈ ids ↔ (d.defaultLimitsConfigured = true → c.Selected queryType id) := by
  rw [(checkedIDs_eq_some h).2]
  unfold idsToCheck
  split_ifs with hConfigured
  · rw [forall_prop_of_true hConfigured]
    cases queryType with
    | SYSTEM | FILE => rfl
    | RANGE =>
      rw [mem_range'_1, Selected]
      dsimp only
      omega
  · refine iff_of_true (OrderedMap.mem_keys.mpr ?_) (fun h => absurd h hConfigured)
    rw [effectiveLimit, d.limit_of_not_configured (eq_false_of_ne_true hConfigured)] at hLimit
    cases hFind : c.limits.find id with
    | some limit => exact ⟨limit, rfl⟩
    | none =>
      rw [hFind] at hLimit
      exact absurd rfl hLimit

section

variable (limitType : QuotaLimitType) (id : Nat)

theorem usedValue_toNat :
    (usedValue c.usedQuota limitType id).toNat = c.usage limitType id % 2 ^ 64 := by
  have hFold : ∀ (targets : List (Nat × QuotaDataMap)) (used : UInt64),
      (targets.foldl (fun used p => match p.2.find id with
        | some quotaDataUsed => used + quotaDataUsed.value limitType
        | none => used) used).toNat = (used.toNat + (targets.map fun p =>
          (p.2.find id).elim 0 fun data => (data.value limitType).toNat).sum) % 2 ^ 64 := by
    intro targets
    induction targets with
    | nil => exact fun used => (Nat.mod_eq_of_lt used.toNat_lt).symm
    | cons target targets ih =>
      intro used
      rw [foldl_cons, ih, map_cons, sum_cons]
      cases target.2.find id with
      | none => rw [elim_none, zero_add]
      | some data =>
        rw [elim_some, UInt64.toNat_add]
        omega
  refine (hFold c.usedQuota.elems 0).trans ?_
  rw [usage, UInt64.toNat_zero, zero_add]

theorem mem_exceededIDs :
    id ∈ exceededIDs ids limitType c.usedQuota c.limits (d.limit dataType limitType) ↔
      id ∈ ids ∧ c.effectiveLimit d dataType limitType id ≠ 0 ∧
        c.effectiveLimit d dataType limitType id ≤ c.usage limitType id % 2 ^ 64 := by
  rw [exceededIDs, mem_filter, and_congr_right_iff, ← usedValue_toNat]
  intro _
  unfold isQuotaExceededForIDunlocked effectiveLimit
  generalize d.limit dataType limitType = defaultLimit
  have hValue (own : UInt64) : (if own ≠ 0 then decide (own ≤ usedValue c.usedQuota limitType id)
      else decide (defaultLimit ≠ 0) &&
        decide (defaultLimit ≤ usedValue c.usedQuota limitType id)) = true ↔
      (if own ≠ 0 then own.toNat else defaultLimit.toNat) ≠ 0 ∧
        (if own ≠ 0 then own.toNat else defaultLimit.toNat) ≤
          (usedValue c.usedQuota limitType id).toNat := by
    split_ifs with hOwn
    · rw [decide_eq_true_iff, UInt64.le_iff_toNat_le]
      exact (and_iff_right fun h => hOwn (UInt64.toNat_inj.mp h)).symm
    · rw [Bool.and_eq_true, decide_eq_true_iff, decide_eq_true_iff, UInt64.le_iff_toNat_le]
      exact and_congr_left fun _ => UInt64.toNat_inj.not.symm
  cases c.limits.find id with
  | none => exact hValue 0
  | some limit => exact hValue (limit.value limitType)

theorem effectiveLimit_lt : c.effectiveLimit d dataType limitType id < 2 ^ 64 := by
  unfold effectiveLimit
  generalize (c.limits.find id).elim 0 (·.value limitType) = own
  dsimp only
  split_ifs
  · exact UInt64.toNat_lt _
  · exact UInt64.toNat_lt _

end

theorem mem_exceededIDs_iff (h : c.checkedIDs queryType d fuel = some ids)
    (limitType : QuotaLimitType) :
    (∀ id, id ∈ exceededIDs ids limitType c.usedQuota c.limits (d.limit dataType limitType) ↔
      c.Selected queryType id ∧ c.Exceeds d dataType limitType id) ↔
      c.NoFalseRest queryType d dataType limitType ∧
        c.NoneOutside queryType d dataType limitType := by
  -- a list is wrong about an ID that is selected and has too small a rest, or that is not selected
  have hRight : ∀ id,
      (id ∈ exceededIDs ids limitType c.usedQuota c.limits (d.limit dataType limitType) ↔
        c.Selected queryType id ∧ c.Exceeds d dataType limitType id) ↔
      (c.Selected queryType id → 2 ^ 64 ≤ c.usage limitType id →
        c.effectiveLimit d dataType limitType id ≤ c.usage limitType id % 2 ^ 64) ∧
      (d.defaultLimitsConfigured = false → ¬ c.Selected queryType id →
        c.effectiveLimit d dataType limitType id ≠ 0 →
        c.usage limitType id % 2 ^ 64 < c.effectiveLimit d dataType limitType id) := by
    intro id
    have hLimit : c.effectiveLimit d dataType limitType id < 2 ^ 64 :=
      effectiveLimit_lt limitType id
    have hMem (hLimit : c.effectiveLimit d dataType limitType id ≠ 0) := mem_checkedIDs h hLimit
    rw [mem_exceededIDs, Exceeds]
    generalize c.effectiveLimit d dataType limitType id = limit at hLimit hMem
    generalize c.usage limitType id = usage
    by_cases hZero : limit = 0
    · simp [hZero]
    rw [hMem hZero]
    by_cases hSelected : c.Selected queryType id
    · simp only [hSelected, hZero, ne_eq, not_false_eq_true, implies_true, true_and, not_true,
        false_imp_iff, and_true, forall_true_left]
      omega
    · cases d.defaultLimitsConfigured <;> simp [hSelected, hZero]
  rw [forall_congr' hRight, forall_and]
  refine and_congr Iff.rfl ⟨fun hNone hConfigured id => hNone id hConfigured,
    fun hNone id hConfigured => hNone hConfigured id⟩

theorem exact_iff {lists : List Nat × List Nat}
    (h : c.exceeded queryType d dataType fuel = some lists) :
    c.Exact queryType d dataType lists ↔ c.Calculable queryType d dataType := by
  obtain ⟨ids, hIDs, rfl⟩ := map_eq_some_iff.mp h
  have hEnds := (checkedIDs_eq_some hIDs).1
  constructor
  · intro hExact
    obtain ⟨hSizeRest, hSizeOutside⟩ := (mem_exceededIDs_iff hIDs .SIZE).mp fun id => (hExact id).1
    obtain ⟨hInodeRest, hInodeOutside⟩ :=
      (mem_exceededIDs_iff hIDs .INODE).mp fun id => (hExact id).2
    exact ⟨hEnds, by simp [hSizeRest, hInodeRest], by simp [hSizeOutside, hInodeOutside]⟩
  · rintro ⟨-, hRest, hOutside⟩ id
    exact ⟨(mem_exceededIDs_iff hIDs .SIZE).mpr ⟨hRest _ (by simp), hOutside _ (by simp)⟩ id,
      (mem_exceededIDs_iff hIDs .INODE).mpr ⟨hRest _ (by simp), hOutside _ (by simp)⟩ id⟩

theorem exists_exceeded (h : c.Ends queryType d) :
    ∃ lists, c.exceeded queryType d dataType (2 ^ 32) = some lists := by
  obtain ⟨ids, hIDs⟩ := exists_checkedIDs h
  exact ⟨_, by rw [exceeded, hIDs, map_some]⟩

end QuotaCheck

/-- The calculation ends with the right lists if and only if its ranges end below 2^32 - 1, the
limits survive the overflows, and without default limits no other IDs are over their limits. -/
theorem calculateExceededQuota_exact_iff (queryType : MgmtQuotaQueryType) (d : QuotaDefaultLimits)
    (user group : QuotaCheck) :
    (∃ fuel lists, calculateExceededQuota queryType d user group fuel = some lists ∧
      user.Exact queryType d .USER lists.1 ∧ group.Exact queryType d .GROUP lists.2) ↔
      user.Calculable queryType d .USER ∧ group.Calculable queryType d .GROUP := by
  constructor
  · rintro ⟨fuel, lists, h, hUser, hGroup⟩
    obtain ⟨users, hUsers, hRest⟩ := bind_eq_some_iff.mp h
    obtain ⟨groups, hGroups, rfl⟩ := map_eq_some_iff.mp hRest
    exact ⟨(QuotaCheck.exact_iff hUsers).mp hUser, (QuotaCheck.exact_iff hGroups).mp hGroup⟩
  · rintro ⟨hUser, hGroup⟩
    obtain ⟨users, hUsers⟩ := QuotaCheck.exists_exceeded hUser.ends
    obtain ⟨groups, hGroups⟩ := QuotaCheck.exists_exceeded hGroup.ends
    refine ⟨2 ^ 32, (users, groups), ?_, (QuotaCheck.exact_iff hUsers).mpr hUser,
      (QuotaCheck.exact_iff hGroups).mpr hGroup⟩
    rw [calculateExceededQuota, hUsers, bind_some, hGroups, map_some]

/-- All IDs from the first one on, with a default limit. -/
def allIDs : QuotaCheck := ⟨(1000, 4294967295), [], OrderedSet.empty, OrderedSet.empty⟩

/-- The loop over a range with the greatest ID does not end. -/
theorem not_calculateExceededQuota_exact :
    ¬ ∀ (queryType : MgmtQuotaQueryType) (d : QuotaDefaultLimits) (user group : QuotaCheck),
      ∃ fuel lists, calculateExceededQuota queryType d user group fuel = some lists ∧
        user.Exact queryType d .USER lists.1 ∧ group.Exact queryType d .GROUP lists.2 := by
  intro h
  obtain ⟨fuel, lists, hLists, -⟩ := h .RANGE ⟨0, 1, 0, 0⟩ allIDs allIDs
  obtain ⟨users, hUsers, -⟩ := bind_eq_some_iff.mp hLists
  obtain ⟨ids, hIDs, -⟩ := map_eq_some_iff.mp hUsers
  exact absurd ((QuotaCheck.checkedIDs_eq_some hIDs).1 rfl rfl) (by decide)

section

variable {m : QuotaManager} {c : QuotaCheck} {fuel : Nat} {lists : List Nat × List Nat}

/-- What a calculation of the users that ends has computed is what the loop stores. -/
theorem QuotaManager.calculateUsers_eq (input : LoopInput) (timer : Bool) (ids : IDLists)
    (hRange : m.cfg.quotaQueryUIDRange = (c.range.1.toNat, c.range.2.toNat))
    (hUsed : m.usedQuotaUser = c.usedQuota)
    (hList : c.idList = (m.calculateUsers input timer ids c.limits).checkedIDs.uidList)
    (h : c.exceeded m.cfg.quotaQueryType m.defaultLimits .USER fuel = some lists) :
    (m.calculateUsers input timer ids c.limits).exceededQuotaStore =
      (m.exceededQuotaStore.updateExceededQuota lists.1 .USER .SIZE).updateExceededQuota lists.2
        .USER .INODE := by
  obtain ⟨checked, hIDs, rfl⟩ := map_eq_some_iff.mp h
  rw [(QuotaCheck.checkedIDs_eq_some hIDs).2, hList, ← hRange, ← hUsed]
  rfl

theorem QuotaManager.calculateGroups_eq (timer : Bool)
    (hRange : m.cfg.quotaQueryGIDRange = (c.range.1.toNat, c.range.2.toNat))
    (hUsed : m.usedQuotaGroup = c.usedQuota) (hList : c.idList = m.checkedIDs.gidList)
    (h : c.exceeded m.cfg.quotaQueryType m.defaultLimits .GROUP fuel = some lists) :
    (m.calculateGroups timer m.defaultLimits.defaultLimitsConfigured c.limits).exceededQuotaStore =
      (m.exceededQuotaStore.updateExceededQuota lists.1 .GROUP .SIZE).updateExceededQuota lists.2
        .GROUP .INODE := by
  obtain ⟨checked, hIDs, rfl⟩ := map_eq_some_iff.mp h
  rw [(QuotaCheck.checkedIDs_eq_some hIDs).2, hList, ← hRange, ← hUsed]
  rfl

end

end Fhgfs.Quota
