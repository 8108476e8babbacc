import Fhgfs.Nodes.CapacityPoolInvariant

/-!
# The update of the capacity pools from reports

`updateTargetCapacityPools` classifies the targets by their free space and inodes, then demotes
targets of a pool if the free capacities in it spread too far. The spread of a class comes from a
store of its minimum and maximum, which is read also if the class is empty.
-/

namespace Fhgfs.Nodes

open List

/-- The position in the enumeration: a worse pool has a higher one. -/
def CapacityPoolType.rank : CapacityPoolType → Nat
  | .NORMAL => 0
  | .LOW => 1
  | .EMERGENCY => 2

structure MinMaxStore (α : Type) where
  min : α
  max : α

namespace MinMaxStore

def new : MinMaxStore Int64 := ⟨Int64.maxValue, Int64.minValue⟩

def enter {α : Type} [LT α] [DecidableLT α] (s : MinMaxStore α) (value : α) : MinMaxStore α :=
  ⟨if s.min < value then s.min else value, if s.max < value then value else s.max⟩

end MinMaxStore

structure DynamicPoolLimits where
  lowLimit : Int64
  emergencyLimit : Int64
  normalSpreadThreshold : Int64
  lowSpreadThreshold : Int64
  lowDynamicLimit : Int64
  emergencyDynamicLimit : Int64

namespace DynamicPoolLimits

variable (limits : DynamicPoolLimits)

def getPoolTypeFromFreeCapacity (freeCapacity : Int64) : CapacityPoolType :=
  if limits.lowLimit < freeCapacity then .NORMAL
  else if limits.emergencyLimit < freeCapacity then .LOW
  else .EMERGENCY

def demotionActiveNormalPool (freeMinMax : MinMaxStore Int64) : Bool :=
  decide (limits.normalSpreadThreshold < freeMinMax.max - freeMinMax.min)

def demotionActiveLowPool (freeMinMax : MinMaxStore Int64) : Bool :=
  decide (limits.lowSpreadThreshold < freeMinMax.max - freeMinMax.min)

def demoteNormalToLow (free : Int64) : Bool := decide (free ≤ limits.lowDynamicLimit)

def demoteLowToEmergency (free : Int64) : Bool := decide (free ≤ limits.emergencyDynamicLimit)

end DynamicPoolLimits

structure TargetCapacityReport where
  diskSpaceFree : Int64
  inodesFree : Int64

structure TargetCapacityInfo where
  targetID : Nat
  nodeID : Nat
  freeSpace : Int64
  freeInodes : Int64
  pool : CapacityPoolType

def TargetCapacityInfo.updateTargetPoolType (targetPool : CapacityPoolType)
    (info : TargetCapacityInfo) : TargetCapacityInfo :=
  { info with pool := if targetPool.rank < info.pool.rank then info.pool else targetPool }

/-- The stores of the classes NORMAL and LOW, for free space or for free inodes. -/
structure PoolMinMax where
  normal : MinMaxStore Int64
  low : MinMaxStore Int64

def PoolMinMax.enter (poolType : CapacityPoolType) (free : Int64) (s : PoolMinMax) : PoolMinMax :=
  if poolType = .NORMAL then { s with normal := s.normal.enter free }
  else if poolType = .LOW then { s with low := s.low.enter free }
  else s

structure DemotionFlags where
  normalPoolSpace : Bool
  lowPoolSpace : Bool
  normalPoolInodes : Bool
  lowPoolInodes : Bool

def DemotionFlags.anyFlagActive (flags : DemotionFlags) : Bool :=
  flags.normalPoolSpace || flags.lowPoolSpace || flags.normalPoolInodes || flags.lowPoolInodes

/-- The settings of the capacity pools. -/
structure PoolLimits where
  dynamicPoolsEnabled : Bool
  poolLimitsSpace : DynamicPoolLimits
  poolLimitsInodes : DynamicPoolLimits

/-- The capacity reports that are not stale, by target. -/
abbrev CapacityReports := Nat → Option TargetCapacityReport

/-- The variables of the first loop. -/
structure FirstLoop where
  targetCapacityInfos : List TargetCapacityInfo
  freeSpaceMinMax : PoolMinMax
  inodesMinMax : PoolMinMax
  pools : TargetCapacityPools

def TargetCapacityPools.assignTargetToPool (pools : TargetCapacityPools)
    (info : TargetCapacityInfo) : TargetCapacityPools :=
  (pools.addOrUpdateUnlocked info.targetID info.nodeID info.pool).2

namespace PoolLimits

variable (limits : PoolLimits) (reports : CapacityReports)

def demotionFlags (freeSpace inodes : PoolMinMax) : DemotionFlags where
  normalPoolSpace := limits.poolLimitsSpace.demotionActiveNormalPool freeSpace.normal
  lowPoolSpace := limits.poolLimitsSpace.demotionActiveLowPool freeSpace.low
  normalPoolInodes := limits.poolLimitsInodes.demotionActiveNormalPool inodes.normal
  lowPoolInodes := limits.poolLimitsInodes.demotionActiveLowPool inodes.low

/-- The entry of a reported target after the first loop. -/
def classify (target : Nat × Nat) (report : TargetCapacityReport) : TargetCapacityInfo :=
  ((TargetCapacityInfo.mk target.1 target.2 report.diskSpaceFree report.inodesFree
    .NORMAL).updateTargetPoolType
      (limits.poolLimitsSpace.getPoolTypeFromFreeCapacity report.diskSpaceFree)
    ).updateTargetPoolType (limits.poolLimitsInodes.getPoolTypeFromFreeCapacity report.inodesFree)

/-- The entry of a target without a report, which is assigned at once. -/
def unreported (target : Nat × Nat) : TargetCapacityInfo :=
  ⟨target.1, target.2, -1, -1, .EMERGENCY⟩

def lookAtTarget (s : FirstLoop) (target : Nat × Nat) : FirstLoop :=
  match reports target.1 with
  | none => { s with pools := s.pools.assignTargetToPool (unreported target) }
  | some report =>
    { s with
      targetCapacityInfos := s.targetCapacityInfos ++ [limits.classify target report]
      freeSpaceMinMax := s.freeSpaceMinMax.enter
        (limits.poolLimitsSpace.getPoolTypeFromFreeCapacity report.diskSpaceFree)
        report.diskSpaceFree
      inodesMinMax := s.inodesMinMax.enter
        (limits.poolLimitsInodes.getPoolTypeFromFreeCapacity report.inodesFree)
        report.inodesFree }

def firstLoop (targets : List (Nat × Nat)) (pools : TargetCapacityPools) : FirstLoop :=
  targets.foldl (limits.lookAtTarget reports) ⟨[], ⟨.new, .new⟩, ⟨.new, .new⟩, pools⟩

variable (flags : DemotionFlags)

variable (info : TargetCapacityInfo)

/-- The check of `demoteIfNecessary` in the pool NORMAL. -/
def demotesNormal : Bool :=
  flags.normalPoolSpace && limits.poolLimitsSpace.demoteNormalToLow info.freeSpace ||
    flags.normalPoolInodes && limits.poolLimitsInodes.demoteNormalToLow info.freeInodes

/-- The check of `demoteIfNecessary` in the pool LOW. -/
def demotesLow : Bool :=
  flags.lowPoolSpace && limits.poolLimitsSpace.demoteLowToEmergency info.freeSpace ||
    flags.lowPoolInodes && limits.poolLimitsInodes.demoteLowToEmergency info.freeInodes

def demote : TargetCapacityInfo :=
  { info with
    pool := match info.pool with
      | .NORMAL => if limits.demotesNormal flags info then .LOW else .NORMAL
      | .LOW => if limits.demotesLow flags info then .EMERGENCY else .LOW
      | .EMERGENCY => .EMERGENCY }

def demoteIfNecessary (infos : List TargetCapacityInfo) : List TargetCapacityInfo :=
  if limits.dynamicPoolsEnabled && flags.anyFlagActive then infos.map (limits.demote flags)
  else infos

/-- The update for the pairs of a target and its node from `getTargetMappingAsInfoList`. -/
def updateTargetCapacityPools (targets : List (Nat × Nat)) (pools : TargetCapacityPools) :
    TargetCapacityPools :=
  let s := limits.firstLoop reports targets pools
  let flags := limits.demotionFlags s.freeSpaceMinMax s.inodesMinMax
  (limits.demoteIfNecessary flags s.targetCapacityInfos).foldl .assignTargetToPool s.pools

end PoolLimits

/-! ## Minimum and maximum -/

namespace MinMaxStore

variable (s : MinMaxStore Int64)

theorem toInt_enter (value : Int64) :
    (s.enter value).min.toInt = Min.min s.min.toInt value.toInt ∧
      (s.enter value).max.toInt = Max.max s.max.toInt value.toInt := by
  simp only [enter, Int64.lt_iff_toInt_lt]
  constructor <;> split_ifs <;> omega

instance : RightCommutative (enter (α := Int64)) where
  right_comm s a b := by
    have hLeft := (s.enter a).toInt_enter b
    have hRight := (s.enter b).toInt_enter a
    rw [(s.toInt_enter a).1, (s.toInt_enter a).2] at hLeft
    rw [(s.toInt_enter b).1, (s.toInt_enter b).2] at hRight
    have hMin := Int64.toInt_inj.mp (hLeft.1.trans ((min_right_comm _ _ _).trans hRight.1.symm))
    have hMax := Int64.toInt_inj.mp (hLeft.2.trans ((max_right_comm _ _ _).trans hRight.2.symm))
    generalize (s.enter a).enter b = x at hMin hMax
    cases x
    simp only at hMin hMax
    rw [hMin, hMax]

theorem foldl_enter_spec (frees : List Int64) :
    ((frees.foldl enter s).min = s.min ∨ (frees.foldl enter s).min ∈ frees) ∧
    ((frees.foldl enter s).max = s.max ∨ (frees.foldl enter s).max ∈ frees) ∧
    ∀ free ∈ frees, (frees.foldl enter s).min.toInt ≤ free.toInt ∧
      free.toInt ≤ (frees.foldl enter s).max.toInt := by
  induction frees using reverseRecOn with
  | nil => exact ⟨.inl rfl, .inl rfl, nofun⟩
  | append_singleton frees free ih =>
    obtain ⟨hMin, hMax, hBetween⟩ := ih
    rw [foldl_append, foldl_cons, foldl_nil]
    generalize frees.foldl enter s = t at hMin hMax hBetween
    have hInt := t.toInt_enter free
    refine ⟨?_, ?_, fun x hx => ?_⟩
    · simp only [enter, mem_append, mem_singleton]
      split_ifs <;> tauto
    · simp only [enter, mem_append, mem_singleton]
      split_ifs <;> tauto
    · rw [hInt.1, hInt.2]
      rcases mem_append.mp hx with hOld | hNew
      · have := hBetween x hOld
        omega
      · rw [mem_singleton.mp hNew]
        omega

end MinMaxStore

/-- The flag tells exactly if two of the free capacities differ by more than the threshold, and
the spread does not overflow. -/
def SpreadExact (frees : List Int64) (threshold : Int64) (freeMinMax : MinMaxStore Int64)
    (active : Bool) : Prop :=
  (freeMinMax.max - freeMinMax.min).toInt = freeMinMax.max.toInt - freeMinMax.min.toInt ∧
  (active = true ↔ ∃ a ∈ frees, ∃ b ∈ frees, threshold.toInt < a.toInt - b.toInt)

theorem spreadExact_iff {frees : List Int64} (hNonneg : ∀ free ∈ frees, 0 ≤ free.toInt)
    (threshold : Int64) :
    SpreadExact frees threshold (frees.foldl .enter .new)
      (decide (threshold < (frees.foldl MinMaxStore.enter .new).max -
        (frees.foldl MinMaxStore.enter .new).min)) ↔ frees ≠ [] := by
  constructor
  · rintro h rfl
    exact absurd h.1 (by decide)
  · intro hFrees
    obtain ⟨free, hFree⟩ := exists_mem_of_ne_nil frees hFrees
    obtain ⟨hMin, hMax, hBetween⟩ := MinMaxStore.foldl_enter_spec .new frees
    generalize frees.foldl MinMaxStore.enter .new = t at hMin hMax hBetween
    have hMinMem : t.min ∈ frees := by
      refine hMin.elim (fun hNew => ?_) id
      have hTop : t.min.toInt = 2 ^ 63 - 1 := by
        rw [hNew]
        rfl
      have hLe := (hBetween free hFree).1
      have hLt := free.toInt_lt
      rwa [Int64.toInt_inj.mp (by omega : t.min.toInt = free.toInt)]
    have hMaxMem : t.max ∈ frees := by
      refine hMax.elim (fun hNew => ?_) id
      have hBottom : t.max.toInt = -2 ^ 63 := by
        rw [hNew]
        rfl
      have hLe := (hBetween free hFree).2
      have hNonneg := hNonneg free hFree
      omega
    have hExact : (t.max - t.min).toInt = t.max.toInt - t.min.toInt := by
      have hMinNonneg := hNonneg _ hMinMem
      have hMaxNonneg := hNonneg _ hMaxMem
      have hMinLt := t.min.toInt_lt
      have hMaxLt := t.max.toInt_lt
      rw [Int64.toInt_sub, Int.bmod_eq_of_le] <;> omega
    refine ⟨hExact, ?_⟩
    rw [decide_eq_true_iff, Int64.lt_iff_toInt_lt, hExact]
    constructor
    · exact fun hSpread => ⟨_, hMaxMem, _, hMinMem, hSpread⟩
    · rintro ⟨a, ha, b, hb, hSpread⟩
      have := (hBetween a ha).2
      have := (hBetween b hb).1
      omega

/-! ## What the loops compute -/

theorem DynamicPoolLimits.rank_getPoolType_le (limits : DynamicPoolLimits) {a b : Int64}
    (hLe : a ≤ b) : (limits.getPoolTypeFromFreeCapacity b).rank ≤
      (limits.getPoolTypeFromFreeCapacity a).rank := by
  simp only [getPoolTypeFromFreeCapacity, Int64.lt_iff_toInt_lt]
  rw [Int64.le_iff_toInt_le] at hLe
  split_ifs <;> first | omega | decide

section Classes

variable (limits : DynamicPoolLimits) (free : TargetCapacityReport → Int64)
  (reports : CapacityReports) (targets : List (Nat × Nat))

/-- The free capacities of the reported targets that are statically in the class. -/
def freesIn (p : CapacityPoolType) : List Int64 :=
  ((targets.filterMap fun target => reports target.1).map free).filter fun capacity =>
    limits.getPoolTypeFromFreeCapacity capacity = p

/-- The stores of the two classes after the first loop. -/
def minMaxOf : PoolMinMax where
  normal := (freesIn limits free reports targets .NORMAL).foldl .enter .new
  low := (freesIn limits free reports targets .LOW).foldl .enter .new

theorem minMaxOf_concat (target : Nat × Nat) :
    minMaxOf limits free reports (targets ++ [target]) =
      match reports target.1 with
      | none => minMaxOf limits free reports targets
      | some report => (minMaxOf limits free reports targets).enter
          (limits.getPoolTypeFromFreeCapacity (free report)) (free report) := by
  cases hReport : reports target.1 with
  | none => simp [minMaxOf, freesIn, filterMap_append, hReport]
  | some report =>
    simp only [minMaxOf, freesIn, filterMap_append, map_append, filter_append,
      foldl_append, filterMap_cons, hReport, filterMap_nil, map_cons,
      map_nil, filter_cons, filter_nil]
    cases limits.getPoolTypeFromFreeCapacity (free report) <;> rfl

theorem minMaxOf_perm {targets' : List (Nat × Nat)} (hPerm : targets'.Perm targets) :
    minMaxOf limits free reports targets' = minMaxOf limits free reports targets := by
  have hFrees : ∀ p, (freesIn limits free reports targets' p).Perm
      (freesIn limits free reports targets p) := fun p => ((hPerm.filterMap _).map free).filter _
  rw [minMaxOf, (hFrees .NORMAL).foldl_eq, (hFrees .LOW).foldl_eq, minMaxOf]

variable {reports targets}

theorem nonneg_of_mem_freesIn (hFree : ∀ target ∈ targets, ∀ report,
    reports target.1 = some report → 0 ≤ (free report).toInt) (p : CapacityPoolType) :
    ∀ capacity ∈ freesIn limits free reports targets p, 0 ≤ capacity.toInt := by
  intro capacity hIn
  obtain ⟨report, hReport, rfl⟩ := mem_map.mp (mem_filter.mp hIn).1
  obtain ⟨target, hTarget, hReport⟩ := mem_filterMap.mp hReport
  exact hFree target hTarget report hReport

end Classes

def TargetCapacityPools.OnePool (pools : TargetCapacityPools) : Prop :=
  ∀ t q q', t ∈ pools.pools q → t ∈ pools.pools q' → q = q'

section

variable {pools : TargetCapacityPools} (hOne : pools.OnePool) (info : TargetCapacityInfo)
include hOne

theorem TargetCapacityPools.OnePool.mem_assignTargetToPool (q : CapacityPoolType) (t : Nat) :
    t ∈ (pools.assignTargetToPool info).pools q ↔
      t ∈ pools.pools q ∧ t ≠ info.targetID ∨ t = info.targetID ∧ q = info.pool :=
  (addOrUpdateUnlocked_spec info.nodeID info.pool (hOne info.targetID)).1 q t

theorem TargetCapacityPools.OnePool.assignTargetToPool :
    (pools.assignTargetToPool info).OnePool := by
  intro t q q' ht ht'
  rw [hOne.mem_assignTargetToPool] at ht ht'
  rcases ht with ⟨ht, hNe⟩ | ⟨ht, rfl⟩
  · exact hOne t q q' ht (ht'.resolve_right fun h => hNe h.1).1
  · exact (ht'.resolve_left fun h => h.2 ht).2.symm

end

theorem TargetCapacityPools.onePool_init : OnePool .init :=
  fun _ _ _ ht => absurd ht (OrderedSet.not_mem_empty _)

theorem TargetCapacityPools.mem_pools_foldl_assign {f : Nat → CapacityPoolType}
    {infos : List TargetCapacityInfo} {pools : TargetCapacityPools}
    (hOne : pools.OnePool)
    (hPool : ∀ info ∈ infos, info.pool = f info.targetID) (t : Nat) (q : CapacityPoolType) :
    t ∈ (infos.foldl .assignTargetToPool pools).pools q ↔
      if t ∈ infos.map TargetCapacityInfo.targetID then q = f t else t ∈ pools.pools q := by
  induction infos generalizing pools with
  | nil => rfl
  | cons info infos ih =>
    rw [foldl_cons, ih (hOne.assignTargetToPool info) fun info' hInfo =>
      hPool info' (mem_cons_of_mem _ hInfo), hOne.mem_assignTargetToPool,
      hPool info mem_cons_self]
    by_cases hRest : t ∈ infos.map TargetCapacityInfo.targetID
    · rw [if_pos hRest, map_cons, if_pos (mem_cons_of_mem _ hRest)]
    · rw [if_neg hRest]
      by_cases hHere : t = info.targetID
      · simp [hHere]
      · simp_all

namespace PoolLimits

variable (limits : PoolLimits) (reports : CapacityReports)

theorem firstLoop_eq (targets : List (Nat × Nat)) (pools : TargetCapacityPools) :
    limits.firstLoop reports targets pools =
      ⟨targets.filterMap fun target => (reports target.1).map (limits.classify target),
        minMaxOf limits.poolLimitsSpace (·.diskSpaceFree) reports targets,
        minMaxOf limits.poolLimitsInodes (·.inodesFree) reports targets,
        ((targets.filter fun target => (reports target.1).isNone).map unreported).foldl
          .assignTargetToPool pools⟩ := by
  induction targets using reverseRecOn with
  | nil => rfl
  | append_singleton targets target ih =>
    rw [firstLoop, foldl_append, foldl_cons, foldl_nil, ← firstLoop, ih,
      lookAtTarget, minMaxOf_concat, minMaxOf_concat]
    cases hReport : reports target.1 with
    | none | some report => simp [hReport, filterMap_append, filter_append]

/-- The flags that the update of these targets computes. -/
def flagsOf (targets : List (Nat × Nat)) : DemotionFlags :=
  limits.demotionFlags (minMaxOf limits.poolLimitsSpace (·.diskSpaceFree) reports targets)
    (minMaxOf limits.poolLimitsInodes (·.inodesFree) reports targets)

variable (flags : DemotionFlags)

variable (target : Nat × Nat)

/-- The entry of a reported target after the second loop. -/
def demoted (report : TargetCapacityReport) : TargetCapacityInfo :=
  if limits.dynamicPoolsEnabled && flags.anyFlagActive then
    limits.demote flags (limits.classify target report)
  else limits.classify target report

def assignedPool (targetID : Nat) : CapacityPoolType :=
  match reports targetID with
  | none => .EMERGENCY
  | some report => (limits.demoted flags (targetID, 0) report).pool

theorem demoted_targetID (report : TargetCapacityReport) :
    (limits.demoted flags target report).targetID = target.1 := by
  unfold demoted
  split_ifs <;> rfl

theorem demoted_pool (report : TargetCapacityReport) :
    (limits.demoted flags target report).pool =
      (limits.demoted flags (target.1, 0) report).pool := by
  unfold demoted
  split_ifs <;> rfl

theorem demoteIfNecessary_eq (targets : List (Nat × Nat)) :
    limits.demoteIfNecessary flags
        (targets.filterMap fun target => (reports target.1).map (limits.classify target)) =
      targets.filterMap fun target => (reports target.1).map (limits.demoted flags target) := by
  unfold demoteIfNecessary demoted
  split_ifs
  · rw [map_filterMap]
    simp only [Option.map_map, Function.comp_def]
  · rfl

variable {reports} {targets : List (Nat × Nat)} {pools : TargetCapacityPools}

theorem mem_pools_updateTargetCapacityPools (hOne : pools.OnePool) {t : Nat}
    (hTarget : t ∈ targets.map Prod.fst) (q : CapacityPoolType) :
    t ∈ (limits.updateTargetCapacityPools reports targets pools).pools q ↔
      q = limits.assignedPool reports (limits.flagsOf reports targets) t := by
  rw [updateTargetCapacityPools, firstLoop_eq, ← flagsOf, demoteIfNecessary_eq]
  generalize limits.flagsOf reports targets = flags
  rw [← foldl_append, TargetCapacityPools.mem_pools_foldl_assign (f :=
    limits.assignedPool reports flags) hOne, if_pos]
  · obtain ⟨target, hIn, rfl⟩ := mem_map.mp hTarget
    rw [map_append, mem_append, mem_map, mem_map]
    cases hReport : reports target.1 with
    | none =>
      refine .inl ⟨unreported target, mem_map_of_mem ?_, rfl⟩
      exact mem_filter.mpr ⟨hIn, by rw [hReport]; rfl⟩
    | some report =>
      refine .inr ⟨limits.demoted flags target report, ?_, limits.demoted_targetID flags _ _⟩
      exact mem_filterMap.mpr ⟨target, hIn, by rw [hReport]; rfl⟩
  · intro info hInfo
    rw [assignedPool]
    rcases mem_append.mp hInfo with hNone | hSome
    · obtain ⟨target, hIn, rfl⟩ := mem_map.mp hNone
      have hReport := Option.isNone_iff_eq_none.mp (mem_filter.mp hIn).2
      rw [unreported, hReport]
    · obtain ⟨target, hIn, hInfo⟩ := mem_filterMap.mp hSome
      obtain ⟨report, hReport, rfl⟩ := Option.map_eq_some_iff.mp hInfo
      rw [demoted_targetID, hReport]
      exact limits.demoted_pool flags target report

theorem rank_demote_le {info info' : TargetCapacityInfo}
    (hPool : info.pool.rank ≤ info'.pool.rank) (hSpace : info'.freeSpace ≤ info.freeSpace)
    (hInodes : info'.freeInodes ≤ info.freeInodes) :
    (limits.demote flags info).pool.rank ≤ (limits.demote flags info').pool.rank := by
  have hNormal : limits.demotesNormal flags info → limits.demotesNormal flags info' := by
    simp only [demotesNormal, DynamicPoolLimits.demoteNormalToLow, Bool.or_eq_true,
      Bool.and_eq_true, decide_eq_true_iff]
    exact Or.imp (And.imp_right (Int64.le_trans hSpace)) (And.imp_right (Int64.le_trans hInodes))
  have hLow : limits.demotesLow flags info → limits.demotesLow flags info' := by
    simp only [demotesLow, DynamicPoolLimits.demoteLowToEmergency, Bool.or_eq_true,
      Bool.and_eq_true, decide_eq_true_iff]
    exact Or.imp (And.imp_right (Int64.le_trans hSpace)) (And.imp_right (Int64.le_trans hInodes))
  unfold demote
  cases hOld : info.pool <;> cases hOld' : info'.pool <;> rw [hOld, hOld'] at hPool
  all_goals
    simp only
    split_ifs
  all_goals first | decide | exact absurd hPool (by decide) | tauto

theorem rank_demoted_le (target target' : Nat × Nat) {report report' : TargetCapacityReport}
    (hSpace : report'.diskSpaceFree ≤ report.diskSpaceFree)
    (hInodes : report'.inodesFree ≤ report.inodesFree) :
    (limits.demoted flags target report).pool.rank ≤
      (limits.demoted flags target' report').pool.rank := by
  have hClass : (limits.classify target report).pool.rank ≤
      (limits.classify target' report').pool.rank := by
    have hSpaceRank := limits.poolLimitsSpace.rank_getPoolType_le hSpace
    have hInodesRank := limits.poolLimitsInodes.rank_getPoolType_le hInodes
    simp only [classify, TargetCapacityInfo.updateTargetPoolType]
    split_ifs <;> omega
  unfold demoted
  split_ifs
  · exact limits.rank_demote_le flags hClass hSpace hInodes
  · exact hClass

variable (reports targets pools)

/-- Each target gets a pool that is the same for all orders of the targets. -/
def OrderIndependent : Prop :=
  ∀ t ∈ targets.map Prod.fst, ∃ p, ∀ targets', targets'.Perm targets → ∀ q,
    t ∈ (limits.updateTargetCapacityPools reports targets' pools).pools q ↔ q = p

/-- A target with as much free space and as many free inodes has no worse pool. -/
def Monotone : Prop :=
  ∀ t ∈ targets.map Prod.fst, ∀ t' ∈ targets.map Prod.fst, ∀ report report',
    reports t = some report → reports t' = some report' →
    report'.diskSpaceFree ≤ report.diskSpaceFree → report'.inodesFree ≤ report.inodesFree →
    ∀ q q', t ∈ (limits.updateTargetCapacityPools reports targets pools).pools q →
      t' ∈ (limits.updateTargetCapacityPools reports targets pools).pools q' → q.rank ≤ q'.rank

/-- The four demotion flags are exact, if they are computed at all. -/
def FlagsExact : Prop :=
  limits.dynamicPoolsEnabled = true →
    let s := limits.firstLoop reports targets pools
    let flags := limits.demotionFlags s.freeSpaceMinMax s.inodesMinMax
    let frees := freesIn limits.poolLimitsSpace (·.diskSpaceFree) reports targets
    let inodes := freesIn limits.poolLimitsInodes (·.inodesFree) reports targets
    SpreadExact (frees .NORMAL) limits.poolLimitsSpace.normalSpreadThreshold
        s.freeSpaceMinMax.normal flags.normalPoolSpace ∧
      SpreadExact (frees .LOW) limits.poolLimitsSpace.lowSpreadThreshold
        s.freeSpaceMinMax.low flags.lowPoolSpace ∧
      SpreadExact (inodes .NORMAL) limits.poolLimitsInodes.normalSpreadThreshold
        s.inodesMinMax.normal flags.normalPoolInodes ∧
      SpreadExact (inodes .LOW) limits.poolLimitsInodes.lowSpreadThreshold
        s.inodesMinMax.low flags.lowPoolInodes

/-- Both classes have a target by its free space, and both by its free inodes. -/
def ClassesNonempty : Prop :=
  ∀ p ∈ [CapacityPoolType.NORMAL, .LOW],
    freesIn limits.poolLimitsSpace (·.diskSpaceFree) reports targets p ≠ [] ∧
      freesIn limits.poolLimitsInodes (·.inodesFree) reports targets p ≠ []

def NonnegReports : Prop :=
  ∀ target ∈ targets, ∀ report, reports target.1 = some report →
    0 ≤ report.diskSpaceFree.toInt ∧ 0 ≤ report.inodesFree.toInt

variable {reports targets pools}

theorem flagsExact_iff (hReports : NonnegReports reports targets) :
    limits.FlagsExact reports targets pools ↔
      (limits.dynamicPoolsEnabled = true → limits.ClassesNonempty reports targets) := by
  have hSpace := nonneg_of_mem_freesIn limits.poolLimitsSpace (·.diskSpaceFree)
    fun target hTarget report hReport => (hReports target hTarget report hReport).1
  have hInodes := nonneg_of_mem_freesIn limits.poolLimitsInodes (·.inodesFree)
    fun target hTarget report hReport => (hReports target hTarget report hReport).2
  refine forall_congr' fun _ => ?_
  simp only [firstLoop_eq]
  rw [ClassesNonempty, forall_mem_cons, forall_mem_singleton]
  exact (and_congr (spreadExact_iff (hSpace .NORMAL) _) (and_congr
    (spreadExact_iff (hSpace .LOW) _) (and_congr (spreadExact_iff (hInodes .NORMAL) _)
      (spreadExact_iff (hInodes .LOW) _)))).trans (by tauto)

/-- The pools do not depend on the order and are monotone, and the flags are exact if and only if
no class is empty when the dynamic pools are enabled. -/
theorem updateTargetCapacityPools_correct_iff (hOne : pools.OnePool)
    (hReports : NonnegReports reports targets) :
    limits.OrderIndependent reports targets pools ∧ limits.Monotone reports targets pools ∧
        limits.FlagsExact reports targets pools ↔
      (limits.dynamicPoolsEnabled = true → limits.ClassesNonempty reports targets) := by
  rw [limits.flagsExact_iff hReports]
  refine ⟨fun h => h.2.2, fun h => ⟨fun t ht => ?_, ?_, h⟩⟩
  · refine ⟨limits.assignedPool reports (limits.flagsOf reports targets) t,
      fun targets' hPerm q => ?_⟩
    rw [limits.mem_pools_updateTargetCapacityPools hOne ((hPerm.map Prod.fst).mem_iff.mpr ht),
      flagsOf, minMaxOf_perm _ _ _ _ hPerm, minMaxOf_perm _ _ _ _ hPerm, ← flagsOf]
  · intro t ht t' ht' report report' hReport hReport' hSpace hInodes q q' hq hq'
    rw [limits.mem_pools_updateTargetCapacityPools hOne ht, assignedPool, hReport] at hq
    rw [limits.mem_pools_updateTargetCapacityPools hOne ht', assignedPool, hReport'] at hq'
    rw [hq, hq']
    exact limits.rank_demoted_le _ _ _ hSpace hInodes

/-- Targets are low from 5 free blocks or inodes on, and each spread demotes. -/
def spreadLimits : DynamicPoolLimits := ⟨5, 2, 0, 0, 8, 3⟩

/-- Two targets in each class, three of which were in other pools before. -/
theorem updateTargetCapacityPools_correct_iff_twoClasses :
    let limits : PoolLimits := ⟨true, spreadLimits, spreadLimits⟩
    let reports : CapacityReports := fun t =>
      ([⟨9, 8⟩, ⟨3, 5⟩, ⟨7, 9⟩, ⟨4, 4⟩] : List TargetCapacityReport)[t]?
    let targets : List (Nat × Nat) := [(0, 1), (1, 1), (2, 2), (3, 2)]
    let pools := [⟨0, 1, 4, 4, .LOW⟩, ⟨1, 1, 9, 9, .NORMAL⟩, unreported (2, 2)].foldl
      .assignTargetToPool TargetCapacityPools.init
    (limits.OrderIndependent reports targets pools ∧ limits.Monotone reports targets pools ∧
        limits.FlagsExact reports targets pools ↔
      (limits.dynamicPoolsEnabled = true → limits.ClassesNonempty reports targets)) ∧
    limits.ClassesNonempty reports targets := by
  refine ⟨updateTargetCapacityPools_correct_iff _ ?_ ?_, ?_⟩
  · exact ((TargetCapacityPools.onePool_init.assignTargetToPool _).assignTargetToPool
      _).assignTargetToPool _
  · have hNonneg : ∀ report ∈ ([⟨9, 8⟩, ⟨3, 5⟩, ⟨7, 9⟩, ⟨4, 4⟩] : List TargetCapacityReport),
        0 ≤ report.diskSpaceFree.toInt ∧ 0 ≤ report.inodesFree.toInt := by decide
    exact fun _ _ report hReport => hNonneg report (mem_of_getElem? hReport)
  · unfold ClassesNonempty freesIn
    decide

/-- With one target, in the class NORMAL, the flag of the empty class LOW is set. -/
theorem not_updateTargetCapacityPools_correct :
    ¬ ∀ (limits : PoolLimits) (reports : CapacityReports) (targets : List (Nat × Nat)),
      NonnegReports reports targets →
      limits.OrderIndependent reports targets .init ∧ limits.Monotone reports targets .init ∧
        limits.FlagsExact reports targets .init := by
  intro h
  have hFlags := (h ⟨true, spreadLimits, spreadLimits⟩ (fun _ => some ⟨9, 9⟩) [(1, 1)]
    fun _ _ report hReport => by
      cases hReport
      exact ⟨by decide, by decide⟩).2.2 rfl
  obtain ⟨_, hIn, -⟩ := hFlags.2.1.2.mp (by decide)
  exact not_mem_nil hIn

end PoolLimits

end Fhgfs.Nodes
