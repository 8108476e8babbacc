import Fhgfs.Client.StripeAddress
import Fhgfs.Lib.Run
import Mathlib.Data.Nat.Prime.Basic

/-!
# Building and changing stripe patterns

A pattern keeps the size of its stripe sets beside the targets and the chunk size, and computes
it when the pattern is built. The setter of the chunk size is in the base class and does not know
of it. So the two agree exactly for patterns that have the chunk size they were built with
(`stripeSets_right_iff`), and a new file has a right pattern if it was created with the chunk
size of its directory.
-/

namespace Fhgfs

open StripePattern List Run

def RAID0PATTERN_DEFAULT_NUM_TARGETS : UInt32 := 4
def RAID10PATTERN_DEFAULT_NUM_TARGETS : UInt32 := 4
def BUDDYMIRRORPATTERN_DEFAULT_NUM_TARGETS : UInt32 := 4

namespace StripeTargets

def getMinNumTargets : StripeTargets → UInt32
  | raid0 _ => 1
  | raid10 _ _ => 2
  | buddyMirror _ => 1

/-- The vector behind `getStripeTargetIDsModifyable`, overwritten. -/
def setStripeTargetIDs (targetIDs : List UInt16) : StripeTargets → StripeTargets
  | raid0 _ => raid0 targetIDs
  | raid10 _ mirrorTargetIDs => raid10 targetIDs mirrorTargetIDs
  | buddyMirror _ => buddyMirror targetIDs

/-- A Raid10 pattern has a mirror target for every stripe target. -/
def Mirrored : StripeTargets → Prop
  | raid10 stripeTargetIDs mirrorTargetIDs => stripeTargetIDs.length = mirrorTargetIDs.length
  | _ => True

instance : (targets : StripeTargets) → Decidable targets.Mirrored
  | raid0 _ => .isTrue trivial
  | raid10 stripeTargetIDs mirrorTargetIDs =>
    inferInstanceAs (Decidable (stripeTargetIDs.length = mirrorTargetIDs.length))
  | buddyMirror _ => .isTrue trivial

end StripeTargets

namespace StripePattern

variable (p : StripePattern)

def getDefaultNumTargets : UInt32 := p.defaultNumTargets

def getMinNumTargets (p : StripePattern) : UInt32 := p.targets.getMinNumTargets

/-- The constructors, for targets of each kind and the application's default number of them. -/
def create (targets : StripeTargets) (appDefaultNumTargets chunkSize defaultNumTargets : UInt32) :
    StripePattern where
  chunkSize := baseChunkSize chunkSize
  targets := targets
  stripeSetSize := computeStripeSetSize (baseChunkSize chunkSize) targets
  defaultNumTargets := if defaultNumTargets = 0 then appDefaultNumTargets else defaultNumTargets

variable (chunkSize : UInt32)

def raid0Pattern (stripeTargetIDs : List UInt16) (defaultNumTargets : UInt32) : StripePattern :=
  create (.raid0 stripeTargetIDs) RAID0PATTERN_DEFAULT_NUM_TARGETS chunkSize defaultNumTargets

def raid10Pattern (stripeTargetIDs mirrorTargetIDs : List UInt16)
    (defaultNumTargets : UInt32) : StripePattern :=
  create (.raid10 stripeTargetIDs mirrorTargetIDs) RAID10PATTERN_DEFAULT_NUM_TARGETS chunkSize
    defaultNumTargets

def buddyMirrorPattern (mirrorBuddyGroupIDs : List UInt16)
    (defaultNumTargets : UInt32) : StripePattern :=
  create (.buddyMirror mirrorBuddyGroupIDs) BUDDYMIRRORPATTERN_DEFAULT_NUM_TARGETS chunkSize
    defaultNumTargets

/-! ## Clones -/

/-- What `cloneDisjoint` and `cloneRotated` build with the constructor for deserialization. -/
def cloneRaid10 (stripeTargets mirrorTargets : List UInt16) : StripePattern where
  chunkSize := baseChunkSize p.getChunkSize
  targets := .raid10 stripeTargets mirrorTargets
  stripeSetSize :=
    computeStripeSetSize (baseChunkSize p.getChunkSize) (.raid10 stripeTargets mirrorTargets)
  defaultNumTargets := p.defaultNumTargets

variable (targetIDs : List UInt16)

/-- The first half of the targets, and their mirrors from the second half. -/
def cloneDisjoint : StripePattern :=
  let stripeTargets := targetIDs.take (targetIDs.length / 2)
  let mirrorTargets := targetIDs.drop (targetIDs.length / 2)
  p.cloneRaid10 stripeTargets
    (if stripeTargets.length < mirrorTargets.length then mirrorTargets.dropLast
      else mirrorTargets)

/-- All targets, and as mirrors the targets rotated by half their number. -/
def cloneRotated : StripePattern :=
  p.cloneRaid10 targetIDs
    (targetIDs.drop (targetIDs.length / 2) ++ targetIDs.take (targetIDs.length / 2))

def cloneTargets : StripePattern :=
  match p.targets with
  | .raid0 _ => raid0Pattern p.getChunkSize targetIDs p.defaultNumTargets
  | .raid10 _ _ => p.cloneDisjoint targetIDs
  | .buddyMirror _ => buddyMirrorPattern p.getChunkSize targetIDs p.defaultNumTargets

def clone : StripePattern :=
  match p.targets with
  | .raid0 stripeTargetIDs => p.cloneTargets stripeTargetIDs
  | .raid10 stripeTargetIDs mirrorTargetIDs =>
    raid10Pattern p.getChunkSize stripeTargetIDs mirrorTargetIDs p.defaultNumTargets
  | .buddyMirror mirrorBuddyGroupIDs => p.cloneTargets mirrorBuddyGroupIDs

/-! ## Setters -/

def setChunkSize (chunkSize : UInt32) : StripePattern :=
  { p with chunkSize := chunkSize }

def setDefaultNumTargets (defaultNumTargets : UInt32) : StripePattern :=
  { p with defaultNumTargets := defaultNumTargets }

def updateStripeTargetIDs (updatedStripePattern : Option StripePattern) : Bool × StripePattern :=
  match updatedStripePattern with
  | none => (false, p)
  | some updated =>
    if p.getStripeTargetIDs.length ≠ updated.getStripeTargetIDs.length then (false, p)
    else (true, { p with targets := p.targets.setStripeTargetIDs updated.getStripeTargetIDs })

end StripePattern

/-! ## The patterns of new files -/

/-- The number of targets for a file, 0 being for the setting of the directory. -/
def desiredNumTargets (stripePattern : StripePattern) (numtargets : UInt32) : UInt32 :=
  let wanted := if numtargets = 0 then stripePattern.getDefaultNumTargets else numtargets
  if wanted < stripePattern.getMinNumTargets then stripePattern.getMinNumTargets else wanted

/-- The pattern of the directory, cloned with the chosen targets. -/
def cloneForFile (tuneRotateMirrorTargets : Bool) (stripePattern : StripePattern)
    (stripeTargets : List UInt16) : StripePattern :=
  if tuneRotateMirrorTargets ∧ stripePattern.getPatternType = STRIPEPATTERN_Raid10 then
    stripePattern.cloneRotated stripeTargets
  else stripePattern.cloneTargets stripeTargets

/-- `DirInode::createFileStripePatternUnlocked`. `dirPattern` is there if the directory could be
loaded, and `chooseTargets` asks the capacity pools with the chooser of the configuration, for
the desired and the required number of targets. -/
def createFileStripePatternUnlocked (tuneRotateMirrorTargets : Bool)
    (dirPattern : Option StripePattern) (chooseTargets : UInt32 → UInt32 → List UInt16)
    (numtargets chunksize : UInt32) : Option StripePattern :=
  match dirPattern with
  | none => none
  | some stripePattern =>
    if chunksize ≠ 0 ∧ (chunksize < STRIPEPATTERN_MIN_CHUNKSIZE ∨ ¬isPowerOfTwo chunksize) then
      none
    else
      let desired := desiredNumTargets stripePattern numtargets
      let stripeTargets := chooseTargets desired stripePattern.getMinNumTargets
      if stripeTargets.length < stripePattern.getMinNumTargets.toNat then none
      else
        let filePattern := cloneForFile tuneRotateMirrorTargets stripePattern stripeTargets
        some ((filePattern.setDefaultNumTargets desired).setChunkSize
          (if chunksize = 0 then stripePattern.getChunkSize else chunksize))

namespace StripePattern

/-! ## Runs -/

/-- A call on the pattern. The run goes on with the clone that a call returns. -/
inductive PatternCall
  | clone
  | cloneTargets (targetIDs : List UInt16)
  | cloneDisjoint (targetIDs : List UInt16)
  | cloneRotated (targetIDs : List UInt16)
  | setChunkSize (chunkSize : UInt32)
  | setDefaultNumTargets (defaultNumTargets : UInt32)
  | updateStripeTargetIDs (updatedStripePattern : Option StripePattern)

variable (p : StripePattern)

def step : PatternCall → StripePattern
  | .clone => p.clone
  | .cloneTargets targetIDs => p.cloneTargets targetIDs
  | .cloneDisjoint targetIDs => p.cloneDisjoint targetIDs
  | .cloneRotated targetIDs => p.cloneRotated targetIDs
  | .setChunkSize chunkSize => p.setChunkSize chunkSize
  | .setDefaultNumTargets defaultNumTargets => p.setDefaultNumTargets defaultNumTargets
  | .updateStripeTargetIDs updatedStripePattern =>
    (p.updateStripeTargetIDs updatedStripePattern).2

/-- The calls that there are: chunk sizes are powers of two, and only a Raid10 pattern has the
two special clones. -/
def Allowed : PatternCall → Prop
  | .cloneDisjoint _ => p.getPatternType = STRIPEPATTERN_Raid10
  | .cloneRotated _ => p.getPatternType = STRIPEPATTERN_Raid10
  | .setChunkSize chunkSize => chunkSize ≠ 0 ∧ isPowerOfTwo chunkSize = true
  | _ => True

/-- The patterns that come from a constructor, or from a buffer. -/
inductive Built : StripePattern → Prop
  | raid0 {chunkSize : UInt32} (stripeTargetIDs : List UInt16) (defaultNumTargets : UInt32) :
    isPowerOfTwo chunkSize = true →
    Built (raid0Pattern chunkSize stripeTargetIDs defaultNumTargets)
  | raid10 {chunkSize : UInt32} (stripeTargetIDs mirrorTargetIDs : List UInt16)
    (defaultNumTargets : UInt32) : isPowerOfTwo chunkSize = true →
    Built (raid10Pattern chunkSize stripeTargetIDs mirrorTargetIDs defaultNumTargets)
  | buddyMirror {chunkSize : UInt32} (mirrorBuddyGroupIDs : List UInt16)
    (defaultNumTargets : UInt32) : isPowerOfTwo chunkSize = true →
    Built (buddyMirrorPattern chunkSize mirrorBuddyGroupIDs defaultNumTargets)
  | fromBuf {patternStart : Wire.Cursor} {header : StripePatternHeader} {p : StripePattern} :
    isPowerOfTwo header.chunkSize = true → createFromBuf patternStart header = .ok p → Built p

/-- The chunk size that the pattern was last built with, and the one that it has. -/
def chunkSizesAfter : UInt32 × UInt32 → List PatternCall → UInt32 × UInt32
  | sizes, [] => sizes
  | (built, _), .setChunkSize chunkSize :: calls => chunkSizesAfter (built, chunkSize) calls
  | sizes, .setDefaultNumTargets _ :: calls => chunkSizesAfter sizes calls
  | sizes, .updateStripeTargetIDs _ :: calls => chunkSizesAfter sizes calls
  | (_, current), _ :: calls => chunkSizesAfter (current, current) calls

/-- The chunk size has been the same since the pattern was built or cloned, or is so again. -/
def KeepsChunkSize (calls : List PatternCall) : Prop :=
  (chunkSizesAfter (p.chunkSize, p.chunkSize) calls).1 =
    (chunkSizesAfter (p.chunkSize, p.chunkSize) calls).2

/-- A clone with new targets gives every target a mirror. -/
def PatternCall.mirrors : PatternCall → Bool
  | .cloneTargets _ => true
  | .cloneDisjoint _ => true
  | .cloneRotated _ => true
  | _ => false

def GetsMirrors (calls : List PatternCall) : Prop :=
  p.targets.Mirrored ∨ ∃ call ∈ calls, call.mirrors = true

/-- What readers of a pattern rely on. -/
structure StripeSetsRight (p : StripePattern) : Prop where
  size : p.stripeSetSize.toNat = p.getNumStripeTargetIDs * p.chunkSize.toNat
  mirrored : p.targets.Mirrored
  index : ∀ (pos : Int64) (m : Nat), pos.toInt = m →
    (p.getStripeTargetIndex pos).toNat < p.getNumStripeTargetIDs ∧
      (p.getStripeTargetIndex pos).toNat = m / p.chunkSize.toNat % p.getNumStripeTargetIDs

/-! ## The chunk size that the size of the stripe sets is from -/

/-- The size of the stripe sets is from the chunk size `built`. -/
structure SizedFrom (built : UInt32) (p : StripePattern) : Prop where
  powerOfTwo : isPowerOfTwo p.chunkSize = true
  nonzero : p.chunkSize ≠ 0
  builtPowerOfTwo : isPowerOfTwo built = true
  builtNonzero : built ≠ 0
  stripeSetSize : p.stripeSetSize = computeStripeSetSize built p.targets

theorem baseChunkSize_of_ne {chunkSize : UInt32} (h : chunkSize ≠ 0) :
    baseChunkSize chunkSize = chunkSize := if_neg h

theorem baseChunkSize_spec {chunkSize : UInt32} (h : isPowerOfTwo chunkSize = true) :
    isPowerOfTwo (baseChunkSize chunkSize) = true ∧ baseChunkSize chunkSize ≠ 0 := by
  unfold baseChunkSize
  split
  · decide
  · rename_i hNonzero
    exact ⟨h, hNonzero⟩

variable (targets : StripeTargets)

theorem sizedFrom_create (appDefaultNumTargets : UInt32)
    {chunkSize : UInt32} (defaultNumTargets : UInt32) (h : isPowerOfTwo chunkSize = true) :
    SizedFrom (create targets appDefaultNumTargets chunkSize defaultNumTargets).chunkSize
      (create targets appDefaultNumTargets chunkSize defaultNumTargets) := by
  obtain ⟨hPower, hNonzero⟩ := baseChunkSize_spec h
  exact ⟨hPower, hNonzero, hPower, hNonzero, rfl⟩

theorem sizedFrom_fromBuf {patternStart : Wire.Cursor} {header : StripePatternHeader}
    {p : StripePattern} (h : isPowerOfTwo header.chunkSize = true)
    (hRead : createFromBuf patternStart header = .ok p) : SizedFrom p.chunkSize p := by
  obtain ⟨hPower, hNonzero⟩ := baseChunkSize_spec h
  unfold createFromBuf at hRead
  simp only at hRead
  split at hRead
  · cases hRead
  rename_i pattern rest hPattern
  obtain rfl := Except.ok.inj hRead
  obtain ⟨defaultNumTargets, c, -, hPattern⟩ := Wire.bind_eq_ok hPattern
  obtain ⟨targets, c', -, hPattern⟩ := Wire.bind_eq_ok hPattern
  obtain ⟨rfl, -⟩ := Prod.mk.inj (Except.ok.inj hPattern)
  exact ⟨hPower, hNonzero, hPower, hNonzero, rfl⟩

theorem Built.sizedFrom {p : StripePattern} (h : Built p) : SizedFrom p.chunkSize p := by
  cases h with
  | raid0 stripeTargetIDs defaultNumTargets h
  | raid10 stripeTargetIDs mirrorTargetIDs defaultNumTargets h
  | buddyMirror mirrorBuddyGroupIDs defaultNumTargets h => exact sizedFrom_create _ _ _ h
  | fromBuf h hRead => exact sizedFrom_fromBuf h hRead

variable {built : UInt32}

section

variable {p : StripePattern} (h : SizedFrom built p)
include h

theorem SizedFrom.cloneRaid10 (stripeTargets mirrorTargets : List UInt16) :
    (p.cloneRaid10 stripeTargets mirrorTargets).chunkSize = p.chunkSize ∧
      SizedFrom p.chunkSize (p.cloneRaid10 stripeTargets mirrorTargets) := by
  have hChunk : baseChunkSize p.getChunkSize = p.chunkSize := baseChunkSize_of_ne h.nonzero
  unfold StripePattern.cloneRaid10
  rw [hChunk]
  exact ⟨rfl, h.powerOfTwo, h.nonzero, h.powerOfTwo, h.nonzero, rfl⟩

theorem SizedFrom.create
    (targets : StripeTargets) (appDefaultNumTargets defaultNumTargets : UInt32) :
    (create targets appDefaultNumTargets p.getChunkSize defaultNumTargets).chunkSize = p.chunkSize ∧
      SizedFrom p.chunkSize
        (create targets appDefaultNumTargets p.getChunkSize defaultNumTargets) := by
  have hChunk : baseChunkSize p.getChunkSize = p.chunkSize := baseChunkSize_of_ne h.nonzero
  unfold StripePattern.create
  rw [hChunk]
  exact ⟨rfl, h.powerOfTwo, h.nonzero, h.powerOfTwo, h.nonzero, rfl⟩

theorem SizedFrom.cloneTargets (targetIDs : List UInt16) :
    (p.cloneTargets targetIDs).chunkSize = p.chunkSize ∧
      SizedFrom p.chunkSize (p.cloneTargets targetIDs) := by
  unfold StripePattern.cloneTargets
  split
  · exact h.create _ _ _
  · exact h.cloneRaid10 _ _
  · exact h.create _ _ _

theorem SizedFrom.clone : p.clone.chunkSize = p.chunkSize ∧ SizedFrom p.chunkSize p.clone := by
  unfold StripePattern.clone
  split
  · exact h.cloneTargets _
  · exact h.create _ _ _
  · exact h.cloneTargets _

end

variable (targetIDs : List UInt16)

theorem length_setStripeTargetIDs :
    (targets.setStripeTargetIDs targetIDs).getStripeTargetIDs = targetIDs := by
  cases targets <;> rfl

theorem SizedFrom.updateStripeTargetIDs {p : StripePattern}
    (h : SizedFrom built p) (updatedStripePattern : Option StripePattern) :
    (p.updateStripeTargetIDs updatedStripePattern).2.chunkSize = p.chunkSize ∧
      SizedFrom built (p.updateStripeTargetIDs updatedStripePattern).2 := by
  unfold StripePattern.updateStripeTargetIDs
  split
  · exact ⟨rfl, h⟩
  rename_i updated
  split
  · exact ⟨rfl, h⟩
  rename_i hLength
  refine ⟨rfl, h.powerOfTwo, h.nonzero, h.builtPowerOfTwo, h.builtNonzero, ?_⟩
  show p.stripeSetSize = _
  unfold computeStripeSetSize
  rw [length_setStripeTargetIDs, ← not_not.mp hLength]
  exact h.stripeSetSize

theorem SizedFrom.after {p : StripePattern} (h : SizedFrom built p)
    {calls : List PatternCall} (hAllowed : EveryStep step Allowed p calls) :
    (after step p calls).chunkSize = (chunkSizesAfter (built, p.chunkSize) calls).2 ∧
      SizedFrom (chunkSizesAfter (built, p.chunkSize) calls).1 (after step p calls) := by
  induction calls generalizing built p with
  | nil => exact ⟨rfl, h⟩
  | cons call calls ih =>
    -- after a clone the run goes on from one chunk size
    have hClone : ∀ q : StripePattern, step p call = q → q.chunkSize = p.chunkSize →
        SizedFrom p.chunkSize q →
        chunkSizesAfter (built, p.chunkSize) (call :: calls) =
          chunkSizesAfter (p.chunkSize, p.chunkSize) calls →
        (after step q calls).chunkSize =
            (chunkSizesAfter (built, p.chunkSize) (call :: calls)).2 ∧
          SizedFrom (chunkSizesAfter (built, p.chunkSize) (call :: calls)).1
            (after step q calls) := by
      rintro q rfl hChunk hSized hSizes
      have hRest := ih hSized hAllowed.2
      rw [hChunk] at hRest
      rwa [hSizes]
    cases call with
    | clone => exact hClone _ rfl h.clone.1 h.clone.2 rfl
    | cloneTargets targetIDs =>
      exact hClone _ rfl (h.cloneTargets targetIDs).1 (h.cloneTargets targetIDs).2 rfl
    | cloneDisjoint targetIDs | cloneRotated targetIDs =>
      exact hClone _ rfl (h.cloneRaid10 _ _).1 (h.cloneRaid10 _ _).2 rfl
    | setChunkSize chunkSize =>
      obtain ⟨hNonzero, hPower⟩ := hAllowed.1
      exact @ih built (p.setChunkSize chunkSize)
        ⟨hPower, hNonzero, h.builtPowerOfTwo, h.builtNonzero, h.stripeSetSize⟩ hAllowed.2
    | setDefaultNumTargets defaultNumTargets =>
      exact @ih built (p.setDefaultNumTargets defaultNumTargets)
        ⟨h.powerOfTwo, h.nonzero, h.builtPowerOfTwo, h.builtNonzero, h.stripeSetSize⟩ hAllowed.2
    | updateStripeTargetIDs updatedStripePattern =>
      obtain ⟨hChunk, hSized⟩ := h.updateStripeTargetIDs updatedStripePattern
      have hRest := ih hSized hAllowed.2
      rwa [hChunk] at hRest

/-! ## The mirrors of a Raid10 pattern -/

theorem mirrored_cloneDisjoint : (p.cloneDisjoint targetIDs).targets.Mirrored := by
  show (targetIDs.take (targetIDs.length / 2)).length = length (ite _ _ _)
  split_ifs with hOdd
  · rw [length_dropLast]
    rw [length_take, length_drop] at *
    omega
  · rw [length_take, length_drop] at *
    omega

theorem mirrored_cloneRotated : (p.cloneRotated targetIDs).targets.Mirrored := by
  show targetIDs.length = length (_ ++ _)
  rw [length_append, length_drop, length_take]
  omega

theorem mirrored_cloneTargets : (p.cloneTargets targetIDs).targets.Mirrored := by
  unfold cloneTargets
  split
  · trivial
  · exact mirrored_cloneDisjoint p targetIDs
  · trivial

theorem mirrored_clone : p.clone.targets.Mirrored ↔ p.targets.Mirrored := by
  obtain ⟨chunkSize, targets, stripeSetSize, defaultNumTargets⟩ := p
  cases targets <;> rfl

theorem mirrored_updateStripeTargetIDs (updatedStripePattern : Option StripePattern) :
    (p.updateStripeTargetIDs updatedStripePattern).2.targets.Mirrored ↔ p.targets.Mirrored := by
  unfold updateStripeTargetIDs
  split
  · rfl
  rename_i updated
  split
  · rfl
  rename_i hLength
  obtain ⟨chunkSize, targets, stripeSetSize, defaultNumTargets⟩ := p
  cases targets with
  | raid0 stripeTargetIDs => rfl
  | raid10 stripeTargetIDs mirrorTargetIDs =>
    show updated.getStripeTargetIDs.length = mirrorTargetIDs.length ↔ _
    rw [← not_not.mp hLength]
    rfl
  | buddyMirror mirrorBuddyGroupIDs => rfl

theorem mirrored_step (call : PatternCall) :
    (step p call).targets.Mirrored ↔ p.targets.Mirrored ∨ call.mirrors = true := by
  cases call with
  | clone => simpa [step, PatternCall.mirrors] using mirrored_clone p
  | cloneTargets targetIDs =>
    simpa [step, PatternCall.mirrors] using mirrored_cloneTargets p targetIDs
  | cloneDisjoint targetIDs =>
    simpa [step, PatternCall.mirrors] using mirrored_cloneDisjoint p targetIDs
  | cloneRotated targetIDs =>
    simpa [step, PatternCall.mirrors] using mirrored_cloneRotated p targetIDs
  | setChunkSize chunkSize => simp [PatternCall.mirrors, step, setChunkSize]
  | setDefaultNumTargets defaultNumTargets =>
    simp [PatternCall.mirrors, step, setDefaultNumTargets]
  | updateStripeTargetIDs updatedStripePattern =>
    simpa [step, PatternCall.mirrors] using mirrored_updateStripeTargetIDs p updatedStripePattern

theorem mirrored_after (calls : List PatternCall) :
    (after step p calls).targets.Mirrored ↔ p.GetsMirrors calls := by
  unfold GetsMirrors
  induction calls generalizing p with
  | nil => simp
  | cons call calls ih =>
    rw [after_cons, ih, mirrored_step, or_assoc]
    simp only [mem_cons, exists_eq_or_imp]

/-! ## When readers are right -/

theorem eq_of_mul_mod {n a b : Nat} (hn : 0 < n) (hFits : n * 2 ^ b < 2 ^ 32)
    (h : n * 2 ^ a % 2 ^ 32 = n * 2 ^ b) : a = b := by
  rcases lt_or_ge b a with hLarger | hLe
  · -- the product of the larger one would be 0
    exfalso
    obtain ⟨d, rfl⟩ : ∃ d, a = b + (d + 1) := ⟨a - b - 1, by omega⟩
    have hOne : 1 ≤ 2 ^ (d + 1) := Nat.one_le_two_pow
    have hProduct : n * 2 ^ (b + (d + 1)) = n * 2 ^ b + n * 2 ^ b * (2 ^ (d + 1) - 1) := by
      rw [Nat.mul_sub, mul_one, pow_add, ← mul_assoc, Nat.add_sub_cancel']
      exact Nat.le_mul_of_pos_right _ hOne
    have hDvd : 2 ^ 32 ∣ n * 2 ^ b * (2 ^ (d + 1) - 1) := by
      refine ⟨n * 2 ^ (b + (d + 1)) / 2 ^ 32, ?_⟩
      omega
    have hOdd : Nat.Coprime (2 ^ 32) (2 ^ (d + 1) - 1) := by
      apply Nat.Coprime.pow_left
      rw [Nat.coprime_two_left]
      refine ⟨2 ^ d - 1, ?_⟩
      rw [pow_succ]
      omega
    have hLe := Nat.le_of_dvd (Nat.mul_pos hn (Nat.two_pow_pos b)) (hOdd.dvd_of_dvd_mul_right hDvd)
    omega
  · have hSmall : n * 2 ^ a < 2 ^ 32 := by
      refine lt_of_le_of_lt ?_ hFits
      exact Nat.mul_le_mul_left n (Nat.pow_le_pow_right (by omega) hLe)
    rw [Nat.mod_eq_of_lt hSmall] at h
    exact Nat.pow_right_injective le_rfl (Nat.eq_of_mul_eq_mul_left hn h)

theorem SizedFrom.right_iff {p : StripePattern} (h : SizedFrom built p)
    (hTargets : p.getStripeTargetIDs ≠ []) (hFits : p.setSize < 2 ^ 32) :
    p.StripeSetsRight ↔ built = p.chunkSize ∧ p.targets.Mirrored := by
  constructor
  · intro hRight
    refine ⟨?_, hRight.mirrored⟩
    obtain ⟨a, ha⟩ := (isPowerOfTwo_iff h.builtNonzero).mp h.builtPowerOfTwo
    obtain ⟨b, hb⟩ := (isPowerOfTwo_iff h.nonzero).mp h.powerOfTwo
    have hSize := hRight.size
    rw [h.stripeSetSize, computeStripeSetSize, UInt32.toNat_ofNat', ha, hb] at hSize
    unfold setSize at hFits
    rw [hb] at hFits
    rw [← UInt32.toNat_inj, ha, hb, eq_of_mul_mod (length_pos_of_ne_nil hTargets) hFits hSize]
  · rintro ⟨rfl, hMirrored⟩
    have hSized : p.Sized := ⟨h.powerOfTwo, h.nonzero, hTargets, h.stripeSetSize⟩
    refine ⟨?_, hMirrored, ?_⟩
    · rw [hSized.toNat_stripeSetSize, Nat.mod_eq_of_lt hFits]
      rfl
    · intro pos m hPos
      rw [hSized.getStripeTargetIndex_eq hFits.le hPos]
      exact ⟨Nat.mod_lt _ hSized.numTargets_pos, rfl⟩

theorem getMinNumTargets_pos : 0 < targets.getMinNumTargets.toNat := by
  cases targets with
  | raid0 stripeTargetIDs => exact one_pos
  | raid10 stripeTargetIDs mirrorTargetIDs => exact Nat.two_pos
  | buddyMirror mirrorBuddyGroupIDs => exact one_pos

theorem cloneTargets_ne_nil {targetIDs : List UInt16}
    (h : p.getMinNumTargets.toNat ≤ targetIDs.length) :
    (p.cloneTargets targetIDs).getStripeTargetIDs ≠ [] := by
  obtain ⟨chunkSize, targets, stripeSetSize, defaultNumTargets⟩ := p
  apply ne_nil_of_length_pos
  cases targets with
  | raid0 stripeTargetIDs => exact h
  | raid10 stripeTargetIDs mirrorTargetIDs =>
    have hTwo : 2 ≤ targetIDs.length := h
    show 0 < (targetIDs.take (targetIDs.length / 2)).length
    rw [length_take]
    omega
  | buddyMirror mirrorBuddyGroupIDs => exact h

theorem SizedFrom.cloneForFile {p : StripePattern} (h : SizedFrom built p)
    (tuneRotateMirrorTargets : Bool) {stripeTargets : List UInt16}
    (hEnough : p.getMinNumTargets.toNat ≤ stripeTargets.length) :
    SizedFrom p.chunkSize (cloneForFile tuneRotateMirrorTargets p stripeTargets) ∧
      (cloneForFile tuneRotateMirrorTargets p stripeTargets).getStripeTargetIDs ≠ [] ∧
      (cloneForFile tuneRotateMirrorTargets p stripeTargets).targets.Mirrored := by
  unfold Fhgfs.cloneForFile
  split
  · refine ⟨(h.cloneRaid10 _ _).2, ?_, mirrored_cloneRotated p stripeTargets⟩
    exact ne_nil_of_length_pos ((getMinNumTargets_pos p.targets).trans_le hEnough)
  · exact ⟨(h.cloneTargets _).2, cloneTargets_ne_nil p hEnough, mirrored_cloneTargets p _⟩

/-- A new file has the chunk size that was asked for, and stripe sets of that of the directory. -/
theorem createFileStripePatternUnlocked_spec {p file : StripePattern}
    (h : SizedFrom built p) {tuneRotateMirrorTargets : Bool}
    {chooseTargets : UInt32 → UInt32 → List UInt16} {numtargets chunksize : UInt32}
    (hFile : createFileStripePatternUnlocked tuneRotateMirrorTargets (some p) chooseTargets
      numtargets chunksize = some file) :
    file.chunkSize = (if chunksize = 0 then p.chunkSize else chunksize) ∧
      SizedFrom p.chunkSize file ∧ file.getStripeTargetIDs ≠ [] ∧ file.targets.Mirrored := by
  unfold createFileStripePatternUnlocked at hFile
  simp only at hFile
  by_cases hInvalid : chunksize ≠ 0 ∧
      (chunksize < STRIPEPATTERN_MIN_CHUNKSIZE ∨ ¬isPowerOfTwo chunksize = true)
  · rw [if_pos hInvalid] at hFile
    cases hFile
  rw [if_neg hInvalid] at hFile
  by_cases hFew : (chooseTargets (desiredNumTargets p numtargets) p.getMinNumTargets).length <
      p.getMinNumTargets.toNat
  · rw [if_pos hFew] at hFile
    cases hFile
  rw [if_neg hFew] at hFile
  cases hFile
  obtain ⟨hSized, hTargets, hMirrored⟩ := h.cloneForFile tuneRotateMirrorTargets (not_lt.mp hFew)
  refine ⟨rfl, ⟨?_, ?_, h.powerOfTwo, h.nonzero, hSized.stripeSetSize⟩, hTargets, hMirrored⟩
  · show isPowerOfTwo (ite _ _ _) = true
    split_ifs with hZero
    · exact h.powerOfTwo
    · simp only [not_and_or, not_or, not_not] at hInvalid
      exact (hInvalid.resolve_left hZero).2
  · show ite _ _ _ ≠ (0 : UInt32)
    split_ifs with hZero
    · exact h.nonzero
    · exact hZero

/-- The stripe sets of a pattern are right exactly if it has the chunk size it was built with,
and mirrors if it needs them. Those of a new file are right exactly if it has the chunk size of
its directory. -/
theorem stripeSets_right_iff {p : StripePattern} {calls : List PatternCall} (hBuilt : Built p)
    (hAllowed : Run.EveryStep step Allowed p calls) :
    ((Run.after step p calls).getStripeTargetIDs ≠ [] →
      (Run.after step p calls).setSize < 2 ^ 32 →
        ((Run.after step p calls).StripeSetsRight ↔
          p.KeepsChunkSize calls ∧ p.GetsMirrors calls)) ∧
      ∀ (tuneRotateMirrorTargets : Bool) (chooseTargets : UInt32 → UInt32 → List UInt16)
        (numtargets chunksize : UInt32) (file : StripePattern),
        createFileStripePatternUnlocked tuneRotateMirrorTargets (some (Run.after step p calls))
          chooseTargets numtargets chunksize = some file →
        file.setSize < 2 ^ 32 →
          (file.StripeSetsRight ↔
            chunksize = 0 ∨ chunksize = (Run.after step p calls).getChunkSize) := by
  obtain ⟨hChunk, hSized⟩ := hBuilt.sizedFrom.after hAllowed
  constructor
  · intro hTargets hFits
    rw [hSized.right_iff hTargets hFits, mirrored_after, hChunk]
    rfl
  · intro tuneRotateMirrorTargets chooseTargets numtargets chunksize file hFile hFits
    obtain ⟨hFileChunk, hFileSized, hTargets, hMirrored⟩ :=
      createFileStripePatternUnlocked_spec hSized hFile
    rw [hFileSized.right_iff hTargets hFits, and_iff_left hMirrored, hFileChunk]
    split_ifs with hZero
    · exact ⟨fun _ => Or.inl hZero, fun _ => rfl⟩
    · rw [or_iff_right hZero]
      exact eq_comm

/-- A clone after a new chunk size, and a file with two mirrored targets in that directory. -/
theorem stripeSets_right_iff_clone :
    let p := raid10Pattern 65536 [1, 2] [2, 1] 0
    let calls := [.setChunkSize 131072, .cloneRotated [3, 4, 5]]
    (Run.after step p calls).StripeSetsRight ∧ ∃ file, createFileStripePatternUnlocked true
      (some (Run.after step p calls)) (fun _ _ => [6, 7]) 2 0 = some file ∧
        file.StripeSetsRight := by
  intro p calls
  have hBuilt : Built p := .raid10 _ _ _ (by decide)
  have hAllowed : EveryStep step Allowed p calls := ⟨⟨by decide, by decide⟩, rfl, trivial⟩
  have hRight := stripeSets_right_iff hBuilt hAllowed
  refine ⟨(hRight.1 (by decide) (by decide)).mpr ⟨rfl, Or.inr ⟨_, mem_cons_of_mem _ mem_cons_self,
    rfl⟩⟩, _, rfl, ?_⟩
  exact (hRight.2 true (fun _ _ => [6, 7]) 2 0 _ rfl (by decide)).mpr (Or.inl rfl)

/-- A file with chunks of 64 KiB in a directory with chunks of 512 KiB: the last chunk of what is
taken for a stripe set gets the target index 31, of four. -/
theorem not_stripeSets_right :
    ∃ file : StripePattern,
      createFileStripePatternUnlocked false (some (raid0Pattern 524288 [] 4))
        (fun _ _ => [1, 2, 3, 4]) 4 65536 = some file ∧
      file.getNumStripeTargetIDs = 4 ∧ file.setSize < 2 ^ 32 ∧
      file.getStripeTargetIndex 2031616 = 31 ∧ ¬file.StripeSetsRight := by
  refine ⟨⟨65536, .raid0 [1, 2, 3, 4], 2097152, 4⟩, by decide, rfl, by decide, by decide, ?_⟩
  intro hRight
  exact absurd hRight.size (by decide)

end StripePattern

end Fhgfs
