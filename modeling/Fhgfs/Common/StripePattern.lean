import Mathlib.Data.Nat.Log
import Fhgfs.Common.Serialization
import Fhgfs.Lib.Decoder

/-!
# Stripe patterns

A stripe pattern has the chunk size of a file and the targets its chunks are spread over.
-/

namespace Fhgfs

def STRIPEPATTERN_Invalid : UInt32 := 0
def STRIPEPATTERN_Raid0 : UInt32 := 1
def STRIPEPATTERN_Raid10 : UInt32 := 2
def STRIPEPATTERN_BuddyMirror : UInt32 := 3

/-- `MathTk::log2Int32`, for values other than zero. -/
def log2Int32 (value : UInt32) : UInt32 := UInt32.ofNat (Nat.log2 value.toNat)

/-- The conversion of an `unsigned` to `int64_t`. -/
def unsignedToInt64 (value : UInt32) : Int64 := value.toUInt64.toInt64

/-- The targets of the three kinds of patterns. -/
inductive StripeTargets
  | raid0 (stripeTargetIDs : List UInt16)
  | raid10 (stripeTargetIDs mirrorTargetIDs : List UInt16)
  | buddyMirror (mirrorBuddyGroupIDs : List UInt16)
deriving DecidableEq

namespace StripeTargets

def patternType : StripeTargets → UInt32
  | raid0 _ => STRIPEPATTERN_Raid0
  | raid10 _ _ => STRIPEPATTERN_Raid10
  | buddyMirror _ => STRIPEPATTERN_BuddyMirror

def getStripeTargetIDs : StripeTargets → List UInt16
  | raid0 stripeTargetIDs => stripeTargetIDs
  | raid10 stripeTargetIDs _ => stripeTargetIDs
  | buddyMirror mirrorBuddyGroupIDs => mirrorBuddyGroupIDs

end StripeTargets

def STRIPEPATTERN_DEFAULT_CHUNKSIZE : UInt32 := 1024 * 512

structure StripePattern where
  chunkSize : UInt32
  targets : StripeTargets
  stripeSetSize : UInt32
  defaultNumTargets : UInt32
deriving DecidableEq

namespace StripePattern

/-- The chunk size that the constructor of the base class stores, 0 being for the default. -/
def baseChunkSize (chunkSize : UInt32) : UInt32 :=
  if chunkSize = 0 then STRIPEPATTERN_DEFAULT_CHUNKSIZE else chunkSize

variable (p : StripePattern)

def getChunkSize : UInt32 := p.chunkSize

def getPatternType : UInt32 := p.targets.patternType

def getStripeTargetIDs (p : StripePattern) : List UInt16 := p.targets.getStripeTargetIDs

def getNumStripeTargetIDs : Nat := p.getStripeTargetIDs.length

end StripePattern

end Fhgfs

/-!
## Serialization of stripe patterns

A serialized pattern starts with a header: its length, its type and its chunk size.
`reads_stripePattern` is the round trip; the size of a stripe set is computed anew.
-/

namespace Fhgfs

open Wire Serialization

def STRIPEPATTERN_HEADER_LENGTH : Nat := 12

/-- The header of a serialized pattern, in host byte order. -/
structure StripePatternHeader where
  patternLength : Nat
  patternType : UInt32
  chunkSize : UInt32
deriving DecidableEq

namespace StripeTargets

def serialLen (targets : StripeTargets) : Nat :=
  let len :=
    match targets with
    | raid0 stripeTargetIDs => 8 + stripeTargetIDs.length * 2
    | raid10 stripeTargetIDs mirrorTargetIDs =>
      8 + stripeTargetIDs.length * 2 + (8 + mirrorTargetIDs.length * 2)
    | buddyMirror mirrorBuddyGroupIDs => 8 + mirrorBuddyGroupIDs.length * 2
  (STRIPEPATTERN_HEADER_LENGTH + 4 + len) % 2 ^ 32

/-- The vectors of `serializePattern`, which follow the default number of targets. -/
def serialize : StripeTargets → Encoding
  | raid0 stripeTargetIDs => serializeUInt16Vector stripeTargetIDs
  | raid10 stripeTargetIDs mirrorTargetIDs =>
    serializeUInt16Vector stripeTargetIDs ++ serializeUInt16Vector mirrorTargetIDs
  | buddyMirror mirrorBuddyGroupIDs => serializeUInt16Vector mirrorBuddyGroupIDs

/-- The vectors of `deserializePattern`, by the type of the pattern. -/
def deserialize (patternType : UInt32) : Reader StripeTargets :=
  if patternType = STRIPEPATTERN_Raid0 then do
    let stripeTargetIDs ← deserializeUInt16Vector
    pure (raid0 stripeTargetIDs)
  else if patternType = STRIPEPATTERN_Raid10 then do
    let stripeTargetIDs ← deserializeUInt16Vector
    let mirrorTargetIDs ← deserializeUInt16Vector
    pure (raid10 stripeTargetIDs mirrorTargetIDs)
  else if patternType = STRIPEPATTERN_BuddyMirror then do
    let mirrorBuddyGroupIDs ← deserializeUInt16Vector
    pure (buddyMirror mirrorBuddyGroupIDs)
  else reject

end StripeTargets

namespace StripePattern

def serializeHeader (p : StripePattern) : Encoding :=
  serializeUInt (UInt32.ofNat p.targets.serialLen) ++
    (serializeUInt p.getPatternType ++ serializeUInt p.chunkSize)

def serializePattern (p : StripePattern) : Encoding :=
  serializeUInt p.defaultNumTargets ++ p.targets.serialize

def serialize (p : StripePattern) : Encoding := p.serializeHeader ++ p.serializePattern

def deserializeHeader : Reader StripePatternHeader := do
  let patternLength ← deserializeUInt
  let patternType ← deserializeUInt
  let chunkSize ← deserializeUInt
  if patternLength.toNat < STRIPEPATTERN_HEADER_LENGTH then reject
  else if chunkSize = 0 then reject
  else pure ⟨patternLength.toNat, patternType, chunkSize⟩

/-- The size of a stripe set, computed as `unsigned`. -/
def computeStripeSetSize (chunkSize : UInt32) (targets : StripeTargets) : UInt32 :=
  UInt32.ofNat (targets.getStripeTargetIDs.length * chunkSize.toNat)

def deserializePattern (header : StripePatternHeader) : Reader StripePattern := do
  let defaultNumTargets ← deserializeUInt
  let targets ← StripeTargets.deserialize header.patternType
  pure ⟨header.chunkSize, targets, computeStripeSetSize header.chunkSize targets, defaultNumTargets⟩

/-- `createFromBuf`. A pattern of the type `STRIPEPATTERN_Invalid` is a rejection. -/
def createFromBuf (patternStart : Wire.Cursor) (header : StripePatternHeader) :
    Except ReadError StripePattern :=
  let buf := patternStart.advance STRIPEPATTERN_HEADER_LENGTH
  let pattern := { header with chunkSize := baseChunkSize header.chunkSize }
  match deserializePattern pattern ⟨buf.mem, header.patternLength - STRIPEPATTERN_HEADER_LENGTH⟩
  with
  | .error e => .error e
  | .ok (pattern, _) => .ok pattern

/-- `deserializePatternPreprocess` and `createFromBuf`. The caller goes on behind the pattern. -/
def deserialize : Reader StripePattern := fun c =>
  match deserializeHeader c with
  | .error e => .error e
  | .ok (header, _) =>
    match createFromBuf c header with
    | .error e => .error e
    | .ok pattern => .ok (pattern, c.advance header.patternLength)

/-- The pattern with the size of its stripe sets computed from its targets. -/
def normalized (p : StripePattern) : StripePattern :=
  { p with stripeSetSize := computeStripeSetSize p.chunkSize p.targets }

/-! ## Round trip -/

theorem length_serializeHeader (p : StripePattern) :
    p.serializeHeader.length = STRIPEPATTERN_HEADER_LENGTH := by
  rfl

theorem length_serialize (p : StripePattern) :
    p.serialize.length % 2 ^ 32 = p.targets.serialLen := by
  have hLength : p.serialize.length =
      STRIPEPATTERN_HEADER_LENGTH + 4 + p.targets.serialize.length := by
    simp only [serialize, serializePattern, List.length_append, length_serializeHeader,
      length_serializeUInt]
    omega
  rw [hLength]
  cases p.targets with
  | raid0 stripeTargetIDs | buddyMirror mirrorBuddyGroupIDs =>
    rw [StripeTargets.serialize, length_serializeUInt16Vector]
    rfl
  | raid10 stripeTargetIDs mirrorTargetIDs =>
    rw [StripeTargets.serialize, List.length_append, length_serializeUInt16Vector,
      length_serializeUInt16Vector]
    rfl

theorem reads_targets {targets : StripeTargets} (hFits : targets.serialize.length < 2 ^ 32) :
    Reads (StripeTargets.deserialize targets.patternType) targets.serialize targets := by
  cases targets with
  | raid0 stripeTargetIDs => exact (reads_uint16Vector hFits).bind_of_nil (.pure _)
  | raid10 stripeTargetIDs mirrorTargetIDs =>
    simp only [StripeTargets.serialize, List.length_append] at hFits
    apply (reads_uint16Vector (by omega)).bind
    apply (reads_uint16Vector (by omega)).bind_of_nil
    exact .pure _
  | buddyMirror mirrorBuddyGroupIDs =>
    exact (reads_uint16Vector hFits).bind_of_nil (.pure _)

variable {p : StripePattern}

theorem reads_header (hChunk : p.chunkSize ≠ 0) (hFits : p.serialize.length < 2 ^ 32) :
    Reads deserializeHeader p.serializeHeader
      ⟨p.serialize.length, p.getPatternType, p.chunkSize⟩ := by
  have hLength := length_serialize p
  rw [Nat.mod_eq_of_lt hFits] at hLength
  have hMin : STRIPEPATTERN_HEADER_LENGTH ≤ p.serialize.length := by
    rw [serialize, List.length_append, length_serializeHeader]
    exact Nat.le_add_right _ _
  have hValue : (UInt32.ofNat p.targets.serialLen).toNat = p.serialize.length := by
    rw [← hLength, UInt32.toNat_ofNat', Nat.mod_eq_of_lt hFits]
  apply (reads_uint _).bind
  apply (reads_uint _).bind
  apply (reads_uint _).bind_of_nil
  rw [hValue, if_neg (not_lt.mpr hMin), if_neg hChunk]
  exact .pure _

theorem reads_pattern (patternLength : Nat) (hFits : p.serialize.length < 2 ^ 32) :
    Reads (deserializePattern ⟨patternLength, p.getPatternType, p.chunkSize⟩) p.serializePattern
      p.normalized := by
  have hTargets : p.targets.serialize.length < 2 ^ 32 := by
    simp only [serialize, serializePattern, List.length_append] at hFits
    omega
  apply (reads_uint p.defaultNumTargets).bind
  apply (reads_targets hTargets).bind_of_nil
  exact .pure _

theorem reads_stripePattern (hChunk : p.chunkSize ≠ 0)
    (hFits : p.serialize.length < 2 ^ 32) : Reads deserialize p.serialize p.normalized := by
  intro mem rest bufLen hFills hLen
  have hTotal := hFills.length_eq
  obtain ⟨header, pattern, rfl, hHeader, hPattern⟩ := fills_append hFills
  have hHeaderLen : header.length = STRIPEPATTERN_HEADER_LENGTH := by
    rw [hHeader.length_eq, length_serializeHeader]
  rw [List.length_append] at hTotal hLen
  have hReadHeader := reads_header hChunk hFits header (pattern ++ rest) bufLen hHeader (by omega)
  have hReadPattern := reads_pattern p.serialize.length hFits pattern rest
    (p.serialize.length - STRIPEPATTERN_HEADER_LENGTH) hPattern (by omega)
  have hBody : Wire.Cursor.advance STRIPEPATTERN_HEADER_LENGTH
      ⟨header ++ pattern ++ rest, bufLen⟩ =
      ⟨pattern ++ rest, bufLen - STRIPEPATTERN_HEADER_LENGTH⟩ := by
    rw [List.append_assoc, ← hHeaderLen]
    exact advance_append _ (by omega)
  have hTotalLen : (header ++ pattern).length ≤ bufLen := by rwa [List.length_append]
  have hAdvance := advance_append rest hTotalLen
  rw [← List.append_assoc] at hReadHeader
  have hCreate : createFromBuf ⟨header ++ pattern ++ rest, bufLen⟩
      ⟨p.serialize.length, p.getPatternType, p.chunkSize⟩ = .ok p.normalized := by
    unfold createFromBuf
    rw [hBody, baseChunkSize, if_neg hChunk]
    show (match deserializePattern _ ⟨pattern ++ rest, _⟩ with
      | .error e => _
      | .ok (pattern, _) => _) = _
    rw [hReadPattern]
  unfold deserialize
  rw [hReadHeader]
  simp only
  rw [hCreate]
  rw [List.length_append, hTotal] at hAdvance
  rw [hAdvance, List.length_append, hTotal]

theorem rejects_header (h : p.chunkSize = 0) : Rejects deserializeHeader p.serializeHeader := by
  unfold deserializeHeader serializeHeader
  rw [← List.append_nil (serializeUInt p.chunkSize)]
  apply (reads_uint _).bind_rejects
  apply (reads_uint _).bind_rejects
  apply (reads_uint _).bind_rejects
  split
  · exact .reject
  · exact .reject

theorem rejects_stripePattern (h : p.chunkSize = 0) : Rejects deserialize p.serialize := by
  intro mem rest bufLen hFills hLen
  obtain ⟨e, hError⟩ := (rejects_header h).append p.serializePattern mem rest bufLen hFills hLen
  refine ⟨e, ?_⟩
  rw [deserialize, hError]

end StripePattern

end Fhgfs
