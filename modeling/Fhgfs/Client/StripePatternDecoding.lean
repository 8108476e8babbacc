import Fhgfs.Common.StripePattern
import Fhgfs.Common.DecodingBounds

/-!
# Stripe patterns on the wire

A server writes a pattern, and servers and clients read it back. The header announces the length
of the pattern. It is compared with the length of the header, but not with the one of the buffer,
and `createFromBuf` reads as far as it says.

* `decodesBack_iff`: a pattern with targets is restored exactly if it has a chunk size.
* `stripePattern_contained_iff`: both decoders stay inside of a buffer exactly if its header is
  not accepted or announces at most the length of the buffer.
-/

namespace Fhgfs.Client

open Wire Fhgfs.Serialization

/-- The vectors of `deserializePattern`, by the type of the pattern. The client does not accept
files without targets; a Raid10 pattern is not checked. -/
def StripeTargets.deserialize (patternType : UInt32) : Reader StripeTargets :=
  if patternType = STRIPEPATTERN_Raid0 then do
    let stripeTargetIDs ← deserializeUInt16Vector
    ensure (!stripeTargetIDs.isEmpty)
    pure (.raid0 stripeTargetIDs)
  else if patternType = STRIPEPATTERN_Raid10 then do
    let stripeTargetIDs ← deserializeUInt16Vector
    let mirrorTargetIDs ← deserializeUInt16Vector
    pure (.raid10 stripeTargetIDs mirrorTargetIDs)
  else if patternType = STRIPEPATTERN_BuddyMirror then do
    let mirrorBuddyGroupIDs ← deserializeUInt16Vector
    ensure (!mirrorBuddyGroupIDs.isEmpty)
    pure (.buddyMirror mirrorBuddyGroupIDs)
  else reject

namespace StripePattern

def deserializePattern (header : StripePatternHeader) : Reader StripePattern := do
  let defaultNumTargets ← deserializeUInt
  let targets ← StripeTargets.deserialize header.patternType
  let stripeSetSize := Fhgfs.StripePattern.computeStripeSetSize header.chunkSize targets
  pure ⟨header.chunkSize, targets, stripeSetSize, defaultNumTargets⟩

/-- `StripePattern_createFromBuf`. The constructors of the client keep a chunk size of 0. -/
def createFromBuf (patternStart : Wire.Cursor) (header : StripePatternHeader) :
    Except ReadError StripePattern :=
  let buf := patternStart.advance STRIPEPATTERN_HEADER_LENGTH
  match deserializePattern header ⟨buf.mem, header.patternLength - STRIPEPATTERN_HEADER_LENGTH⟩
  with
  | .error e => .error e
  | .ok (pattern, _) => .ok pattern

end StripePattern

end Fhgfs.Client

namespace Fhgfs.StripePattern

open Wire Fhgfs.Serialization

/-! ## The two passes -/

/-- What the pre-processing gives to its caller, beside the length of the pattern. -/
structure StripePatternInfo where
  header : StripePatternHeader
  patternStart : Wire.Cursor

def deserializePatternPreprocess (recvBuf : Wire.Cursor) : Except ReadError StripePatternInfo :=
  match deserializeHeader recvBuf with
  | .error e => .error e
  | .ok (header, _) => .ok ⟨header, recvBuf⟩

/-- `outPatternLength` is the length in the header. -/
def decoderOf (createFromBuf : Wire.Cursor → StripePatternHeader → Except ReadError StripePattern) :
    Decoder StripePatternInfo StripePattern where
  preprocess := deserializePatternPreprocess
  outLen info := info.header.patternLength
  deserialize info := createFromBuf info.patternStart info.header

def decoder : Decoder StripePatternInfo StripePattern := decoderOf createFromBuf

/-- The header is read by the same code in the client. -/
def clientDecoder : Decoder StripePatternInfo StripePattern :=
  decoderOf Client.StripePattern.createFromBuf

/-- For headers with a chunk size, the second pass is `read` on what the header announces. -/
def Creates (createFromBuf : Wire.Cursor → StripePatternHeader → Except ReadError StripePattern)
    (read : StripePatternHeader → Reader StripePattern) : Prop :=
  ∀ c header, header.chunkSize ≠ 0 → createFromBuf c header =
    match read header ⟨c.mem.drop STRIPEPATTERN_HEADER_LENGTH,
      header.patternLength - STRIPEPATTERN_HEADER_LENGTH⟩ with
    | .error e => .error e
    | .ok (pattern, _) => .ok pattern

theorem creates_server : Creates createFromBuf deserializePattern := by
  intro c header hChunk
  unfold createFromBuf
  rw [baseChunkSize, if_neg hChunk]
  rfl

theorem creates_client :
    Creates Client.StripePattern.createFromBuf Client.StripePattern.deserializePattern :=
  fun _ _ _ => rfl

/-! ## The header -/

section Header

variable {buf : List UInt8}

theorem uint_of (h : 4 ≤ buf.length) :
    deserializeUInt (.of buf) = .ok (UInt32.ofNat (leAt 4 buf 0), .of (buf.drop 4)) :=
  map_of_ok _ (readLe_of h)

theorem uint_of_short (h : buf.length < 4) : deserializeUInt (.of buf) = .error .rejected :=
  map_of_error _ (readLe_of_short h)

theorem toNat_leAt (buf : List UInt8) (offset : Nat) :
    (UInt32.ofNat (leAt 4 buf offset)).toNat = leAt 4 buf offset := by
  rw [UInt32.toNat_ofNat', Nat.mod_eq_of_lt (leAt_four_lt buf offset)]

theorem preprocess_of_short (h : buf.length < STRIPEPATTERN_HEADER_LENGTH) :
    deserializePatternPreprocess (.of buf) = .error .rejected := by
  have hHeader : deserializeHeader (.of buf) = .error .rejected := by
    unfold deserializeHeader
    by_cases hFirst : buf.length < 4
    · exact bind_of_error (uint_of_short hFirst)
    rw [bind_of_ok (uint_of (by omega))]
    by_cases hSecond : buf.length < 8
    · exact bind_of_error (uint_of_short (by rw [List.length_drop]; omega))
    rw [bind_of_ok (uint_of (by rw [List.length_drop]; omega))]
    have hThird : ((buf.drop 4).drop 4).length < 4 := by
      rw [List.length_drop, List.length_drop]
      rw [STRIPEPATTERN_HEADER_LENGTH] at h
      omega
    exact bind_of_error (uint_of_short hThird)
  rw [deserializePatternPreprocess, hHeader]

def headerOf (buf : List UInt8) : StripePatternHeader :=
  ⟨leAt 4 buf 0, UInt32.ofNat (leAt 4 buf 4), UInt32.ofNat (leAt 4 buf 8)⟩

theorem preprocess_of (h : STRIPEPATTERN_HEADER_LENGTH ≤ buf.length) :
    deserializePatternPreprocess (.of buf) =
      if leAt 4 buf 0 < STRIPEPATTERN_HEADER_LENGTH ∨ leAt 4 buf 8 = 0 then .error .rejected
      else .ok ⟨headerOf buf, .of buf⟩ := by
  rw [STRIPEPATTERN_HEADER_LENGTH] at h
  have hZero : UInt32.ofNat (leAt 4 buf 8) = 0 ↔ leAt 4 buf 8 = 0 := by
    rw [← UInt32.toNat_inj, toNat_leAt]
    rfl
  unfold deserializePatternPreprocess deserializeHeader
  rw [bind_of_ok (uint_of (by omega)), bind_of_ok (uint_of (by rw [List.length_drop]; omega)),
    bind_of_ok (uint_of (by rw [List.length_drop, List.length_drop]; omega))]
  simp only [leAt_drop, toNat_leAt, hZero]
  by_cases hLength : leAt 4 buf 0 < STRIPEPATTERN_HEADER_LENGTH
  · rw [if_pos hLength, if_pos (.inl hLength)]
    rfl
  by_cases hChunk : leAt 4 buf 8 = 0
  · rw [if_neg hLength, if_pos hChunk, if_pos (.inr hChunk)]
    rfl
  · rw [if_neg hLength, if_neg hChunk, if_neg (by rintro (h | h) <;> contradiction)]
    rfl

end Header

/-! ## Bounds -/

theorem bounded_uint : Bounded deserializeUInt := (Bounded.readLe 4).map _

theorem bounded_targets (patternType : UInt32) :
    Bounded (StripeTargets.deserialize patternType) := by
  have hVector : Bounded deserializeUInt16Vector := bounded_vector bounded_uint16
  unfold StripeTargets.deserialize
  split
  · exact hVector.bind fun _ => .pure _
  split
  · exact hVector.bind fun _ => hVector.bind fun _ => .pure _
  split
  · exact hVector.bind fun _ => .pure _
  · exact .reject

theorem bounded_clientTargets (patternType : UInt32) :
    Bounded (Client.StripeTargets.deserialize patternType) := by
  have hVector : Bounded deserializeUInt16Vector := bounded_vector bounded_uint16
  unfold Client.StripeTargets.deserialize
  split
  · exact hVector.bind fun _ => (Bounded.ensure _).bind fun _ => .pure _
  split
  · exact hVector.bind fun _ => hVector.bind fun _ => .pure _
  split
  · exact hVector.bind fun _ => (Bounded.ensure _).bind fun _ => .pure _
  · exact .reject

theorem bounded_pattern (header : StripePatternHeader) : Bounded (deserializePattern header) :=
  bounded_uint.bind fun _ => (bounded_targets _).bind fun _ => .pure _

theorem bounded_clientPattern (header : StripePatternHeader) :
    Bounded (Client.StripePattern.deserializePattern header) :=
  bounded_uint.bind fun _ => (bounded_clientTargets _).bind fun _ => .pure _

/-- The header is accepted, and announces more than the buffer has. -/
def AnnouncesTooMuch (buf : List UInt8) : Prop :=
  STRIPEPATTERN_HEADER_LENGTH ≤ buf.length ∧ buf.length < leAt 4 buf 0 ∧ leAt 4 buf 8 ≠ 0

instance (buf : List UInt8) : Decidable (AnnouncesTooMuch buf) :=
  inferInstanceAs (Decidable (_ ∧ _ ∧ _))

section Bounds

variable {create : Wire.Cursor → StripePatternHeader → Except ReadError StripePattern}
  {read : StripePatternHeader → Reader StripePattern} {buf : List UInt8}

theorem contained_iff_of_creates (buf : List UInt8) (hCreate : Creates create read)
    (hBounded : ∀ header, Bounded (read header)) :
    (decoderOf create).Contained 0 buf ↔ ¬ AnnouncesTooMuch buf := by
  by_cases hShort : buf.length < STRIPEPATTERN_HEADER_LENGTH
  · apply iff_of_true (Decoder.contained_of_rejected (preprocess_of_short hShort))
    exact fun h => not_le.mpr hShort h.1
  have hRun : (decoderOf create).preprocess (.of buf) = _ := preprocess_of (Nat.le_of_not_lt hShort)
  by_cases hRejected : leAt 4 buf 0 < STRIPEPATTERN_HEADER_LENGTH ∨ leAt 4 buf 8 = 0
  · rw [if_pos hRejected] at hRun
    apply iff_of_true (Decoder.contained_of_rejected hRun)
    rintro ⟨hHeader, hLength, hChunk⟩
    rcases hRejected with hMin | hZero
    · omega
    · exact hChunk hZero
  rw [if_neg hRejected] at hRun
  obtain ⟨hMin, hChunk⟩ := not_or.mp hRejected
  rw [Decoder.contained_iff hRun]
  show 0 ≤ _ ∧ leAt 4 buf 0 ≤ buf.length ∧ create (.of buf) (headerOf buf) ≠ _ ↔ _
  constructor
  · rintro ⟨-, hLength, -⟩ ⟨-, hTooMuch, -⟩
    omega
  · intro hNot
    have hLength : leAt 4 buf 0 ≤ buf.length := by
      by_contra hTooMuch
      exact hNot ⟨Nat.le_of_not_lt hShort, Nat.lt_of_not_le hTooMuch, hChunk⟩
    refine ⟨Nat.zero_le _, hLength, ?_⟩
    have hChunkSize : (headerOf buf).chunkSize ≠ 0 := by
      intro hZero
      apply hChunk
      rw [← toNat_leAt]
      exact congrArg UInt32.toNat hZero
    have hTold : (headerOf buf).patternLength - STRIPEPATTERN_HEADER_LENGTH ≤
        (buf.drop STRIPEPATTERN_HEADER_LENGTH).length := by
      rw [List.length_drop]
      exact Nat.sub_le_sub_right hLength _
    have hRead := (hBounded (headerOf buf) ⟨_, _⟩ hTold).1
    rw [hCreate _ _ hChunkSize, Cursor.of_mem]
    split
    next hError =>
      rintro ⟨⟩
      exact hRead hError
    next => exact nofun

end Bounds

theorem stripePattern_contained_iff (buf : List UInt8) :
    decoder.Contained 0 buf ∧ clientDecoder.Contained 0 buf ↔ ¬ AnnouncesTooMuch buf := by
  have hServer := contained_iff_of_creates buf creates_server bounded_pattern
  have hClient := contained_iff_of_creates buf creates_client bounded_clientPattern
  exact ⟨fun h => hServer.mp h.1, fun h => ⟨hServer.mpr h, hClient.mpr h⟩⟩

/-! ## Round trip -/

/-- The two passes give the pattern back, with its length. The size of the stripe sets is computed
from the targets. -/
def ReadsBack (d : Decoder StripePatternInfo StripePattern) (p : StripePattern)
    (mem rest : List UInt8) : Prop :=
  ∃ info, d.preprocess (.of (mem ++ rest)) = .ok info ∧ d.outLen info = mem.length ∧
    d.deserialize info = .ok p.normalized

/-- Whatever follows the bytes that were written, their number is the one in the header, and both
sides read the pattern back. -/
def Restored (p : StripePattern) : Prop :=
  ∀ mem rest, Fills p.serialize mem →
    leAt 4 mem 0 = mem.length ∧ p.targets.serialLen = mem.length ∧
      ReadsBack decoder p mem rest ∧ ReadsBack clientDecoder p mem rest

section RoundTrip

variable {p : StripePattern} {mem : List UInt8}

theorem reads_clientTargets {targets : StripeTargets} (hSome : targets.getStripeTargetIDs ≠ [])
    (hFits : targets.serialize.length < 2 ^ 32) :
    Reads (Client.StripeTargets.deserialize targets.patternType) targets.serialize targets := by
  have hEnsure : (!targets.getStripeTargetIDs.isEmpty) = true := by
    rwa [Bool.not_eq_true', List.isEmpty_eq_false_iff]
  cases targets with
  | raid0 stripeTargetIDs | buddyMirror mirrorBuddyGroupIDs =>
    apply (reads_uint16Vector hFits).bind_of_nil
    apply (Reads.ensure hEnsure).bind_of_nil
    exact .pure _
  | raid10 stripeTargetIDs mirrorTargetIDs =>
    simp only [StripeTargets.serialize, List.length_append] at hFits
    apply (reads_uint16Vector (by omega)).bind
    apply (reads_uint16Vector (by omega)).bind_of_nil
    exact .pure _

theorem reads_clientPattern (patternLength : Nat) (hSome : p.getStripeTargetIDs ≠ [])
    (hFits : p.serialize.length < 2 ^ 32) :
    Reads (Client.StripePattern.deserializePattern ⟨patternLength, p.getPatternType, p.chunkSize⟩)
      p.serializePattern p.normalized := by
  have hTargets : p.targets.serialize.length < 2 ^ 32 := by
    simp only [serialize, serializePattern, List.length_append] at hFits
    omega
  apply (reads_uint p.defaultNumTargets).bind
  apply (reads_clientTargets hSome hTargets).bind_of_nil
  exact .pure _

theorem preprocess_serialize (hChunk : p.chunkSize ≠ 0) (hFits : p.serialize.length < 2 ^ 32)
    (hFills : Fills p.serialize mem) (rest : List UInt8) :
    deserializePatternPreprocess (.of (mem ++ rest)) =
      .ok ⟨⟨mem.length, p.getPatternType, p.chunkSize⟩, .of (mem ++ rest)⟩ := by
  have hTotal := hFills.length_eq
  obtain ⟨header, pattern, rfl, hHeader, -⟩ := fills_append hFills
  have hRead := (reads_header hChunk hFits).of (pattern ++ rest) hHeader
  rw [← List.append_assoc] at hRead
  rw [deserializePatternPreprocess, hRead, hTotal]

theorem readsBack_of {create : Wire.Cursor → StripePatternHeader → Except ReadError StripePattern}
    {read : StripePatternHeader → Reader StripePattern} (hCreate : Creates create read)
    (hReads : ∀ patternLength, Reads (read ⟨patternLength, p.getPatternType, p.chunkSize⟩)
      p.serializePattern p.normalized)
    (hChunk : p.chunkSize ≠ 0) (hFits : p.serialize.length < 2 ^ 32)
    (hFills : Fills p.serialize mem) (rest : List UInt8) :
    ReadsBack (decoderOf create) p mem rest := by
  refine ⟨_, preprocess_serialize hChunk hFits hFills rest, rfl, ?_⟩
  obtain ⟨header, pattern, rfl, hHeader, hPattern⟩ := fills_append hFills
  have hHeaderLen : header.length = STRIPEPATTERN_HEADER_LENGTH := by
    rw [hHeader.length_eq, length_serializeHeader]
  have hBody : (header ++ pattern ++ rest).drop STRIPEPATTERN_HEADER_LENGTH = pattern ++ rest := by
    rw [List.append_assoc, ← hHeaderLen, List.drop_left]
  have hTold : pattern.length ≤ (header ++ pattern).length - STRIPEPATTERN_HEADER_LENGTH := by
    rw [List.length_append, hHeaderLen]
    omega
  have hRead := hReads (header ++ pattern).length pattern rest _ hPattern hTold
  show create (.of _) _ = _
  rw [hCreate _ _ hChunk, Cursor.of_mem, hBody, hRead]

section

variable (hSome : p.getStripeTargetIDs ≠ []) (hFits : p.serialize.length < 2 ^ 32)
include hSome hFits

theorem restored (hChunk : p.chunkSize ≠ 0) : Restored p := by
  intro mem rest hFills
  have hHeader : leAt 4 mem 0 = mem.length := by
    have hRun := preprocess_serialize hChunk hFits hFills []
    rw [List.append_nil, preprocess_of] at hRun
    · split at hRun
      · cases hRun
      · exact congrArg (fun info => info.header.patternLength) (Except.ok.inj hRun)
    · rw [hFills.length_eq, serialize, List.length_append, length_serializeHeader]
      exact Nat.le_add_right _ _
  have hLength : p.targets.serialLen = mem.length := by
    rw [← length_serialize, Nat.mod_eq_of_lt hFits, hFills.length_eq]
  refine ⟨hHeader, hLength, ?_, ?_⟩
  · exact readsBack_of creates_server (fun n => reads_pattern n hFits) hChunk hFits hFills rest
  · exact readsBack_of creates_client (fun n => reads_clientPattern n hSome hFits) hChunk hFits
      hFills rest

theorem decodesBack_iff : Restored p ↔ p.chunkSize ≠ 0 := by
  refine ⟨?_, restored hSome hFits⟩
  intro hRestored hZero
  have hFills := fills_fill (fun _ => 0) p.serialize
  obtain ⟨-, -, ⟨info, hInfo, -⟩, -⟩ := hRestored _ [] hFills
  obtain ⟨e, hError⟩ := (rejects_header hZero).append p.serializePattern _ [] _ hFills
    (le_rfl)
  rw [List.append_nil] at hInfo hError
  have hRun : decoder.preprocess (.of (fill (fun _ => 0) p.serialize)) = .error e := by
    show deserializePatternPreprocess _ = _
    rw [deserializePatternPreprocess, Cursor.of, hError]
  rw [hRun] at hInfo
  cases hInfo

end

end RoundTrip

/-- Patterns with targets are restored exactly if they have a chunk size, as every constructor
makes sure. The decoders stay inside of a buffer exactly if its header does not announce too
much. -/
theorem stripePatterns_encoded_iff (p : StripePattern) (buf : List UInt8) :
    (p.getStripeTargetIDs ≠ [] → p.serialize.length < 2 ^ 32 → (Restored p ↔ p.chunkSize ≠ 0)) ∧
    (decoder.Contained 0 buf ∧ clientDecoder.Contained 0 buf ↔ ¬ AnnouncesTooMuch buf) :=
  ⟨decodesBack_iff, stripePattern_contained_iff buf⟩

def mirroredPattern : StripePattern where
  chunkSize := STRIPEPATTERN_DEFAULT_CHUNKSIZE
  targets := .raid10 [101, 102] [201, 202]
  stripeSetSize := 2 * STRIPEPATTERN_DEFAULT_CHUNKSIZE
  defaultNumTargets := 4

theorem stripePatterns_encoded_iff_mirrored : Restored mirroredPattern :=
  ((stripePatterns_encoded_iff mirroredPattern []).1 (by decide) (by decide)).mpr (by decide)

/-- A header of a Raid0 pattern of 28 bytes, and nothing behind it. -/
def cutPattern : List UInt8 := [28, 0, 0, 0, 1, 0, 0, 0, 0, 0, 8, 0]

/-- The length of the pattern is larger than the one of the buffer, and `createFromBuf` reads the
default number of targets behind its end. -/
theorem not_stripePatterns_contained :
    ¬ ∀ buf : List UInt8, decoder.Contained 0 buf ∧ clientDecoder.Contained 0 buf := by
  intro h
  have hNot := (stripePattern_contained_iff cutPattern).mp (h cutPattern)
  apply hNot
  decide

end Fhgfs.StripePattern
