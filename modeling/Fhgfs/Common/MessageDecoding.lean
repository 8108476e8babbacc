import Fhgfs.Common.NodeListBounds
import Fhgfs.Common.QuotaDataSerialization

/-!
# Decoding of messages on the servers

Which buffers the decoders of the servers stay inside of. The decoders of lists and sets of strings
and of vectors of numbers always do. The others have a condition on the lengths that the buffer
announces.

* `TargetsFit`: the quota data of the targets. The second pass may go 8 bytes too far, since the
  length that it is told starts with the two fields in front of the map, and it reads as many
  elements as are announced, while the first pass computes their size as `unsigned`.
* `decoders_containedWhen`: the condition of each decoder.
-/

namespace Fhgfs.Serialization

open Wire Moves List Cursor

/-! ## Quota data -/

section QuotaData

variable {c : Wire.Cursor} {p : Nat}

theorem deserializeQuotaData_moves (hLen : p + 25 ≤ c.mem.length) (hMax : p + 25 ≤ 2 ^ 64) :
    Moves deserializeQuotaData c p (p + 25) := by
  apply Moves.bind (.peekLe (by omega) (by omega))
  intro size
  apply Moves.bind (.peekLe (by omega) (by omega))
  intro inodes
  apply Moves.bind (.peekLe (by omega) (by omega))
  intro id
  apply Moves.bind (.peekLe (by omega) (by omega))
  intro type
  apply Moves.bind (.peekLe (by omega) (by omega))
  intro valid
  exact .pure _

theorem deserializeQuotaData_outOfBounds (h : c.mem.length < p + 25) (hMax : p + 25 ≤ 2 ^ 64) :
    deserializeQuotaData (c.advance p) = .error .outOfBounds := by
  by_cases hSize : c.mem.length < p + 8
  · exact bind_outOfBounds _ (peekLe_outOfBounds hSize (by omega))
  apply (Moves.peekLe (by omega) (by omega)).outOfBounds
  intro size
  by_cases hInodes : c.mem.length < p + 16
  · exact bind_outOfBounds _ (peekLe_outOfBounds (by omega) (by omega))
  apply (Moves.peekLe (by omega) (by omega)).outOfBounds
  intro inodes
  by_cases hID : c.mem.length < p + 20
  · exact bind_outOfBounds _ (peekLe_outOfBounds (by omega) (by omega))
  apply (Moves.peekLe (by omega) (by omega)).outOfBounds
  intro id
  by_cases hType : c.mem.length < p + 24
  · exact bind_outOfBounds _ (peekLe_outOfBounds (by omega) (by omega))
  apply (Moves.peekLe (by omega) (by omega)).outOfBounds
  intro type
  exact bind_outOfBounds _ (peekLe_outOfBounds (by omega) (by omega))

theorem deserializeQuotaDataMap_cases {info : VectorInfo} (h : info.vecStart.length < 2 ^ 32) :
    (deserializeQuotaDataMap info = .error .outOfBounds ∧
      info.vecStart.length < 25 * info.elemNum) ∨
    (∃ m, deserializeQuotaDataMap info = .ok m) ∧ 25 * info.elemNum ≤ info.vecStart.length := by
  unfold deserializeQuotaDataMap
  by_cases hLen : 25 * info.elemNum ≤ info.vecStart.length
  · obtain ⟨elems, hElems⟩ := readMany_moves (c := ⟨info.vecStart, 2 ^ 64 - 1⟩) (p := 0)
      (fun _ => deserializeQuotaData_moves) (le_refl 25) info.elemNum (by dsimp only; omega)
      (by dsimp only; omega)
    rw [advance_zero] at hElems
    rw [hElems]
    exact .inr ⟨⟨_, rfl⟩, hLen⟩
  · have hOutside := readMany_outOfBounds (c := ⟨info.vecStart, 2 ^ 64 - 1⟩) (p := 0)
      (fun _ => deserializeQuotaData_moves) (fun _ => deserializeQuotaData_outOfBounds)
      (Nat.le_refl 25) info.elemNum (by dsimp only; omega) (Nat.zero_le _) (by dsimp only; omega)
    rw [advance_zero] at hOutside
    rw [hOutside]
    exact .inl ⟨rfl, Nat.lt_of_not_le hLen⟩

end QuotaData

/-! ## The targets -/

/-- `told` is the length that the second pass takes for the one of what is left. Every field of a
target that ends within it ends inside of the buffer, and so do the quota data whose size, as an
`unsigned`, is within it. -/
def TargetsFit : Nat → Nat → List UInt8 → Prop
  | 0, _, _ => True
  | elemNum + 1, told, target =>
    (2 ≤ told → 2 ≤ target.length) ∧
      (6 ≤ told → 6 ≤ target.length ∧
        (6 + leAt 4 target 2 * 25 % 2 ^ 32 ≤ told →
          6 + leAt 4 target 2 * 25 ≤ target.length ∧
            TargetsFit elemNum (told - (6 + leAt 4 target 2 * 25))
              (target.drop (6 + leAt 4 target 2 * 25))))

theorem deserializeTargetQuota_cases {told : Nat} {target : List UInt8}
    (hMax : target.length < 2 ^ 32) :
    (deserializeTargetQuota ⟨target, told⟩ = .error .outOfBounds ∧
      ∀ elemNum, ¬ TargetsFit (elemNum + 1) told target) ∨
    (deserializeTargetQuota ⟨target, told⟩ = .error .rejected ∧
      ∀ elemNum, TargetsFit (elemNum + 1) told target) ∨
    ((∃ v, deserializeTargetQuota ⟨target, told⟩ =
        .ok (v, ⟨target.drop (6 + leAt 4 target 2 * 25), told - (6 + leAt 4 target 2 * 25)⟩)) ∧
      ∀ elemNum, TargetsFit (elemNum + 1) told target ↔
        TargetsFit elemNum (told - (6 + leAt 4 target 2 * 25))
          (target.drop (6 + leAt 4 target 2 * 25))) := by
  have hDropped : (target.drop 2).length = target.length - 2 := length_drop
  by_cases hNumTold : told < 2
  · refine .inr (.inl ⟨bind_of_error (map_of_error _ (if_pos hNumTold)), ?_⟩)
    intro elemNum
    exact ⟨by omega, by omega⟩
  by_cases hNum : target.length < 2
  · have hRead : readLe 2 ⟨target, told⟩ = .error .outOfBounds :=
      (if_neg hNumTold).trans (if_pos hNum)
    refine .inl ⟨bind_of_error (map_of_error _ hRead), ?_⟩
    rintro elemNum ⟨hFits, -⟩
    omega
  have hRead : readLe 2 ⟨target, told⟩ = .ok (leAt 2 target 0, ⟨target.drop 2, told - 2⟩) := by
    apply ((if_neg hNumTold).trans (if_neg hNum)).trans
    rw [advance, if_pos (Nat.le_of_not_lt hNumTold)]
    rfl
  have hTargetNumID : deserializeUInt16 ⟨target, told⟩ =
      .ok (UInt16.ofNat (leAt 2 target 0), ⟨target.drop 2, told - 2⟩) := map_of_ok _ hRead
  have hRun : deserializeTargetQuota ⟨target, told⟩ = (do
      let info ← (liftM (deserializeQuotaDataMapPreprocess ⟨target.drop 2, told - 2⟩) :
        Reader VectorInfo)
      let quotaDataMap ← (liftM (deserializeQuotaDataMap info) : Reader QuotaDataMap)
      skip info.vecBufLen
      pure (UInt16.ofNat (leAt 2 target 0), quotaDataMap)) ⟨target.drop 2, told - 2⟩ :=
    bind_of_ok hTargetNumID
  rw [hRun]
  have hFirst : 2 ≤ target.length := by omega
  unfold deserializeQuotaDataMapPreprocess
  by_cases hCountTold : told < 6
  · have hCount : readLe 4 ⟨target.drop 2, told - 2⟩ = .error .rejected :=
      if_pos (by dsimp only; omega)
    rw [hCount]
    exact .inr (.inl ⟨rfl, fun _ => ⟨fun _ => hFirst, by omega⟩⟩)
  by_cases hCountLen : target.length < 6
  · have hCount : readLe 4 ⟨target.drop 2, told - 2⟩ = .error .outOfBounds :=
      (if_neg (by dsimp only; omega)).trans (if_pos (by dsimp only; omega))
    rw [hCount]
    refine .inl ⟨rfl, ?_⟩
    rintro elemNum ⟨-, hFits⟩
    omega
  have hCount : readLe 4 ⟨target.drop 2, told - 2⟩ =
      .ok (leAt 4 target 2, ⟨target.drop 6, told - 6⟩) := by
    apply ((if_neg (by dsimp only; omega)).trans (if_neg (by dsimp only; omega))).trans
    rw [advance, if_pos (by dsimp only; omega), drop_drop, Nat.sub_sub]
    rfl
  rw [hCount]
  dsimp only
  by_cases hSizeTold : told - 2 < 4 + leAt 4 target 2 * 25 % 2 ^ 32
  · rw [if_pos hSizeTold]
    refine .inr (.inl ⟨rfl, ?_⟩)
    intro elemNum
    exact ⟨fun _ => hFirst, fun _ => ⟨by omega, by omega⟩⟩
  rw [if_neg hSizeTold, bind_of_ok (lift_of_ok rfl)]
  have hElemsLen : (target.drop 6).length = target.length - 6 := length_drop
  rcases @deserializeQuotaDataMap_cases ⟨leAt 4 target 2, target.drop 6,
    (4 + leAt 4 target 2 * 25 % 2 ^ 32) % 2 ^ 32⟩ (by dsimp only; omega) with
    ⟨hMap, hOutside⟩ | ⟨⟨quotaDataMap, hMap⟩, hInside⟩
  · rw [bind_of_error (lift_of_error hMap)]
    refine .inl ⟨rfl, ?_⟩
    rintro elemNum ⟨-, hFits⟩
    dsimp only at hOutside
    omega
  dsimp only at hInside
  have hSize : (4 + leAt 4 target 2 * 25 % 2 ^ 32) % 2 ^ 32 = 4 + leAt 4 target 2 * 25 := by
    omega
  have hStop : advance (4 + leAt 4 target 2 * 25) ⟨target.drop 2, told - 2⟩ =
      ⟨target.drop (6 + leAt 4 target 2 * 25), told - (6 + leAt 4 target 2 * 25)⟩ := by
    rw [advance, if_pos (by dsimp only; omega)]
    rw [drop_drop, Nat.sub_sub]
    have hSum : 2 + (4 + leAt 4 target 2 * 25) = 6 + leAt 4 target 2 * 25 := by omega
    rw [hSum]
  rw [bind_of_ok (lift_of_ok hMap)]
  rw [hSize]
  refine .inr (.inr ⟨⟨(UInt16.ofNat (leAt 2 target 0), quotaDataMap), ?_⟩, ?_⟩)
  · rw [← hStop]
    rfl
  · intro elemNum
    constructor
    · rintro ⟨-, hFits⟩
      exact ((hFits (by omega)).2 (by omega)).2
    · intro hFits
      exact ⟨fun _ => hFirst, fun _ => ⟨by omega, fun _ => ⟨by omega, hFits⟩⟩⟩

theorem readTargets_inside_iff (elemNum : Nat) {told : Nat} {target : List UInt8}
    (hMax : target.length < 2 ^ 32) :
    readMany deserializeTargetQuota elemNum ⟨target, told⟩ ≠ .error .outOfBounds ↔
      TargetsFit elemNum told target := by
  induction elemNum generalizing told target with
  | zero => exact iff_of_true (by rintro ⟨⟩) trivial
  | succ elemNum ih =>
    rw [readMany]
    rcases @deserializeTargetQuota_cases told _ hMax with
      ⟨hRun, hFits⟩ | ⟨hRun, hFits⟩ | ⟨⟨v, hRun⟩, hFits⟩
    · rw [bind_of_error hRun]
      exact iff_of_false (fun h => h rfl) (hFits elemNum)
    · rw [bind_of_error hRun]
      exact iff_of_true (by rintro ⟨⟩) (hFits elemNum)
    rw [bind_of_ok hRun, hFits elemNum, ← ih (by rw [length_drop]; omega)]
    cases hRest : readMany deserializeTargetQuota elemNum
        ⟨target.drop (6 + leAt 4 target 2 * 25), told - (6 + leAt 4 target 2 * 25)⟩ with
    | error e => rw [bind_of_error hRest]
    | ok res =>
      rw [bind_of_ok hRest]
      exact iff_of_true (by rintro ⟨⟩) (by rintro ⟨⟩)

def MapBufLen.told (buf : List UInt8) : MapBufLen → Nat
  | ofOutLen => leAt 4 buf 0
  | ofBuffer bufLen => bufLen

variable {buf : List UInt8}

theorem quotaPreprocess_of (h : 8 ≤ buf.length) :
    deserializeQuotaDataMapForTargetPreprocess (.of buf) =
      if leAt 4 buf 0 > buf.length then .error .rejected
      else .ok ⟨leAt 4 buf 4, buf.drop 8, leAt 4 buf 0⟩ := by
  unfold deserializeQuotaDataMapForTargetPreprocess
  rw [readLe_of (by omega)]
  dsimp only
  rw [readLe_of (by rw [length_drop]; omega), leAt_drop, drop_drop]
  rfl

theorem quotaPreprocess_of_short (h : buf.length < 8) :
    deserializeQuotaDataMapForTargetPreprocess (.of buf) = .error .rejected := by
  unfold deserializeQuotaDataMapForTargetPreprocess
  by_cases hFirst : buf.length < 4
  · rw [readLe_of_short hFirst]
  · rw [readLe_of (by omega)]
    dsimp only
    rw [readLe_of_short (by rw [length_drop]; omega)]

/-- An announced length is at least the one of the two fields, and the targets end inside of the
buffer. -/
theorem quotaDataMapForTarget_contained_iff (hBuf : buf.length < 2 ^ 32) (mapBufLen : MapBufLen) :
    (quotaDataMapForTargetDecoder mapBufLen).Contained 8 buf ↔
      buf.length < 8 ∨ buf.length < leAt 4 buf 0 ∨
        8 ≤ leAt 4 buf 0 ∧ TargetsFit (leAt 4 buf 4) (mapBufLen.told buf) (buf.drop 8) := by
  by_cases hShort : buf.length < 8
  · exact iff_of_true (Decoder.contained_of_rejected (quotaPreprocess_of_short hShort))
      (.inl hShort)
  have hRun : (quotaDataMapForTargetDecoder mapBufLen).preprocess (.of buf) = _ :=
    quotaPreprocess_of (by omega)
  by_cases hLen : leAt 4 buf 0 > buf.length
  · rw [if_pos hLen] at hRun
    exact iff_of_true (Decoder.contained_of_rejected hRun) (.inr (.inl hLen))
  rw [if_neg hLen] at hRun
  rw [Decoder.contained_iff hRun]
  have hTold : mapBufLen.get ⟨leAt 4 buf 4, buf.drop 8, leAt 4 buf 0⟩ = mapBufLen.told buf := by
    cases mapBufLen <;> rfl
  have hRead : (quotaDataMapForTargetDecoder mapBufLen).deserialize
      ⟨leAt 4 buf 4, buf.drop 8, leAt 4 buf 0⟩ ≠ .error .outOfBounds ↔
      TargetsFit (leAt 4 buf 4) (mapBufLen.told buf) (buf.drop 8) := by
    rw [← readTargets_inside_iff _ (by rw [length_drop]; omega)]
    show deserializeQuotaDataMapForTarget _ _ _ ≠ _ ↔ _
    unfold deserializeQuotaDataMapForTarget
    rw [hTold]
    cases readMany deserializeTargetQuota (leAt 4 buf 4) ⟨buf.drop 8, mapBufLen.told buf⟩ with
    | error e =>
      refine not_congr ⟨?_, ?_⟩
      · rintro ⟨⟩
        rfl
      · rintro ⟨⟩
        rfl
    | ok res => exact iff_of_true nofun nofun
  rw [hRead]
  constructor
  · rintro ⟨hHeader, -, hFits⟩
    exact .inr (.inr ⟨hHeader, hFits⟩)
  · rintro (h | h | ⟨hHeader, hFits⟩)
    · exact absurd h hShort
    · exact absurd h hLen
    · exact ⟨hHeader, Nat.le_of_not_lt hLen, hFits⟩

/-! ## All decoders -/

def uint16ListDecoder : Decoder VectorInfo (List UInt16) := vectorDecoder 2 deserializeUInt16

/-- No decoder reads outside of the buffer, and an accepted length is at most the one of the buffer
and not smaller than the header. -/
structure DecodersContained (malloc : Nat → UInt64) (buf : List UInt8) : Prop where
  str : (strDecoder serialLenStr).Contained 4 buf
  strAlign4 : (strDecoder serialLenStrAlign4).Contained 4 buf
  stringList : stringListDecoder.Contained 8 buf
  stringVec : stringVecDecoder.Contained 8 buf
  stringSet : stringSetDecoder.Contained 8 buf
  uint16List : uint16ListDecoder.Contained 8 buf
  nicList : nicListDecoder.Contained 4 buf
  nodeList : (nodeListDecoder malloc).Contained 8 buf
  quotaDataMap : ∀ mapBufLen, mapBufLen = .ofOutLen ∨ mapBufLen = .ofBuffer buf.length →
    (quotaDataMapForTargetDecoder mapBufLen).Contained 8 buf

/-- The announced lengths for which each decoder stays inside of the buffer. -/
structure ContainedWhen (malloc : Nat → UInt64) (buf : List UInt8) : Prop where
  str : (strDecoder serialLenStr).Contained 4 buf ↔ buf.length < 5 ∨ leAt 4 buf 0 < 2 ^ 32 - 5
  strAlign4 : (strDecoder serialLenStrAlign4).Contained 4 buf ↔
    buf.length < 8 ∨ leAt 4 buf 0 < 2 ^ 32 - 8 ∨
      ∃ terminator, buf[4 + leAt 4 buf 0]? = some terminator ∧ terminator ≠ 0
  stringList : stringListDecoder.Contained 8 buf
  stringVec : stringVecDecoder.Contained 8 buf ↔
    buf.length < 8 ∨ 8 ≤ leAt 4 buf 0 ∨
      leAt 4 buf 4 ≠ 0 ∧ 0 < leAt 4 buf 0 ∧ buf[leAt 4 buf 0 - 1]? ≠ some 0
  stringSet : stringSetDecoder.Contained 8 buf
  uint16List : uint16ListDecoder.Contained 8 buf
  nicList : nicListDecoder.Contained 4 buf ↔
    buf.length < 4 ∨ 4 + leAt 4 buf 0 * 24 < 2 ^ 32 ∨ buf.length < serialLenNicList (leAt 4 buf 0)
  nodeList : NodeListFits buf → (nodeListDecoder malloc).Contained 8 buf
  nodeList_only : AllNodes BitsFit (leAt 4 buf 0) (buf.drop 8) →
    (nodeListDecoder malloc).Contained 8 buf → NodeListFits buf
  quotaDataMap : ∀ mapBufLen, (quotaDataMapForTargetDecoder mapBufLen).Contained 8 buf ↔
    buf.length < 8 ∨ buf.length < leAt 4 buf 0 ∨
      8 ≤ leAt 4 buf 0 ∧ TargetsFit (leAt 4 buf 4) (mapBufLen.told buf) (buf.drop 8)

/-- Each decoder stays in the buffer exactly if it holds what the message announces. -/
theorem decoders_containedWhen (malloc : Nat → UInt64) (buf : List UInt8)
    (hBuf : buf.length < 2 ^ 32) : ContainedWhen malloc buf where
  str := deserializeStr_contained_iff (le_refl 4) hBuf
  strAlign4 := deserializeStrAlign4_contained_iff hBuf
  stringList := strings_contained rfl rfl (fun _ h => h) hBuf
  stringVec := stringVec_contained_iff hBuf
  stringSet := by
    apply strings_contained rfl rfl _ hBuf
    intro info h
    show toFinset <$> deserializeStrings info ≠ _
    cases hRun : deserializeStrings info with
    | error e =>
      rw [hRun] at h
      rintro ⟨⟩
      exact h rfl
    | ok elems => exact nofun
  uint16List := vector_contained bounded_uint16 hBuf
  nicList := nicList_contained_iff (le_refl 4) hBuf
  nodeList := nodeList_contained hBuf
  nodeList_only := fun hBits h => nodeListFits_of_contained hBuf h hBits
  quotaDataMap := quotaDataMapForTarget_contained_iff hBuf

/-- A string that announces 2^32 - 5 bytes, at the end of a buffer of 5 bytes. -/
def wrappedStr : List UInt8 := [0xfb, 0xff, 0xff, 0xff, 0]

/-- The second string is accepted. -/
theorem decoders_containedWhen_twoStrs :
    ContainedWhen (fun _ => 0) wrappedStr ∧ ContainedWhen (fun _ => 0) [1, 0, 0, 0, 65, 0] :=
  ⟨decoders_containedWhen _ _ (by decide), decoders_containedWhen _ _ (by decide)⟩

/-- The terminator of the string is looked for 2^32 - 1 bytes behind the begin of the buffer. -/
theorem not_decodersContained :
    ¬ ∀ (malloc : Nat → UInt64) (buf : List UInt8), buf.length < 2 ^ 32 →
      DecodersContained malloc buf := by
  intro h
  have hStr := (h (fun _ => 0) wrappedStr (by decide)).str
  rw [deserializeStr_contained_iff (le_refl 4) (by decide)] at hStr
  revert hStr
  decide

end Fhgfs.Serialization
