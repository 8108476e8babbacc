import Fhgfs.Common.NodeListSerialization

/-!
# Bounds of the decoders of lists

A decoder leaves its buffer when an announced length is too large for the 32 bits in which the
length of the encoding is computed.

* `deserializeStr_contained_iff`, `deserializeStrAlign4_contained_iff`: strings of nearly
  2^32 bytes.
* `strings_contained`, `stringVec_contained_iff`: lists of strings, and vectors, whose announced
  length is not compared with the one of the header.
* `vector_contained`: vectors of numbers.
* `nicList_contained_iff`: lists of network interfaces, whose encoding has 2^32 bytes or more.
-/

namespace Fhgfs.Serialization

open Wire Decoder List Option

/-! ## Strings -/

section Strings

variable {serialLen : Nat → Nat} {headerLen : Nat} {buf : List UInt8}

theorem str_contained_of_short (h : buf.length < serialLen 0) :
    (strDecoder serialLen).Contained headerLen buf :=
  contained_of_rejected (deserializeStrSpan_of_short h)

theorem str_contained_iff (hMin : 4 ≤ serialLen 0) (h : serialLen 0 ≤ buf.length) :
    (strDecoder serialLen).Contained headerLen buf ↔
      buf.length < serialLen (leAt 4 buf 0) ∨
      ∃ terminator, buf[4 + leAt 4 buf 0]? = some terminator ∧
        (terminator = 0 → headerLen ≤ serialLen (leAt 4 buf 0)) := by
  have hRun : (strDecoder serialLen).preprocess (.of buf) = _ := deserializeStrSpan_of hMin h
  by_cases hLen : buf.length < serialLen (leAt 4 buf 0)
  · rw [if_pos hLen] at hRun
    exact iff_of_true (Decoder.contained_of_rejected hRun) (.inl hLen)
  rw [if_neg hLen] at hRun
  cases hTerminator : buf[4 + leAt 4 buf 0]? with
  | none =>
    rw [hTerminator] at hRun
    apply iff_of_false (Decoder.not_contained_of_outOfBounds hRun)
    rintro (hShort | ⟨terminator, hSome, -⟩)
    · exact hLen hShort
    · cases hSome
  | some terminator =>
    rw [hTerminator] at hRun
    dsimp only at hRun
    by_cases hZero : terminator = 0
    · rw [if_neg (not_not.mpr hZero)] at hRun
      rw [Decoder.contained_iff hRun]
      constructor
      · rintro ⟨hHeader, -⟩
        exact .inr ⟨terminator, rfl, fun _ => hHeader⟩
      · rintro (hShort | ⟨_, hSome, hHeader⟩)
        · exact absurd hShort hLen
        cases hSome
        refine ⟨hHeader hZero, Nat.le_of_not_lt hLen, ?_⟩
        have hInside := (List.getElem?_eq_some_iff.mp hTerminator).1
        have hRead : leAt 4 buf 0 ≤ (buf.drop 4).length := by
          rw [length_drop]
          omega
        show StrSpan.assign _ ≠ _
        rw [StrSpan.assign, if_neg (not_lt.mpr hRead)]
        rintro ⟨⟩
    · rw [if_pos hZero] at hRun
      apply iff_of_true (Decoder.contained_of_rejected hRun)
      exact .inr ⟨terminator, rfl, fun h => absurd h hZero⟩

theorem leAt_four_lt (buf : List UInt8) (offset : Nat) : leAt 4 buf offset < 2 ^ 32 :=
  leAt_lt 4 buf offset

/-- The length field, if there is one, is so large that the length of the encoding is less
than 5. -/
theorem deserializeStr_contained_iff (hHeader : headerLen ≤ 4) (hBuf : buf.length < 2 ^ 32) :
    (strDecoder serialLenStr).Contained headerLen buf ↔
      buf.length < 5 ∨ leAt 4 buf 0 < 2 ^ 32 - 5 := by
  have hMin : serialLenStr 0 = 5 := rfl
  by_cases hShort : buf.length < 5
  · exact iff_of_true (str_contained_of_short (hMin ▸ hShort)) (.inl hShort)
  rw [str_contained_iff (by omega) (by omega)]
  have hLen := leAt_four_lt buf 0
  generalize leAt 4 buf 0 = strLen at hLen
  have hSerialLen : serialLenStr strLen = (4 + strLen + 1) % 2 ^ 32 := rfl
  constructor
  · rintro (hTooLong | ⟨terminator, hSome, -⟩)
    · right
      omega
    · have hInside := (List.getElem?_eq_some_iff.mp hSome).1
      right
      omega
  · rintro (h | h)
    · exact absurd h hShort
    by_cases hTooLong : buf.length < serialLenStr strLen
    · exact .inl hTooLong
    · refine .inr ⟨_, getElem?_eq_getElem (by omega), ?_⟩
      omega

theorem serialLenStrAlign4_of_wrapped {strLen : Nat} (h : 2 ^ 32 - 8 ≤ strLen)
    (hLen : strLen < 2 ^ 32) :
    serialLenStrAlign4 strLen = if strLen < 2 ^ 32 - 4 then 0 else 4 := by
  unfold serialLenStrAlign4
  dsimp only
  split <;> split <;> omega

/-- The length field, if there is one, is so large that the length of the encoding is at most 4,
and there is no string that ends in the buffer without a zero. -/
theorem deserializeStrAlign4_contained_iff (hBuf : buf.length < 2 ^ 32) :
    (strDecoder serialLenStrAlign4).Contained 4 buf ↔
      buf.length < 8 ∨ leAt 4 buf 0 < 2 ^ 32 - 8 ∨
        ∃ terminator, buf[4 + leAt 4 buf 0]? = some terminator ∧ terminator ≠ 0 := by
  have hMin : serialLenStrAlign4 0 = 8 := rfl
  by_cases hShort : buf.length < 8
  · exact iff_of_true (str_contained_of_short (hMin ▸ hShort)) (.inl hShort)
  rw [str_contained_iff (by omega) (by omega)]
  have hLen := leAt_four_lt buf 0
  generalize leAt 4 buf 0 = strLen at hLen
  by_cases hFits : strLen < 2 ^ 32 - 8
  · apply iff_of_true _ (.inr (.inl hFits))
    have hAligned := @serialLenStrAlign4_eq strLen (by omega)
    by_cases hTooLong : buf.length < serialLenStrAlign4 strLen
    · exact .inl hTooLong
    · refine .inr ⟨_, getElem?_eq_getElem (by omega), ?_⟩
      omega
  have hWrapped := serialLenStrAlign4_of_wrapped (by omega) hLen
  constructor
  · rintro (hTooLong | ⟨terminator, hSome, hHeader⟩)
    · split at hWrapped <;> omega
    · have hInside := (List.getElem?_eq_some_iff.mp hSome).1
      rw [if_pos (by omega)] at hWrapped
      refine .inr (.inr ⟨terminator, hSome, ?_⟩)
      intro hZero
      have hZeroLen := hHeader hZero
      omega
  · rintro (h | h | ⟨terminator, hSome, hZero⟩)
    · exact absurd h hShort
    · exact absurd h hFits
    · exact .inr ⟨terminator, hSome, fun h => absurd h hZero⟩

end Strings

/-! ## Lists of strings -/

section StringLists

variable {buf : List UInt8} {minLen : Nat}

theorem length_takeWhile_le {mem : List UInt8} {i : Nat} (h : mem[i]? = some 0) :
    (mem.takeWhile (· ≠ 0)).length ≤ i := by
  induction mem generalizing i with
  | nil => cases h
  | cons b mem ih =>
    rw [takeWhile_cons]
    split
    next hNonzero =>
      cases i with
      | zero =>
        rw [getElem?_cons_zero] at h
        rw [some.inj h] at hNonzero
        exact absurd hNonzero (by decide)
      | succ i =>
        rw [getElem?_cons_succ] at h
        exact Nat.succ_le_succ (ih h)
    next => exact Nat.zero_le i

theorem readCStr_of {mem : List UInt8} {i : Nat} (h : mem[i]? = some 0) :
    readCStr mem = .ok (mem.takeWhile (· ≠ 0)) := by
  rw [readCStr, if_pos (mem_of_getElem? h)]

theorem readStrings_inside {elemsBufLen : Nat} (hLen : elemsBufLen < 2 ^ 32) (elemNum : Nat) :
    ∀ (currentPos : Nat) (mem : List UInt8),
      (currentPos < elemsBufLen → mem[elemsBufLen - currentPos - 1]? = some 0) →
      readStrings elemsBufLen elemNum currentPos mem ≠ .error .outOfBounds := by
  induction elemNum with
  | zero =>
    intro currentPos mem _
    rw [readStrings]
    split <;> exact nofun
  | succ elemNum ih =>
    intro currentPos mem hLast
    rw [readStrings]
    split
    next hInside =>
      have hEnd := length_takeWhile_le (hLast hInside)
      rw [readCStr_of (hLast hInside)]
      have hMod : ((mem.takeWhile (· ≠ 0)).length + 1) % 2 ^ 32 =
          (mem.takeWhile (· ≠ 0)).length + 1 := Nat.mod_eq_of_lt (by omega)
      simp only [bind, Except.bind, hMod]
      generalize (mem.takeWhile (· ≠ 0)).length = strLen at hEnd
      have hRest := ih (currentPos + (strLen + 1)) (mem.drop (strLen + 1)) (by
        intro hNext
        rw [getElem?_drop, ← hLast hInside]
        congr 1
        omega)
      cases hRun : readStrings elemsBufLen elemNum (currentPos + (strLen + 1))
          (mem.drop (strLen + 1)) with
      | error e =>
        rwa [hRun] at hRest
      | ok elems => exact nofun
    next => exact nofun

theorem stringsPreprocess_of_short (h : buf.length < 8) :
    deserializeStringsPreprocess minLen (.of buf) = .error .rejected := by
  unfold deserializeStringsPreprocess
  by_cases hFirst : buf.length < 4
  · rw [readLe_of_short hFirst]
  · rw [readLe_of (by omega)]
    dsimp only
    rw [readLe_of_short (by rw [length_drop]; omega)]

theorem stringsPreprocess_of (h : 8 ≤ buf.length) :
    deserializeStringsPreprocess minLen (.of buf) =
      if leAt 4 buf 0 > buf.length ∨ leAt 4 buf 0 < minLen then .error .rejected
      else if leAt 4 buf 4 = 0 then .ok ⟨leAt 4 buf 4, buf.drop 8, leAt 4 buf 0⟩
      else if leAt 4 buf 0 = 0 then .error .outOfBounds
      else
        match buf[leAt 4 buf 0 - 1]? with
        | none => .error .outOfBounds
        | some last =>
          if last ≠ 0 then .error .rejected
          else .ok ⟨leAt 4 buf 4, buf.drop 8, leAt 4 buf 0⟩ := by
  unfold deserializeStringsPreprocess
  rw [readLe_of (by omega)]
  dsimp only
  rw [readLe_of (by rw [length_drop]; omega), leAt_drop, drop_drop]
  rfl

theorem deserializeStrings_inside (hBuf : buf.length < 2 ^ 32) (hHeader : 8 ≤ leAt 4 buf 0)
    (hLen : leAt 4 buf 0 ≤ buf.length)
    (hLast : leAt 4 buf 4 ≠ 0 → buf[leAt 4 buf 0 - 1]? = some 0) :
    deserializeStrings ⟨leAt 4 buf 4, buf.drop 8, leAt 4 buf 0⟩ ≠ .error .outOfBounds := by
  have hElems : (leAt 4 buf 0 + 2 ^ 32 - 8) % 2 ^ 32 = leAt 4 buf 0 - 8 := by omega
  show readStrings _ _ 0 _ ≠ _
  rw [hElems]
  by_cases hNone : leAt 4 buf 4 = 0
  · rw [hNone, readStrings]
    split <;> exact nofun
  · apply readStrings_inside (by omega)
    intro hInside
    have hPos : 8 + (leAt 4 buf 0 - 8 - 0 - 1) = leAt 4 buf 0 - 1 := by omega
    rw [getElem?_drop, hPos, hLast hNone]

theorem strings_contained {α : Type} {d : Decoder VectorInfo α}
    (hPreprocess : d.preprocess = deserializeStringsPreprocess 8)
    (hOutLen : d.outLen = VectorInfo.vecBufLen)
    (hDeserialize : ∀ info, deserializeStrings info ≠ .error .outOfBounds →
      d.deserialize info ≠ .error .outOfBounds)
    (hBuf : buf.length < 2 ^ 32) : d.Contained 8 buf := by
  by_cases hShort : buf.length < 8
  · apply contained_of_rejected
    rw [hPreprocess]
    exact stringsPreprocess_of_short hShort
  have hRun : d.preprocess (.of buf) = _ := hPreprocess ▸ @stringsPreprocess_of _ 8 (by omega)
  by_cases hLen : leAt 4 buf 0 > buf.length ∨ leAt 4 buf 0 < 8
  · rw [if_pos hLen] at hRun
    exact contained_of_rejected hRun
  rw [if_neg hLen] at hRun
  have hInside : leAt 4 buf 0 - 1 < buf.length := by omega
  rw [if_neg (by omega : ¬ leAt 4 buf 0 = 0), getElem?_eq_getElem hInside] at hRun
  dsimp only at hRun
  have hAccepted : (leAt 4 buf 4 ≠ 0 → buf[leAt 4 buf 0 - 1]? = some 0) →
      d.preprocess (.of buf) = .ok ⟨leAt 4 buf 4, buf.drop 8, leAt 4 buf 0⟩ →
      d.Contained 8 buf := by
    intro hLast hOk
    rw [contained_iff hOk, hOutLen]
    refine ⟨by dsimp only; omega, by dsimp only; omega, ?_⟩
    apply hDeserialize
    exact deserializeStrings_inside hBuf (by omega) (by omega) hLast
  by_cases hNone : leAt 4 buf 4 = 0
  · rw [if_pos hNone] at hRun
    exact hAccepted (fun h => absurd hNone h) hRun
  rw [if_neg hNone] at hRun
  by_cases hZero : buf[leAt 4 buf 0 - 1] = 0
  · rw [if_neg (not_not.mpr hZero)] at hRun
    refine hAccepted (fun _ => ?_) hRun
    rw [getElem?_eq_getElem hInside, hZero]
  · rw [if_pos hZero] at hRun
    exact contained_of_rejected hRun

/-- A vector whose announced length is smaller than its header is rejected only for the byte at
this length. -/
theorem stringVec_contained_iff (hBuf : buf.length < 2 ^ 32) :
    stringVecDecoder.Contained 8 buf ↔
      buf.length < 8 ∨ 8 ≤ leAt 4 buf 0 ∨
        leAt 4 buf 4 ≠ 0 ∧ 0 < leAt 4 buf 0 ∧ buf[leAt 4 buf 0 - 1]? ≠ some 0 := by
  by_cases hShort : buf.length < 8
  · exact iff_of_true (contained_of_rejected (stringsPreprocess_of_short hShort))
      (.inl hShort)
  have hRun : stringVecDecoder.preprocess (.of buf) = _ := stringsPreprocess_of (by omega)
  by_cases hLen : leAt 4 buf 0 > buf.length
  · rw [if_pos (.inl hLen)] at hRun
    exact iff_of_true (contained_of_rejected hRun) (.inr (.inl (by omega)))
  rw [if_neg (by omega)] at hRun
  by_cases hNone : leAt 4 buf 4 = 0
  · rw [if_pos hNone] at hRun
    rw [contained_iff hRun]
    constructor
    · rintro ⟨hHeader, -⟩
      exact .inr (.inl hHeader)
    · rintro (h | hHeader | ⟨h, -⟩)
      · exact absurd h hShort
      · refine ⟨hHeader, Nat.le_of_not_lt hLen, ?_⟩
        exact deserializeStrings_inside hBuf hHeader (by omega) fun h => absurd hNone h
      · exact absurd hNone h
  rw [if_neg hNone] at hRun
  by_cases hEmpty : leAt 4 buf 0 = 0
  · rw [if_pos hEmpty] at hRun
    apply iff_of_false (not_contained_of_outOfBounds hRun)
    omega
  have hInside : leAt 4 buf 0 - 1 < buf.length := by omega
  rw [if_neg hEmpty, getElem?_eq_getElem hInside] at hRun
  rw [getElem?_eq_getElem hInside]
  dsimp only at hRun
  by_cases hZero : buf[leAt 4 buf 0 - 1] = 0
  · rw [if_neg (not_not.mpr hZero)] at hRun
    rw [contained_iff hRun]
    constructor
    · rintro ⟨hHeader, -⟩
      exact .inr (.inl hHeader)
    · rintro (h | hHeader | ⟨-, -, h⟩)
      · exact absurd h hShort
      · refine ⟨hHeader, Nat.le_of_not_lt hLen, ?_⟩
        refine deserializeStrings_inside hBuf hHeader (by omega) fun _ => ?_
        rw [getElem?_eq_getElem hInside, hZero]
      · exact absurd (congrArg some hZero) h
  · rw [if_pos hZero] at hRun
    apply iff_of_true (contained_of_rejected hRun)
    refine .inr (.inr ⟨hNone, by omega, ?_⟩)
    exact fun h => hZero (some.inj h)

end StringLists

/-! ## Vectors of numbers -/

theorem bounded_readMany {α : Type} {deserialize : Reader α} (h : Bounded deserialize) (n : Nat) :
    Bounded (readMany deserialize n) := by
  induction n with
  | zero => exact .pure []
  | succ n ih =>
    apply h.bind
    intro value
    apply ih.bind
    intro values
    exact .pure _

def vectorDecoder {α : Type} (elemLen : Nat) (deserialize : Reader α) :
    Decoder VectorInfo (List α) where
  preprocess := deserializeVectorPreprocess elemLen
  outLen := VectorInfo.vecBufLen
  deserialize := deserializeElems deserialize

variable {elemLen : Nat}

theorem vectorPreprocess_of_short {buf : List UInt8} (h : buf.length < 8) :
    deserializeVectorPreprocess elemLen (.of buf) = .error .rejected := by
  unfold deserializeVectorPreprocess
  by_cases hFirst : buf.length < 4
  · rw [readLe_of_short hFirst]
  · rw [readLe_of (by omega)]
    dsimp only
    rw [readLe_of_short (by rw [length_drop]; omega)]

theorem vectorPreprocess_of {buf : List UInt8} (h : 8 ≤ buf.length) :
    deserializeVectorPreprocess elemLen (.of buf) =
      if leAt 4 buf 0 > buf.length ∨
          (leAt 4 buf 0 + 2 ^ 64 - 8) % 2 ^ 64 ≠ leAt 4 buf 4 * elemLen % 2 ^ 32 then
        .error .rejected
      else .ok ⟨leAt 4 buf 4, buf.drop 8, leAt 4 buf 0⟩ := by
  unfold deserializeVectorPreprocess
  rw [readLe_of (by omega)]
  dsimp only
  rw [readLe_of (by rw [length_drop]; omega), leAt_drop, drop_drop]
  rfl

section

variable {α : Type} {deserialize : Reader α}

/-- The announced length is what the number of elements, as an `unsigned`, takes behind the
header. The elements are read with a check of the length. -/
theorem vector_contained {buf : List UInt8} (h : Bounded deserialize) (hBuf : buf.length < 2 ^ 32) :
    (vectorDecoder elemLen deserialize).Contained 8 buf := by
  by_cases hShort : buf.length < 8
  · exact contained_of_rejected (vectorPreprocess_of_short hShort)
  have hRun : (vectorDecoder elemLen deserialize).preprocess (.of buf) = _ :=
    vectorPreprocess_of (by omega)
  by_cases hRejected : leAt 4 buf 0 > buf.length ∨
      (leAt 4 buf 0 + 2 ^ 64 - 8) % 2 ^ 64 ≠ leAt 4 buf 4 * elemLen % 2 ^ 32
  · rw [if_pos hRejected] at hRun
    exact contained_of_rejected hRun
  rw [if_neg hRejected] at hRun
  rw [contained_iff hRun]
  have hOutLen : 8 ≤ leAt 4 buf 0 ∧ leAt 4 buf 0 ≤ buf.length := by omega
  refine ⟨hOutLen.1, hOutLen.2, ?_⟩
  have hMod : (leAt 4 buf 0 + 2 ^ 32 - 8) % 2 ^ 32 = leAt 4 buf 0 - 8 := by omega
  have hTold : leAt 4 buf 0 - 8 ≤ (buf.drop 8).length := by
    rw [length_drop]
    omega
  have hRead := (bounded_readMany h (leAt 4 buf 4) ⟨_, _⟩ hTold).1
  show deserializeElems _ _ ≠ _
  unfold deserializeElems
  rw [hMod]
  split
  next hError =>
    rintro ⟨⟩
    exact hRead hError
  next => exact nofun

theorem bounded_vector
    (h : Bounded deserialize) : Bounded (deserializeVector elemLen deserialize) := by
  intro c hc
  have hPreprocess : deserializeVectorPreprocess elemLen c ≠ .error .outOfBounds ∧
      ∀ info, deserializeVectorPreprocess elemLen c = .ok info →
        8 ≤ info.vecBufLen ∧ info.vecBufLen ≤ c.bufLen ∧ info.vecBufLen < 2 ^ 32 ∧
          info.vecStart = c.mem.drop 8 := by
    unfold deserializeVectorPreprocess readLe
    by_cases hFirst : c.bufLen < 4
    · rw [if_pos hFirst]
      exact ⟨by rintro ⟨⟩, by rintro _ ⟨⟩⟩
    rw [if_neg hFirst, if_neg (by omega)]
    have hRest : (c.advance 4).bufLen = c.bufLen - 4 ∧ (c.advance 4).mem = c.mem.drop 4 :=
      ⟨if_pos (by omega), rfl⟩
    dsimp only
    rw [hRest.1, hRest.2, length_drop]
    by_cases hSecond : c.bufLen - 4 < 4
    · rw [if_pos hSecond]
      exact ⟨by rintro ⟨⟩, by rintro _ ⟨⟩⟩
    rw [if_neg hSecond, if_neg (by omega)]
    dsimp only
    have hLen := leAt_lt 4 c.mem 0
    rw [leAt, drop_zero] at hLen
    split
    · exact ⟨by rintro ⟨⟩, by rintro _ ⟨⟩⟩
    refine ⟨by rintro ⟨⟩, ?_⟩
    intro info hInfo
    obtain rfl := Except.ok.inj hInfo
    refine ⟨by dsimp only; omega, by dsimp only; omega, hLen, ?_⟩
    show (c.advance 4).mem.drop 4 = _
    rw [hRest.2, drop_drop]
  obtain ⟨hInside, hAccepted⟩ := hPreprocess
  unfold deserializeVector
  cases hRun : deserializeVectorPreprocess elemLen c with
  | error e =>
    refine ⟨?_, by rintro _ _ ⟨⟩⟩
    rintro ⟨⟩
    exact hInside hRun
  | ok info =>
    obtain ⟨hMin, hMax, hFits, hStart⟩ := hAccepted info hRun
    have hTold : (info.vecBufLen + 2 ^ 32 - 8) % 2 ^ 32 ≤ info.vecStart.length := by
      rw [hStart, length_drop]
      omega
    have hRead := (bounded_readMany h info.elemNum ⟨_, _⟩ hTold).1
    unfold deserializeElems
    dsimp only
    cases hElems : readMany deserialize info.elemNum
        ⟨info.vecStart, (info.vecBufLen + 2 ^ 32 - 8) % 2 ^ 32⟩ with
    | error e =>
      refine ⟨?_, by rintro _ _ ⟨⟩⟩
      rintro ⟨⟩
      exact hRead hElems
    | ok elems =>
      refine ⟨by rintro ⟨⟩, ?_⟩
      intro v c' hStop
      obtain ⟨-, rfl⟩ := Prod.mk.inj (Except.ok.inj hStop)
      show (if info.vecBufLen ≤ c.bufLen then _ else _) ≤ (c.mem.drop info.vecBufLen).length
      rw [if_pos hMax, length_drop]
      omega

end

theorem bounded_uint16 : Bounded deserializeUInt16 := (Bounded.readLe 2).map _

theorem bounded_int : Bounded deserializeInt := ((Bounded.readLe 4).map _).map _

/-! ## Lists of network interfaces -/

section Nics

variable {c : Wire.Cursor} {p : Nat}

theorem deserializeNic_moves (hLen : p + 21 ≤ c.mem.length) (hMax : p + 24 ≤ 2 ^ 64) :
    Moves deserializeNic c p (p + 24) := by
  apply Moves.bind (.peekLe (by omega) (by omega))
  intro ipAddr
  apply Moves.bind (.peekBytes (by omega) (by omega))
  intro name
  apply Moves.bind (.peekLe (by omega) (by omega))
  intro nicType
  apply Moves.bind (.skip (by omega))
  intro _
  exact .pure _

theorem deserializeNic_outOfBounds (h : c.mem.length < p + 21) (hMax : p + 24 ≤ 2 ^ 64) :
    deserializeNic (c.advance p) = .error .outOfBounds := by
  by_cases hAddr : c.mem.length < p + 4
  · exact bind_outOfBounds _ (peekLe_outOfBounds hAddr (by omega))
  apply (Moves.peekLe (by omega) (by omega)).outOfBounds
  intro ipAddr
  by_cases hName : c.mem.length < p + 20
  · exact bind_outOfBounds _ (peekBytes_outOfBounds (by omega) (by omega))
  apply (Moves.peekBytes (by omega) (by omega)).outOfBounds
  intro name
  exact bind_outOfBounds _ (peekLe_outOfBounds (by omega) (by omega))

theorem readMany_moves {α : Type} {r : Reader α} {need used : Nat}
    (h : ∀ p, p + need ≤ c.mem.length → p + used ≤ 2 ^ 64 → Moves r c p (p + used))
    (hNeed : need ≤ used) (n : Nat) (hLen : p + used * n ≤ c.mem.length)
    (hMax : c.mem.length ≤ 2 ^ 64) : Moves (readMany r n) c p (p + used * n) := by
  induction n generalizing p with
  | zero => exact .pure _
  | succ n ih =>
    have hSucc : p + used * (n + 1) = p + used + used * n := by
      rw [Nat.mul_succ]
      omega
    rw [hSucc] at hLen ⊢
    apply (h p (by omega) (by omega)).bind
    intro value
    apply (ih hLen).bind
    intro values
    exact .pure _

theorem readNics_moves (elemNum : Nat) (hLen : p + 24 * elemNum ≤ c.mem.length)
    (hMax : c.mem.length ≤ 2 ^ 64) :
    Moves (readMany deserializeNic elemNum) c p (p + 24 * elemNum) :=
  readMany_moves (fun _ => deserializeNic_moves) (by omega) elemNum hLen hMax

theorem readMany_outOfBounds {α : Type} {r : Reader α} {need used : Nat}
    (hMoves : ∀ p, p + need ≤ c.mem.length → p + used ≤ 2 ^ 64 → Moves r c p (p + used))
    (hOutside : ∀ p, c.mem.length < p + need → p + used ≤ 2 ^ 64 →
      r (c.advance p) = .error .outOfBounds)
    (hNeed : need ≤ used) (n : Nat) (h : c.mem.length + used < p + need + used * n)
    (hBegin : p ≤ c.mem.length) (hMax : c.mem.length + 2 * used ≤ 2 ^ 64) :
    readMany r n (c.advance p) = .error .outOfBounds := by
  induction n generalizing p with
  | zero => omega
  | succ n ih =>
    by_cases hFirst : c.mem.length < p + need
    · exact bind_outOfBounds _ (hOutside p hFirst (by omega))
    apply (hMoves p (by omega) (by omega)).outOfBounds
    intro value
    apply bind_outOfBounds
    rw [Nat.mul_succ] at h
    by_cases hNext : p + used ≤ c.mem.length
    · exact ih (by omega) hNext
    · obtain ⟨n, rfl⟩ : ∃ m, n = m + 1 := by
        cases n with
        | zero => omega
        | succ m => exact ⟨m, rfl⟩
      exact bind_outOfBounds _ (hOutside _ (by omega) (by omega))

theorem readNics_outOfBounds (elemNum : Nat) (h : c.mem.length + 3 < p + 24 * elemNum)
    (hBegin : p ≤ c.mem.length) (hMax : c.mem.length + 48 ≤ 2 ^ 64) :
    readMany deserializeNic elemNum (c.advance p) = .error .outOfBounds :=
  readMany_outOfBounds (fun _ => deserializeNic_moves) (fun _ => deserializeNic_outOfBounds)
    (by omega) elemNum (by omega) hBegin hMax

end Nics

theorem nicListPreprocess_of {buf : List UInt8} (h : 4 ≤ buf.length) :
    deserializeNicListPreprocess (.of buf) =
      if buf.length < serialLenNicList (leAt 4 buf 0) then .error .rejected
      else .ok ⟨leAt 4 buf 0, buf.drop 4, serialLenNicList (leAt 4 buf 0)⟩ := by
  unfold deserializeNicListPreprocess
  rw [readLe_of h]
  rfl

/-- The encoding of as many interfaces has less than 2^32 bytes, or the length that is left of it
is too large, too. -/
theorem nicList_contained_iff {headerLen : Nat} {buf : List UInt8} (hHeader : headerLen ≤ 4)
    (hBuf : buf.length < 2 ^ 32) :
    nicListDecoder.Contained headerLen buf ↔
      buf.length < 4 ∨ 4 + leAt 4 buf 0 * 24 < 2 ^ 32 ∨
        buf.length < serialLenNicList (leAt 4 buf 0) := by
  by_cases hShort : buf.length < 4
  · refine iff_of_true (contained_of_rejected ?_) (.inl hShort)
    show deserializeNicListPreprocess _ = _
    unfold deserializeNicListPreprocess
    rw [readLe_of_short hShort]
  have hRun : nicListDecoder.preprocess (.of buf) = _ := nicListPreprocess_of (by omega)
  by_cases hLen : buf.length < serialLenNicList (leAt 4 buf 0)
  · rw [if_pos hLen] at hRun
    exact iff_of_true (contained_of_rejected hRun) (.inr (.inr hLen))
  rw [if_neg hLen] at hRun
  rw [contained_iff hRun]
  show headerLen ≤ serialLenNicList _ ∧ serialLenNicList _ ≤ _ ∧ deserializeNicList _ ≠ _ ↔ _
  unfold deserializeNicList
  generalize leAt 4 buf 0 = elemNum at *
  by_cases hFits : 4 + elemNum * 24 < 2 ^ 32
  · have hSerialLen : serialLenNicList elemNum = 4 + elemNum * 24 := Nat.mod_eq_of_lt hFits
    apply iff_of_true _ (.inr (.inl hFits))
    refine ⟨by omega, by omega, ?_⟩
    have hRead : 24 * elemNum ≤ (buf.drop 4).length := by
      rw [length_drop]
      omega
    obtain ⟨nics, hNics⟩ := readNics_moves (c := ⟨buf.drop 4, 2 ^ 64 - 1⟩) (p := 0) elemNum
      (by dsimp only; omega) (by dsimp only; rw [length_drop]; omega)
    rw [Cursor.advance_zero] at hNics
    rw [hNics]
    exact nofun
  · apply iff_of_false
    · rintro ⟨-, -, hRead⟩
      apply hRead
      have hOutside := readNics_outOfBounds (c := ⟨buf.drop 4, 2 ^ 64 - 1⟩) (p := 0) elemNum
        (by dsimp only; rw [length_drop]; omega) (Nat.zero_le _)
        (by dsimp only; rw [length_drop]; omega)
      rw [Cursor.advance_zero] at hOutside
      rw [hOutside]
      rfl
    · omega

end Fhgfs.Serialization
