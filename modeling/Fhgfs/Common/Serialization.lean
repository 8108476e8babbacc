import Fhgfs.Lib.Wire

/-!
# Serialization of basic types

The little-endian encodings of numbers, strings with padding and vectors, and their readers. A
`std::string` is a list of bytes. Each encoding is read back by its reader, as long as its length
fits the 32-bit length field.
-/

namespace Fhgfs.Serialization

open Wire List Reads

/-! ## Numbers -/

def serializeUInt8 (value : UInt8) : Encoding := (leBytes 1 value.toNat).map some

def deserializeUInt8 : Reader UInt8 := UInt8.ofNat <$> readLe 1

def serializeUInt16 (value : UInt16) : Encoding := (leBytes 2 value.toNat).map some

def deserializeUInt16 : Reader UInt16 := UInt16.ofNat <$> readLe 2

def serializeUInt (value : UInt32) : Encoding := (leBytes 4 value.toNat).map some

def deserializeUInt : Reader UInt32 := UInt32.ofNat <$> readLe 4

def serializeInt (value : Int32) : Encoding := serializeUInt value.toUInt32

def deserializeInt : Reader Int32 := UInt32.toInt32 <$> deserializeUInt

def serializeUInt64 (value : UInt64) : Encoding := (leBytes 8 value.toNat).map some

def deserializeUInt64 : Reader UInt64 := UInt64.ofNat <$> readLe 8

def serializeInt64 (value : Int64) : Encoding := serializeUInt64 value.toUInt64

def deserializeInt64 : Reader Int64 := UInt64.toInt64 <$> deserializeUInt64

@[simp] theorem length_serializeUInt8 (value : UInt8) : (serializeUInt8 value).length = 1 := by
  simp [serializeUInt8]

@[simp] theorem length_serializeUInt16 (value : UInt16) :
    (serializeUInt16 value).length = 2 := by simp [serializeUInt16]

@[simp] theorem length_serializeUInt (value : UInt32) : (serializeUInt value).length = 4 := by
  simp [serializeUInt]

@[simp] theorem length_serializeUInt64 (value : UInt64) :
    (serializeUInt64 value).length = 8 := by simp [serializeUInt64]

theorem reads_uint8 (value : UInt8) : Reads deserializeUInt8 (serializeUInt8 value) value := by
  have h := (readLe_leBytes 1 (by simpa using value.toNat_lt)).map UInt8.ofNat
  rwa [UInt8.ofNat_toNat] at h

theorem reads_uint16 (value : UInt16) : Reads deserializeUInt16 (serializeUInt16 value) value := by
  have h := (readLe_leBytes 2 (by simpa using value.toNat_lt)).map UInt16.ofNat
  rwa [UInt16.ofNat_toNat] at h

theorem reads_uint (value : UInt32) : Reads deserializeUInt (serializeUInt value) value := by
  have h := (readLe_leBytes 4 (by simpa using value.toNat_lt)).map UInt32.ofNat
  rwa [UInt32.ofNat_toNat] at h

theorem reads_int (value : Int32) : Reads deserializeInt (serializeInt value) value :=
  (reads_uint value.toUInt32).map UInt32.toInt32

theorem reads_uint64 (value : UInt64) : Reads deserializeUInt64 (serializeUInt64 value) value := by
  have h := (readLe_leBytes 8 (by simpa using value.toNat_lt)).map UInt64.ofNat
  rwa [UInt64.ofNat_toNat] at h

theorem reads_int64 (value : Int64) : Reads deserializeInt64 (serializeInt64 value) value :=
  (reads_uint64 value.toUInt64).map UInt64.toInt64

def serializeBool (value : Bool) : Encoding := serializeUInt8 (if value then 1 else 0)

def deserializeBool : Reader Bool := (· != 0) <$> deserializeUInt8

theorem reads_bool (value : Bool) : Reads deserializeBool (serializeBool value) value := by
  have h := (reads_uint8 (if value then 1 else 0)).map (· != 0)
  exact h.of_eq (by cases value <;> rfl)

/-! ## Strings -/

def serialLenStrAlign4 (strLen : Nat) : Nat :=
  let rawLen := (4 + strLen + 1) % 2 ^ 32
  let remainder := rawLen % 4
  if remainder ≠ 0 then (rawLen + 4 - remainder) % 2 ^ 32 else rawLen

def serializeStrAlign4 (str : List UInt8) : Encoding :=
  let strLen := str.length % 2 ^ 32
  (leBytes 4 strLen).map some ++ ((str.take strLen).map some ++ (some 0 ::
    List.replicate (serialLenStrAlign4 strLen - (4 + strLen + 1)) none))

def writeStrAlign4 (str : List UInt8) : Written :=
  ⟨serializeStrAlign4 str, serialLenStrAlign4 (str.length % 2 ^ 32)⟩

def deserializeStrAlign4 : Reader (List UInt8) := fun c =>
  if c.bufLen < serialLenStrAlign4 0 then .error .rejected
  else
    match readLe 4 c with
    | .error e => .error e
    | .ok (strLen, strStart) =>
      if c.bufLen < serialLenStrAlign4 strLen then .error .rejected
      else
        match strStart.mem[strLen]? with
        | none => .error .outOfBounds
        | some terminator =>
          if terminator ≠ 0 then .error .rejected
          else .ok (strStart.mem.take strLen, c.advance (serialLenStrAlign4 strLen))

theorem serialLenStrAlign4_eq {strLen : Nat} (h : strLen + 8 < 2 ^ 32) :
    4 + strLen + 1 ≤ serialLenStrAlign4 strLen ∧ serialLenStrAlign4 strLen < 2 ^ 32 := by
  unfold serialLenStrAlign4
  rw [Nat.mod_eq_of_lt (by omega : 4 + strLen + 1 < 2 ^ 32)]
  simp only
  split
  · rw [Nat.mod_eq_of_lt (by omega)]
    omega
  · omega

variable {str : List UInt8}

theorem length_serializeStrAlign4 (h : str.length + 8 < 2 ^ 32) :
    (serializeStrAlign4 str).length = serialLenStrAlign4 str.length := by
  have hLen := serialLenStrAlign4_eq h
  have hMod : str.length % 2 ^ 32 = str.length := Nat.mod_eq_of_lt (by omega)
  simp only [serializeStrAlign4, hMod, length_append, length_map, length_leBytes,
    take_length, length_cons, length_replicate]
  omega

theorem serialLenStrAlign4_of_lt {strLen : Nat} (h : strLen + 8 < 2 ^ 32) :
    serialLenStrAlign4 strLen = (strLen + 8) / 4 * 4 := by
  unfold serialLenStrAlign4
  rw [Nat.mod_eq_of_lt (by omega : 4 + strLen + 1 < 2 ^ 32)]
  dsimp only
  split
  · rw [Nat.mod_eq_of_lt (by omega)]
    omega
  · omega

theorem writeStrAlign4_eq (h : str.length + 8 < 2 ^ 32) :
    writeStrAlign4 str = .of (serializeStrAlign4 str) := by
  rw [writeStrAlign4, Written.of, length_serializeStrAlign4 h, Nat.mod_eq_of_lt (by omega)]

theorem reads_strAlign4 (h : str.length + 8 < 2 ^ 32) :
    Reads deserializeStrAlign4 (serializeStrAlign4 str) str := by
  intro mem rest bufLen hFills hLen
  have hTotal := hFills.length_eq
  rw [length_serializeStrAlign4 h] at hTotal
  have hMod : str.length % 2 ^ 32 = str.length := Nat.mod_eq_of_lt (by omega)
  have hMin : serialLenStrAlign4 0 = 8 := rfl
  have hMinLen : 8 ≤ serialLenStrAlign4 str.length := by
    unfold serialLenStrAlign4
    rw [Nat.mod_eq_of_lt (by omega : 4 + str.length + 1 < 2 ^ 32)]
    simp only
    split
    · rw [Nat.mod_eq_of_lt (by omega)]
      omega
    · omega
  simp only [serializeStrAlign4, hMod, take_length] at hFills
  obtain ⟨front, tail, rfl, hFront, hTail⟩ := fills_append hFills
  obtain ⟨body, pad, rfl, hBody, hPad⟩ := fills_append hTail
  obtain rfl := fills_map_some.mp hBody
  have hRead := readLe_leBytes 4 (by omega : body.length < 256 ^ 4) front
    (body ++ pad ++ rest) bufLen hFront
  have hFrontLen : front.length = 4 := by rw [hFront.length_eq, length_map, length_leBytes]
  rw [hFrontLen] at hRead
  obtain ⟨zero, padding, rfl⟩ : ∃ zero padding, pad = zero :: padding := by
    cases hPad with
    | cons => exact ⟨_, _, rfl⟩
  have hZero : zero = 0 := by
    cases hPad with
    | cons hHead _ => exact hHead 0 rfl
  have hTerminator : (body ++ zero :: padding ++ rest)[body.length]? = some zero := by
    rw [append_assoc, cons_append, getElem?_append_right (le_rfl), Nat.sub_self]
    rfl
  have hTake : (body ++ zero :: padding ++ rest).take body.length = body := by
    rw [append_assoc, take_left]
  have hAdvance := advance_append rest hLen
  rw [hTotal] at hAdvance hLen ⊢
  unfold deserializeStrAlign4
  rw [← append_assoc] at hRead
  simp only [hMin]
  rw [if_neg (by omega), hRead (by omega)]
  simp only
  rw [if_neg (not_lt.mpr hLen), hTerminator]
  simp only [hZero, ne_eq, not_true_eq_false, if_false]
  rw [hZero] at hTake hAdvance
  rw [hTake, hAdvance]

/-- What is stored of a string. The length field has 32 bits. -/
def storedStr (str : List UInt8) : List UInt8 := str.take (str.length % 2 ^ 32)

theorem storedStr_eq (h : str.length < 2 ^ 32) : storedStr str = str := by
  rw [storedStr, Nat.mod_eq_of_lt h, take_length]

theorem length_storedStr (str : List UInt8) : (storedStr str).length = str.length % 2 ^ 32 := by
  rw [storedStr, length_take]
  exact min_eq_left (Nat.mod_le _ _)

theorem serializeStrAlign4_storedStr (str : List UInt8) :
    serializeStrAlign4 (storedStr str) = serializeStrAlign4 str := by
  unfold serializeStrAlign4
  rw [length_storedStr, Nat.mod_mod]
  simp only [storedStr, take_take, Nat.min_self]

theorem reads_storedStr (hFits : (serializeStrAlign4 str).length + 8 < 2 ^ 32) :
    Reads deserializeStrAlign4 (serializeStrAlign4 str) (storedStr str) := by
  have hLen : (storedStr str).length + 8 < 2 ^ 32 := by
    rw [length_storedStr]
    simp only [serializeStrAlign4, length_append, length_map, length_take,
      min_eq_left (Nat.mod_le _ _)] at hFits
    omega
  rw [← serializeStrAlign4_storedStr]
  exact reads_strAlign4 hLen

/-! ## Strings without padding -/

def serialLenStr (strLen : Nat) : Nat := (4 + strLen + 1) % 2 ^ 32

def serializeStr (str : List UInt8) : Written :=
  let strLen := str.length % 2 ^ 32
  ⟨(leBytes 4 strLen).map some ++ ((str.take strLen).map some ++ [some 0]), serialLenStr strLen⟩

def deserializeStr : Reader (List UInt8) := fun c =>
  if c.bufLen < serialLenStr 0 then .error .rejected
  else
    match readLe 4 c with
    | .error e => .error e
    | .ok (strLen, strStart) =>
      if c.bufLen < serialLenStr strLen then .error .rejected
      else
        match strStart.mem[strLen]? with
        | none => .error .outOfBounds
        | some terminator =>
          if terminator ≠ 0 then .error .rejected
          else .ok (strStart.mem.take strLen, c.advance (serialLenStr strLen))

def strBytes (str : List UInt8) : Encoding :=
  (leBytes 4 str.length).map some ++ (str.map some ++ [some 0])

@[simp] theorem length_strBytes (str : List UInt8) : (strBytes str).length = str.length + 5 := by
  simp only [strBytes, length_append, length_map, length_leBytes, length_singleton]
  omega

theorem plain_str (h : str.length < 2 ^ 32) : (serializeStr str).Plain (strBytes str) := by
  have hBytes : (serializeStr str).bytes = strBytes str := by
    simp only [serializeStr, strBytes, Nat.mod_eq_of_lt h, take_length]
  refine ⟨fun hFits => ⟨hBytes, ?_⟩, fun hLong => ?_⟩
  · rw [length_strBytes] at hFits ⊢
    simp only [serializeStr, serialLenStr, Nat.mod_eq_of_lt h]
    rw [Nat.mod_eq_of_lt (by omega)]
    omega
  · rwa [hBytes]

theorem reads_str (h : str.length + 5 < 2 ^ 32) : Reads deserializeStr (strBytes str) str := by
  intro mem rest bufLen hFills hLen
  have hTotal := hFills.length_eq
  rw [length_strBytes] at hTotal
  have hLenStr : serialLenStr str.length = str.length + 5 := by
    rw [serialLenStr, Nat.mod_eq_of_lt (by omega)]
    omega
  obtain ⟨front, tail, rfl, hFront, hTail⟩ := fills_append hFills
  obtain ⟨body, last, rfl, hBody, hLast⟩ := fills_append hTail
  obtain rfl := fills_map_some.mp hBody
  have hZero : last = [0] := fills_map_some.mp (show Fills ([0].map some) last from hLast)
  subst hZero
  have hRead := readLe_leBytes 4 (by omega : body.length < 256 ^ 4) front
    (body ++ [0] ++ rest) bufLen hFront
  have hFrontLen : front.length = 4 := by rw [hFront.length_eq, length_map, length_leBytes]
  rw [hFrontLen, ← append_assoc] at hRead
  have hTerminator : (body ++ [0] ++ rest)[body.length]? = some 0 := by
    rw [append_assoc, getElem?_append_right (le_rfl), Nat.sub_self]
    rfl
  have hTake : (body ++ [0] ++ rest).take body.length = body := by
    rw [append_assoc, take_left]
  have hAdvance := advance_append rest hLen
  rw [hTotal] at hAdvance hLen ⊢
  have hMin : ¬ bufLen < serialLenStr 0 := by
    rw [serialLenStr]
    omega
  unfold deserializeStr
  rw [if_neg hMin, hRead (by omega)]
  simp only
  rw [hLenStr, if_neg (not_lt.mpr hLen), hTerminator]
  simp only [ne_eq, not_true_eq_false, if_false]
  rw [hTake, hAdvance]

/-! ## Vectors -/

def serializeVector {α : Type} (elemLen : Nat) (serialize : α → Encoding) (vec : List α) :
    Encoding :=
  let requiredLen := (8 + vec.length * elemLen) % 2 ^ 32
  let listSize := vec.length % 2 ^ 32
  (leBytes 4 requiredLen).map some ++ ((leBytes 4 listSize).map some ++ vec.flatMap serialize)

/-- What the pre-processing finds out. -/
structure VectorInfo where
  elemNum : Nat
  vecStart : List UInt8
  vecBufLen : Nat

def deserializeVectorPreprocess (elemLen : Nat) (c : Wire.Cursor) : Except ReadError VectorInfo :=
  match readLe 4 c with
  | .error e => .error e
  | .ok (outLen, c') =>
    match readLe 4 c' with
    | .error e => .error e
    | .ok (outElemNum, vecStart) =>
      -- the length is an `unsigned`, the difference a `size_t`
      if outLen > c.bufLen ∨ (outLen + 2 ^ 64 - 8) % 2 ^ 64 ≠ outElemNum * elemLen % 2 ^ 32 then
        .error .rejected
      else .ok ⟨outElemNum, vecStart.mem, outLen⟩

def readMany {α : Type} (deserialize : Reader α) : Nat → Reader (List α)
  | 0 => pure []
  | n + 1 => do
    let value ← deserialize
    let values ← readMany deserialize n
    pure (value :: values)

def deserializeElems {α : Type} (deserialize : Reader α) (info : VectorInfo) :
    Except ReadError (List α) :=
  match readMany deserialize info.elemNum ⟨info.vecStart, (info.vecBufLen + 2 ^ 32 - 8) % 2 ^ 32⟩
  with
  | .error e => .error e
  | .ok (values, _) => .ok values

/-- The pre-processing and the elements. The caller goes on behind the vector. -/
def deserializeVector {α : Type} (elemLen : Nat) (deserialize : Reader α) : Reader (List α) :=
  fun c =>
    match deserializeVectorPreprocess elemLen c with
    | .error e => .error e
    | .ok info =>
      match deserializeElems deserialize info with
      | .error e => .error e
      | .ok values => .ok (values, c.advance info.vecBufLen)

def serializeUInt16Vector (vec : List UInt16) : Encoding := serializeVector 2 serializeUInt16 vec

def deserializeUInt16Vector : Reader (List UInt16) := deserializeVector 2 deserializeUInt16

def serializeUInt64Vector (vec : List UInt64) : Encoding := serializeVector 8 serializeUInt64 vec

def deserializeUInt64Vector : Reader (List UInt64) := deserializeVector 8 deserializeUInt64

section Vector

variable {α : Type} {elemLen : Nat} {serialize : α → Encoding} {deserialize : Reader α}
  {vec : List α}

section

variable (hLen : ∀ value, (serialize value).length = elemLen) (vec : List α)
include hLen

theorem length_flatMap_serialize : (vec.flatMap serialize).length = vec.length * elemLen := by
  induction vec with
  | nil => simp
  | cons value values ih =>
    rw [flatMap_cons, length_append, hLen, ih, length_cons, Nat.succ_mul, add_comm]

theorem length_serializeVector :
    (serializeVector elemLen serialize vec).length = 8 + vec.length * elemLen := by
  simp only [serializeVector, length_append, length_map, length_leBytes,
    length_flatMap_serialize hLen]
  omega

end

theorem reads_readMany_map {β : Type} {deserialize : Reader β} {value : α → β}
    (h : ∀ x ∈ vec, Reads deserialize (serialize x) (value x)) :
    Reads (readMany deserialize vec.length) (vec.flatMap serialize) (vec.map value) := by
  induction vec with
  | nil => exact .pure []
  | cons x xs ih =>
    apply (h x mem_cons_self).bind
    apply (ih fun y hy => h y (mem_cons_of_mem _ hy)).bind_of_nil
    exact .pure _

section

variable (hReads : ∀ value, Reads deserialize (serialize value) value)
include hReads

theorem reads_readMany
    (vec : List α) : Reads (readMany deserialize vec.length) (vec.flatMap serialize) vec := by
  have hMap : Reads (readMany deserialize vec.length) (vec.flatMap serialize) (vec.map id) :=
    reads_readMany_map fun value _ => hReads value
  rwa [map_id] at hMap

theorem reads_vector (hLen : ∀ value, (serialize value).length = elemLen) (hElem : 0 < elemLen)
    (hFits : 8 + vec.length * elemLen < 2 ^ 32) :
    Reads (deserializeVector elemLen deserialize) (serializeVector elemLen serialize vec) vec := by
  intro mem rest bufLen hFills hBufLen
  have hTotal := hFills.length_eq
  rw [length_serializeVector hLen] at hTotal
  have hNum : vec.length ≤ vec.length * elemLen := Nat.le_mul_of_pos_right _ hElem
  have hMod : (8 + vec.length * elemLen) % 2 ^ 32 = 8 + vec.length * elemLen :=
    Nat.mod_eq_of_lt hFits
  have hModNum : vec.length % 2 ^ 32 = vec.length := Nat.mod_eq_of_lt (by omega)
  simp only [serializeVector, hMod, hModNum] at hFills
  obtain ⟨lenField, tail, rfl, hLenField, hTail⟩ := fills_append hFills
  obtain ⟨numField, elems, rfl, hNumField, hElems⟩ := fills_append hTail
  have hLenFieldLen : lenField.length = 4 := by
    rw [hLenField.length_eq, length_map, length_leBytes]
  have hNumFieldLen : numField.length = 4 := by
    rw [hNumField.length_eq, length_map, length_leBytes]
  have hElemsLen : elems.length = vec.length * elemLen := by
    rw [hElems.length_eq, length_flatMap_serialize hLen]
  have hReadLen := readLe_leBytes 4 (by simpa using hFits) lenField
    (numField ++ elems ++ rest) bufLen hLenField (by omega)
  have hReadNum := readLe_leBytes 4 (by omega) numField (elems ++ rest)
    (bufLen - 4) hNumField (by omega)
  have hReadElems := reads_readMany hReads vec elems rest (vec.length * elemLen) hElems
    (le_of_eq hElemsLen)
  rw [← append_assoc, hLenFieldLen] at hReadLen
  rw [← append_assoc, hNumFieldLen] at hReadNum
  have hAdvance := advance_append rest hBufLen
  rw [hTotal] at hAdvance hBufLen ⊢
  have hPreprocess : deserializeVectorPreprocess elemLen
      ⟨lenField ++ (numField ++ elems) ++ rest, bufLen⟩ =
      .ok ⟨vec.length, elems ++ rest, 8 + vec.length * elemLen⟩ := by
    unfold deserializeVectorPreprocess
    rw [hReadLen]
    simp only
    rw [hReadNum]
    simp only
    rw [if_neg]
    rw [Nat.mod_eq_of_lt (by omega : vec.length * elemLen < 2 ^ 32)]
    omega
  have hDeserialize : deserializeElems deserialize
      ⟨vec.length, elems ++ rest, 8 + vec.length * elemLen⟩ = .ok vec := by
    unfold deserializeElems
    rw [show (8 + vec.length * elemLen + 2 ^ 32 - 8) % 2 ^ 32 = vec.length * elemLen by omega,
      hReadElems]
  unfold deserializeVector
  rw [hPreprocess]
  simp only
  rw [hDeserialize]
  rw [hAdvance]

end

end Vector

theorem length_serializeUInt16Vector (vec : List UInt16) :
    (serializeUInt16Vector vec).length = 8 + vec.length * 2 :=
  length_serializeVector length_serializeUInt16 vec

theorem reads_uint16Vector {vec : List UInt16}
    (hFits : (serializeUInt16Vector vec).length < 2 ^ 32) :
    Reads deserializeUInt16Vector (serializeUInt16Vector vec) vec := by
  rw [length_serializeUInt16Vector] at hFits
  exact reads_vector reads_uint16 length_serializeUInt16 (by omega) hFits

theorem length_serializeUInt64Vector (vec : List UInt64) :
    (serializeUInt64Vector vec).length = 8 + vec.length * 8 :=
  length_serializeVector length_serializeUInt64 vec

theorem reads_uint64Vector {vec : List UInt64} (hFits : 8 + vec.length * 8 < 2 ^ 32) :
    Reads deserializeUInt64Vector (serializeUInt64Vector vec) vec :=
  reads_vector reads_uint64 length_serializeUInt64 (by omega) hFits

end Fhgfs.Serialization
