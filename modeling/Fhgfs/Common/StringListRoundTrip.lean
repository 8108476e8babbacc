import Fhgfs.Client.MessageDecoding

/-!
# Lists of strings are read back

The servers write a list of strings with its length, the number of its elements and the elements
with their zeros. All readers give the list back, and a list that was read is written as it was
read. The writer computes the length of an element as an `int`, so that an element of 2^31 - 1
bytes or more has a negative length.

* `serializeStringList_of_fits`, `serializeStringList_of_long`: what is written.
* `readStrings_elems`, `readStrings_eq_ok`: the elements that are read, in both directions.
* `stringLists_inverse_iff`: the lists that are written and read back, and the bytes that are read
  and written back.
-/

namespace Fhgfs.Serialization

open Wire List Client.Serialization

/-! ## The encoding -/

def elemBytes (str : ByteString) : List UInt8 := str ++ [0]

/-- The length of the encoding, as a natural number. -/
def listLen (list : List ByteString) : Nat := 8 + (list.flatMap elemBytes).length

def listBytes (list : List ByteString) : List UInt8 :=
  leBytes 4 (listLen list) ++ (leBytes 4 list.length ++ list.flatMap elemBytes)

@[simp] theorem length_elemBytes (str : ByteString) : (elemBytes str).length = str.length + 1 := by
  simp [elemBytes]

@[simp] theorem length_listBytes (list : List ByteString) :
    (listBytes list).length = listLen list := by
  simp only [listBytes, listLen, length_append, length_leBytes]
  omega

theorem length_le_listLen (list : List ByteString) : list.length + 8 ≤ listLen list := by
  unfold listLen
  induction list with
  | nil => simp
  | cons str list ih =>
    simp only [flatMap_cons, length_append, length_elemBytes, length_cons]
    omega

variable {str : ByteString}

theorem length_lt_listLen {list : List ByteString} (h : str ∈ list) :
    str.length + 8 < listLen list := by
  unfold listLen
  induction list with
  | nil => exact absurd h not_mem_nil
  | cons head list ih =>
    simp only [flatMap_cons, length_append, length_elemBytes]
    rcases mem_cons.mp h with rfl | h
    · omega
    · have hRest := ih h
      omega

theorem serialLenStringList_eq (list : List ByteString) :
    serialLenStringList list = listLen list % 2 ^ 32 := by
  have hFold : ∀ requiredLen < 2 ^ 32,
      list.foldl (fun requiredLen str => (requiredLen + (str.length + 1)) % 2 ^ 32) requiredLen =
        (requiredLen + (list.flatMap elemBytes).length) % 2 ^ 32 := by
    induction list with
    | nil =>
      intro requiredLen hLt
      exact (Nat.mod_eq_of_lt hLt).symm
    | cons str list ih =>
      intro requiredLen _
      rw [foldl_cons, ih _ (Nat.mod_lt _ (by omega)), flatMap_cons, length_append,
        length_elemBytes, Nat.mod_add_mod, add_assoc]
  exact hFold 8 (by omega)

section

variable {α β : Type} {f : α → Option β}

theorem mapM_eq_map {g : α → β} {xs : List α}
    (h : ∀ x ∈ xs, f x = some (g x)) : xs.mapM f = some (xs.map g) := by
  induction xs with
  | nil => rfl
  | cons x xs ih =>
    rw [mapM_cons, h x mem_cons_self, ih fun y hy => h y (mem_cons_of_mem _ hy)]
    rfl

theorem mapM_eq_none {xs : List α} {x : α} (hMem : x ∈ xs) (h : f x = none) : xs.mapM f = none := by
  induction xs with
  | nil => exact absurd hMem not_mem_nil
  | cons y xs ih =>
    rw [mapM_cons]
    rcases mem_cons.mp hMem with rfl | hMem
    · rw [h]
      rfl
    · rw [ih hMem]
      cases f y <;> rfl

end

theorem serialElemLen_of_fits (h : str.length + 1 < 2 ^ 31) :
    serialElemLen str = (str.length + 1 : Nat) := by
  have hModulus : ((2 ^ 32 : Nat) : Int) = 4294967296 := rfl
  unfold serialElemLen Int.bmod
  rw [hModulus]
  dsimp only
  split <;> omega

theorem serialElemLen_of_long (h : 2 ^ 31 ≤ str.length + 1)
    (hLen : str.length + 1 < 2 ^ 32) : serialElemLen str < 0 := by
  have hModulus : ((2 ^ 32 : Nat) : Int) = 4294967296 := rfl
  unfold serialElemLen Int.bmod
  rw [hModulus]
  dsimp only
  split <;> omega

theorem copyElem_of_fits (h : str.length + 1 < 2 ^ 31) :
    copyElem str = some ((elemBytes str).map some) := by
  have hTake : (elemBytes str).take (str.length + 1) = elemBytes str := by
    rw [← length_elemBytes, take_length]
  rw [copyElem, serialElemLen_of_fits h, if_neg (not_lt.mpr (Int.natCast_nonneg _)),
    Int.toNat_natCast, ← elemBytes, hTake]

section

variable {list : List ByteString} (hFits : listLen list < 2 ^ 32)
include hFits

theorem serializeStringList_of_fits (h : ∀ str ∈ list, str.length + 1 < 2 ^ 31) :
    serializeStringList list = some ⟨(listBytes list).map some, listLen list⟩ := by
  have hNum := length_le_listLen list
  have hSize : list.length % 2 ^ 32 = list.length := Nat.mod_eq_of_lt (by omega)
  have hElems : (list.map fun str => (elemBytes str).map some).flatten =
      (list.flatMap elemBytes).map some := by
    rw [← flatMap_def, map_flatMap]
  unfold serializeStringList
  dsimp only
  rw [hSize, take_length, mapM_eq_map fun str hStr => copyElem_of_fits (h str hStr),
    serialLenStringList_eq, Nat.mod_eq_of_lt hFits, Option.map_some, hElems]
  simp only [listBytes, map_append]

theorem serializeStringList_of_long (hMem : str ∈ list) (h : 2 ^ 31 ≤ str.length + 1) :
    serializeStringList list = none := by
  have hNum := length_le_listLen list
  have hStr := length_lt_listLen hMem
  have hSize : list.length % 2 ^ 32 = list.length := Nat.mod_eq_of_lt (by omega)
  unfold serializeStringList
  dsimp only
  rw [hSize, take_length, mapM_eq_none hMem (by
    rw [copyElem, if_pos (serialElemLen_of_long h (by omega))])]
  rfl

end

/-! ## The elements are read -/

theorem takeWhile_elem (h : 0 ∉ str) (rest : List UInt8) :
    (str ++ 0 :: rest).takeWhile (· ≠ 0) = str := by
  rw [takeWhile_append_of_pos]
  · rw [takeWhile_cons_of_neg (by decide), append_nil]
  · intro b hb
    exact decide_eq_true fun hZero => h (hZero ▸ hb)

theorem readCStr_elem (h : 0 ∉ str) (rest : List UInt8) :
    readCStr (str ++ 0 :: rest) = .ok str := by
  rw [readCStr, if_pos (mem_append_right _ mem_cons_self), takeWhile_elem h]

theorem readStrings_elems {list : List ByteString} (h : ∀ str ∈ list, 0 ∉ str)
    {currentPos elemsBufLen : Nat} (rest : List UInt8)
    (hEnd : elemsBufLen = currentPos + (list.flatMap elemBytes).length)
    (hLen : elemsBufLen < 2 ^ 32) :
    readStrings elemsBufLen list.length currentPos (list.flatMap elemBytes ++ rest) = .ok list := by
  induction list generalizing currentPos with
  | nil =>
    rw [length_nil, readStrings, if_neg]
    rw [hEnd]
    simp
  | cons str list ih =>
    rw [flatMap_cons, length_append, length_elemBytes] at hEnd
    have hMem : (str :: list).flatMap elemBytes ++ rest =
        str ++ 0 :: (list.flatMap elemBytes ++ rest) := by
      simp [elemBytes]
    have hMod : (str.length + 1) % 2 ^ 32 = str.length + 1 := Nat.mod_eq_of_lt (by omega)
    have hDrop : (str ++ 0 :: (list.flatMap elemBytes ++ rest)).drop (str.length + 1) =
        list.flatMap elemBytes ++ rest := by
      simp
    have hEnd' : elemsBufLen = currentPos + (str.length + 1) + (list.flatMap elemBytes).length := by
      omega
    have hRest := ih (fun s hs => h s (mem_cons_of_mem _ hs)) hEnd'
    rw [length_cons, readStrings, if_pos (by omega), hMem, readCStr_elem (h str mem_cons_self)]
    simp only [bind, Except.bind, hMod, hDrop, hRest]
    rfl

theorem exists_elem {mem : List UInt8} {i : Nat} (h : mem[i]? = some 0) :
    ∃ rest, mem = elemBytes (mem.takeWhile (· ≠ 0)) ++ rest := by
  induction mem generalizing i with
  | nil => cases h
  | cons b mem ih =>
    by_cases hZero : b = 0
    · subst hZero
      exact ⟨mem, rfl⟩
    cases i with
    | zero => exact absurd (Option.some.inj h) hZero
    | succ i =>
      obtain ⟨rest, hRest⟩ := ih h
      refine ⟨rest, ?_⟩
      have hTake : (b :: mem).takeWhile (· ≠ 0) = b :: mem.takeWhile (· ≠ 0) :=
        takeWhile_cons_of_pos (decide_eq_true hZero)
      rw [hTake]
      exact congrArg (b :: ·) hRest

theorem readStrings_eq_ok {elemsBufLen elemNum : Nat} {list : List ByteString}
    (hLen : elemsBufLen < 2 ^ 32) :
    ∀ {currentPos : Nat} {mem : List UInt8}, currentPos ≤ elemsBufLen →
      (currentPos < elemsBufLen → mem[elemsBufLen - currentPos - 1]? = some 0) →
      readStrings elemsBufLen elemNum currentPos mem = .ok list →
      list.length = elemNum ∧ mem.take (elemsBufLen - currentPos) = list.flatMap elemBytes ∧
        (list.flatMap elemBytes).length = elemsBufLen - currentPos := by
  induction elemNum generalizing list with
  | zero =>
    intro currentPos mem hPos _ hRun
    rw [readStrings] at hRun
    split at hRun
    · cases hRun
    next hDone =>
      obtain rfl := Except.ok.inj hRun
      have hNone : elemsBufLen - currentPos = 0 := by omega
      rw [hNone]
      exact ⟨rfl, rfl, rfl⟩
  | succ elemNum ih =>
    intro currentPos mem hPos hLast hRun
    rw [readStrings] at hRun
    split at hRun
    next hInside =>
      have hZero := hLast hInside
      have hEnd := length_takeWhile_le hZero
      have hMod : ((mem.takeWhile (· ≠ 0)).length + 1) % 2 ^ 32 =
          (mem.takeWhile (· ≠ 0)).length + 1 := Nat.mod_eq_of_lt (by omega)
      obtain ⟨rest, hMem⟩ := exists_elem hZero
      rw [readCStr_of hZero] at hRun
      simp only [bind, Except.bind, hMod] at hRun
      generalize mem.takeWhile (· ≠ 0) = str at *
      subst hMem
      have hDrop : (elemBytes str ++ rest).drop (str.length + 1) = rest := by
        rw [← length_elemBytes, drop_left]
      rw [hDrop] at hRun
      cases hRest : readStrings elemsBufLen elemNum (currentPos + (str.length + 1)) rest with
      | error e =>
        rw [hRest] at hRun
        cases hRun
      | ok elems =>
        rw [hRest] at hRun
        obtain rfl := Except.ok.inj hRun
        obtain ⟨hNum, hTake, hLength⟩ := ih (by omega) (by
          intro hNext
          rw [← hZero, getElem?_append_right (by rw [length_elemBytes]; omega), length_elemBytes]
          congr 1
          omega) hRest
        refine ⟨congrArg (· + 1) hNum, ?_, ?_⟩
        · rw [flatMap_cons, ← hTake, take_append, length_elemBytes,
            take_of_length_le (by rw [length_elemBytes]; omega)]
          congr 2
          omega
        · rw [flatMap_cons, length_append, length_elemBytes, hLength]
          omega
    next => cases hRun

/-! ## The lists -/

section Lists

variable {list : List ByteString}

theorem leAt_append_of {width v : Nat} (front rest : List UInt8) (h : v < 256 ^ width) :
    leAt width (front ++ (leBytes width v ++ rest)) front.length = v := by
  rw [leAt, drop_left, take_left' (length_leBytes _ _), ofLeBytes_leBytes h]

theorem leAt_listBytes (hFits : listLen list < 2 ^ 32) (rest : List UInt8) :
    leAt 4 (listBytes list ++ rest) 0 = listLen list ∧
      leAt 4 (listBytes list ++ rest) 4 = list.length := by
  have hNum := length_le_listLen list
  constructor
  · exact leAt_append_of [] _ hFits
  · have hRead := @leAt_append_of 4 list.length (leBytes 4 (listLen list))
      (list.flatMap elemBytes ++ rest) (by omega)
    rwa [length_leBytes] at hRead

theorem drop_listBytes (rest : List UInt8) :
    (listBytes list ++ rest).drop 8 = list.flatMap elemBytes ++ rest := by
  have hHeader : (leBytes 4 (listLen list) ++ leBytes 4 list.length).length = 8 := by simp
  rw [listBytes, ← append_assoc, append_assoc, ← hHeader, drop_left]

theorem last_listBytes (h : list ≠ []) (rest : List UInt8) :
    (listBytes list ++ rest)[listLen list - 1]? = some 0 := by
  obtain ⟨front, str, rfl⟩ : ∃ front str, list = front ++ [str] :=
    ⟨_, _, (dropLast_append_getLast h).symm⟩
  have hBytes : listBytes (front ++ [str]) ++ rest =
      (leBytes 4 (listLen (front ++ [str])) ++ leBytes 4 (front ++ [str]).length ++
        front.flatMap elemBytes ++ str) ++ 0 :: rest := by
    simp [listBytes, elemBytes]
  have hLen : listLen (front ++ [str]) - 1 =
      (leBytes 4 (listLen (front ++ [str])) ++ leBytes 4 (front ++ [str]).length ++
        front.flatMap elemBytes ++ str).length := by
    simp only [listLen, flatMap_append, flatMap_singleton, length_append,
      length_elemBytes, length_leBytes]
    omega
  rw [hBytes, hLen, getElem?_append_right (le_rfl), Nat.sub_self]
  rfl

theorem stringsPreprocess_listBytes {minLen : Nat} (hMin : minLen ≤ 8)
    (hFits : listLen list < 2 ^ 32) (rest : List UInt8) :
    deserializeStringsPreprocess minLen (.of (listBytes list ++ rest)) =
      .ok ⟨list.length, list.flatMap elemBytes ++ rest, listLen list⟩ := by
  obtain ⟨hLen, hCount⟩ := leAt_listBytes hFits rest
  have hNum := length_le_listLen list
  have hBuf : (listBytes list ++ rest).length = listLen list + rest.length := by simp
  rw [stringsPreprocess_of (by omega), hLen, hCount, drop_listBytes, if_neg (by omega)]
  by_cases hNone : list = []
  · rw [if_pos (by rw [hNone]; rfl)]
  · rw [if_neg (by rwa [length_eq_zero_iff]), if_neg (by omega), last_listBytes hNone]
    exact if_neg (not_not.mpr rfl)

theorem deserializeStrings_listBytes (hFits : listLen list < 2 ^ 32)
    (h : ∀ str ∈ list, 0 ∉ str) (rest : List UInt8) :
    deserializeStrings ⟨list.length, list.flatMap elemBytes ++ rest, listLen list⟩ = .ok list := by
  have hElems : (listLen list + 2 ^ 32 - 8) % 2 ^ 32 = (list.flatMap elemBytes).length := by
    unfold listLen at hFits ⊢
    omega
  unfold deserializeStrings
  rw [hElems]
  apply readStrings_elems h rest (by omega)
  omega

theorem leBytes_ofLeBytes (bytes : List UInt8) :
    leBytes bytes.length (ofLeBytes bytes) = bytes := by
  induction bytes with
  | nil => rfl
  | cons b bytes ih =>
    have hByte := b.toNat_lt
    have hQuotient : (b.toNat + 256 * ofLeBytes bytes) / 256 = ofLeBytes bytes := by omega
    rw [ofLeBytes, length_cons, leBytes, hQuotient, ih]
    congr 1
    apply UInt8.toNat_inj.mp
    rw [UInt8.toNat_ofNat']
    omega

theorem leBytes_leAt {buf : List UInt8} {offset width : Nat} (h : offset + width ≤ buf.length) :
    leBytes width (leAt width buf offset) = (buf.drop offset).take width := by
  have hLen : ((buf.drop offset).take width).length = width := by
    rw [length_take, length_drop]
    omega
  have hBytes := leBytes_ofLeBytes ((buf.drop offset).take width)
  rwa [hLen] at hBytes

theorem listBytes_of_deserialized {buf : List UInt8} {info : VectorInfo}
    (hInfo : deserializeStringListPreprocess (.of buf) = .ok info)
    (hList : deserializeStringList info = .ok list) :
    listBytes list = buf.take info.vecBufLen ∧ listLen list = info.vecBufLen ∧
      info.vecBufLen < 2 ^ 32 := by
  have hRun : deserializeStringsPreprocess 8 (.of buf) = .ok info := hInfo
  by_cases hShort : buf.length < 8
  · rw [stringsPreprocess_of_short hShort] at hRun
    cases hRun
  have hLt := leAt_four_lt buf 0
  rw [stringsPreprocess_of (by omega)] at hRun
  by_cases hLen : leAt 4 buf 0 > buf.length ∨ leAt 4 buf 0 < 8
  · rw [if_pos hLen] at hRun
    cases hRun
  rw [if_neg hLen] at hRun
  have hAccepted : info = ⟨leAt 4 buf 4, buf.drop 8, leAt 4 buf 0⟩ ∧
      (leAt 4 buf 4 ≠ 0 → buf[leAt 4 buf 0 - 1]? = some 0) := by
    by_cases hNone : leAt 4 buf 4 = 0
    · rw [if_pos hNone] at hRun
      exact ⟨(Except.ok.inj hRun).symm, fun h => absurd hNone h⟩
    have hInside : leAt 4 buf 0 - 1 < buf.length := by omega
    rw [if_neg hNone, if_neg (by omega), getElem?_eq_getElem hInside] at hRun
    dsimp only at hRun
    by_cases hZero : buf[leAt 4 buf 0 - 1] = 0
    · rw [if_neg (not_not.mpr hZero)] at hRun
      refine ⟨(Except.ok.inj hRun).symm, fun _ => ?_⟩
      rw [getElem?_eq_getElem hInside, hZero]
    · rw [if_pos hZero] at hRun
      cases hRun
  obtain ⟨rfl, hLast⟩ := hAccepted
  have hElems : (leAt 4 buf 0 + 2 ^ 32 - 8) % 2 ^ 32 = leAt 4 buf 0 - 8 := by omega
  have hRead : readStrings (leAt 4 buf 0 - 8) (leAt 4 buf 4) 0 (buf.drop 8) = .ok list :=
    hElems ▸ hList
  have hEnd : 0 < leAt 4 buf 0 - 8 → (buf.drop 8)[leAt 4 buf 0 - 8 - 0 - 1]? = some 0 := by
    intro hSome
    have hCount : leAt 4 buf 4 ≠ 0 := by
      intro hNone
      rw [hNone, readStrings, if_pos hSome] at hRead
      cases hRead
    have hPos : 8 + (leAt 4 buf 0 - 8 - 0 - 1) = leAt 4 buf 0 - 1 := by omega
    rw [getElem?_drop, hPos, hLast hCount]
  obtain ⟨hNum, hTake, hLength⟩ := readStrings_eq_ok (by omega) (Nat.zero_le _) hEnd hRead
  have hListLen : listLen list = leAt 4 buf 0 := by
    rw [listLen, hLength]
    omega
  refine ⟨?_, hListLen, hLt⟩
  have hSplit : leAt 4 buf 0 = 4 + (4 + (leAt 4 buf 0 - 8 - 0)) := by omega
  rw [listBytes, hListLen, hNum, ← hTake, leBytes_leAt (by omega), leBytes_leAt (by omega),
    drop_zero]
  conv_rhs => rw [hSplit, take_add, take_add, drop_drop]

end Lists

/-! ## Both directions -/

/-- The list is written with the length that was computed for it, and every reader gives it back,
whatever follows in the buffer. -/
structure RoundTrips (list : List ByteString) : Prop where
  roundTrip : ∃ written, serializeStringList list = some written ∧
    written.bytes.length = serialLenStringList list ∧ written.used = serialLenStringList list ∧
    ∀ mem rest, Fills written.bytes mem → ∃ info : VectorInfo, info.vecBufLen = written.used ∧
      deserializeStringListPreprocess (.of (mem ++ rest)) = .ok info ∧
      deserializeStringList info = .ok list ∧
      deserializeStringVecPreprocess (.of (mem ++ rest)) = .ok info ∧
      deserializeStringVec info = .ok list ∧
      deserializeStringSetPreprocess (.of (mem ++ rest)) = .ok info ∧
      deserializeStringSet info = .ok list.toFinset ∧
      Client.Serialization.deserializeStrCpyListPreprocess (.of (mem ++ rest)) = .ok info ∧
      Client.Serialization.deserializeStrCpyList info = .ok list

/-- The list is written as the bytes that it was read from. -/
def Reencodes (buf : List UInt8) (info : VectorInfo) (list : List ByteString) : Prop :=
  serializeStringList list = some ⟨(buf.take info.vecBufLen).map some, info.vecBufLen⟩

theorem roundTrips_of_fits {list : List ByteString} (hNul : ∀ str ∈ list, 0 ∉ str)
    (hFits : listLen list < 2 ^ 32) (h : ∀ str ∈ list, str.length + 1 < 2 ^ 31) :
    RoundTrips list := by
  have hSerialLen : serialLenStringList list = listLen list := by
    rw [serialLenStringList_eq, Nat.mod_eq_of_lt hFits]
  refine ⟨⟨_, serializeStringList_of_fits hFits h, ?_, ?_, ?_⟩⟩
  · rw [hSerialLen]
    simp
  · exact hSerialLen.symm
  intro mem rest hFills
  obtain rfl := fills_map_some.mp hFills
  have hRead := deserializeStrings_listBytes hFits hNul rest
  have hSet : deserializeStringSet ⟨list.length, list.flatMap elemBytes ++ rest, listLen list⟩ =
      .ok list.toFinset := by
    rw [deserializeStringSet, hRead]
    rfl
  exact ⟨_, rfl, stringsPreprocess_listBytes (le_refl 8) hFits rest, hRead,
    stringsPreprocess_listBytes (Nat.zero_le 8) hFits rest, hRead,
    stringsPreprocess_listBytes (le_refl 8) hFits rest, hSet,
    stringsPreprocess_listBytes (le_refl 8) hFits rest, hRead⟩

theorem serializeStrCpyList_of_fits {list : List ByteString} (hFits : listLen list < 2 ^ 32) :
    serializeStrCpyList list = ⟨(listBytes list).map some, listLen list⟩ := by
  have hNum := length_le_listLen list
  have hElems : (list.flatMap fun elem => (elem ++ [0]).map some) =
      (list.flatMap elemBytes).map some := by
    rw [map_flatMap]
    rfl
  unfold serializeStrCpyList serialLenStrCpyList
  rw [serialLenStringList_eq, Nat.mod_eq_of_lt hFits, Nat.mod_eq_of_lt (by omega), hElems]
  simp only [listBytes, map_append]

theorem long_of_not_fits {list : List ByteString} (h : ¬ ∀ str ∈ list, str.length + 1 < 2 ^ 31) :
    ∃ str ∈ list, 2 ^ 31 ≤ str.length + 1 := by
  simpa using h

/-- A list is written and read back, and what was read is written back, exactly if all its elements
are shorter than 2^31 - 1 bytes. -/
theorem stringLists_inverse_iff (list : List ByteString) (buf : List UInt8) :
    ((∀ str ∈ list, 0 ∉ str) → listLen list < 2 ^ 32 →
      (RoundTrips list ↔ ∀ str ∈ list, str.length + 1 < 2 ^ 31)) ∧
    ∀ (info : VectorInfo) (list : List ByteString),
      deserializeStringListPreprocess (.of buf) = .ok info →
      deserializeStringList info = .ok list →
      (Reencodes buf info list ↔ ∀ str ∈ list, str.length + 1 < 2 ^ 31) := by
  constructor
  · intro hNul hFits
    constructor
    · rintro ⟨⟨written, hWritten, -⟩⟩
      by_contra hLong
      obtain ⟨str, hMem, hStr⟩ := long_of_not_fits hLong
      rw [serializeStringList_of_long hFits hMem hStr] at hWritten
      cases hWritten
    · exact roundTrips_of_fits hNul hFits
  · intro info list hInfo hList
    obtain ⟨hBytes, hLen, hLt⟩ := listBytes_of_deserialized hInfo hList
    constructor
    · intro hWritten
      by_contra hLong
      obtain ⟨str, hMem, hStr⟩ := long_of_not_fits hLong
      rw [Reencodes, serializeStringList_of_long (hLen ▸ hLt) hMem hStr] at hWritten
      cases hWritten
    · intro hFits
      rw [Reencodes, serializeStringList_of_fits (hLen ▸ hLt) hFits, hBytes, hLen]

theorem stringLists_inverse_iff_three :
    let list : List ByteString := [[97], [], [98, 99]]
    let buf : List UInt8 := [14, 0, 0, 0, 3, 0, 0, 0, 97, 0, 0, 98, 99, 0, 1]
    (RoundTrips list ↔ ∀ str ∈ list, str.length + 1 < 2 ^ 31) ∧
      (Reencodes buf ⟨3, buf.drop 8, 14⟩ list ↔ ∀ str ∈ list, str.length + 1 < 2 ^ 31) :=
  ⟨(stringLists_inverse_iff _ []).1 (by decide) (by decide),
    (stringLists_inverse_iff [] _).2 _ _ rfl rfl⟩

theorem not_roundTrips_replicate {n : Nat} (h : 2 ^ 31 ≤ n + 1)
    (hFits : listLen [replicate n (97 : UInt8)] < 2 ^ 32) :
    ¬ RoundTrips [replicate n 97] := by
  rintro ⟨⟨written, hWritten, -⟩⟩
  rw [serializeStringList_of_long hFits mem_cons_self (by rwa [length_replicate])]
    at hWritten
  cases hWritten

theorem nul_notMem_replicate (n : Nat) : 0 ∉ replicate n (97 : UInt8) := by
  intro hZero
  exact absurd (eq_of_mem_replicate hZero) (by decide)

theorem listLen_replicate (n : Nat) : listLen [replicate n (97 : UInt8)] = n + 9 := by
  simp only [listLen, flatMap_singleton, length_elemBytes, length_replicate]
  omega

/-- An element of 2^31 - 1 bytes, for which `memcpy` is called with a length of -2^31. -/
theorem not_roundTrips :
    ¬ ∀ list : List ByteString, (∀ str ∈ list, 0 ∉ str) → listLen list < 2 ^ 32 →
      RoundTrips list := by
  intro h
  have hFits : listLen [replicate 2147483647 (97 : UInt8)] < 2 ^ 32 := by
    rw [listLen_replicate]
    omega
  refine not_roundTrips_replicate (by omega) hFits (h _ ?_ hFits)
  intro str hStr
  rw [mem_singleton.mp hStr]
  exact nul_notMem_replicate _

end Fhgfs.Serialization
