import Fhgfs.Common.ByteString
import Fhgfs.Metadata.FileInodeStoreData

/-!
# Paths of chunk files

Where the chunks of a file are, below the directory of a target. The old layout has two hash
directories, computed from the entry ID. The new one has directories for the original owner, for
the month and the day of the timestamp in the ID of the original parent directory, and for this
ID. The path is put together in three places: as a string, as a vector of directories, and by
fsck. `none` is the result where the code throws or has no element to remove.

* `chunkPaths_agree`: the three agree, and paths of one layout are different for different files.
* `calculateExpectedChunkPath_eq_iff`: fsck looks for the whole flags where the others look for
  one bit.
-/

namespace Fhgfs

open Metadata List ByteString Option StringTk

/-! ## Hashes -/

namespace BufferTk

def get16bits (low high : UInt8) : UInt32 := low.toUInt32 ||| high.toUInt32 <<< 8

def signedChar (byte : UInt8) : UInt32 := byte.toInt8.toInt32.toUInt32

def hashLoop (hash : UInt32) : List UInt8 → UInt32
  | b0 :: b1 :: b2 :: b3 :: data =>
    let hash := hash + get16bits b0 b1
    let tmp := get16bits b2 b3 <<< 11 ^^^ hash
    let hash := hash <<< 16 ^^^ tmp
    hashLoop (hash + hash >>> 11) data
  | [b0, b1, b2] =>
    let hash := hash + get16bits b0 b1
    let hash := hash ^^^ hash <<< 16
    let hash := hash ^^^ signedChar b2 <<< 18
    hash + hash >>> 11
  | [b0, b1] =>
    let hash := hash + get16bits b0 b1
    let hash := hash ^^^ hash <<< 11
    hash + hash >>> 17
  | [b0] =>
    let hash := hash + signedChar b0
    let hash := hash ^^^ hash <<< 10
    hash + hash >>> 1
  | [] => hash

def hash32 (data : ByteString) : UInt32 :=
  let len := Int32.ofNat data.length
  if len ≤ 0 then 0
  else
    let hash := hashLoop len.toUInt32 (data.take len.toNatClampNeg)
    let hash := hash ^^^ hash <<< 3
    let hash := hash + hash >>> 5
    let hash := hash ^^^ hash <<< 4
    let hash := hash + hash >>> 17
    let hash := hash ^^^ hash <<< 25
    hash + hash >>> 6

end BufferTk

/-! ## Strings -/

namespace ByteString

def find (s : ByteString) (c : UInt8) (pos : Nat) : Option Nat :=
  ((s.drop pos).findIdx? (· == c)).map (· + pos)

def findLastOf (s : ByteString) (c : UInt8) : Option Nat :=
  (s.reverse.findIdx? (· == c)).map (s.length - 1 - ·)

/-- `substr`, which throws for a position behind the end. -/
def substr (s : ByteString) (pos n : Nat) : Option ByteString :=
  if s.length < pos then none else some ((s.drop pos).take n)

def npos : Nat := 2 ^ 64 - 1

end ByteString

open ByteString (find findLastOf substr npos)

def slash : UInt8 := 0x2f

def STRINGTK_ID_SEPARATOR : UInt8 := 0x2d

/-- `PathVec`, without the string that it keeps after the first use. -/
structure PathVec where
  pathElems : List ByteString
  isPathAbsolute : Bool
deriving DecidableEq

namespace PathVec

def empty : PathVec := ⟨[], false⟩

variable (path : PathVec)

def appendElem (newElem : ByteString) : PathVec :=
  { path with pathElems := path.pathElems ++ [newElem] }

def parseStr (pathStr : ByteString) : PathVec :=
  { path with pathElems := path.pathElems ++ pathStr.explode slash }

def popLastElem : Option PathVec :=
  if path.pathElems = [] then none
  else some { path with pathElems := path.pathElems.dropLast }

def getPathAsStr : ByteString :=
  (if path.isPathAbsolute then [slash] else []) ++ [slash].intercalate path.pathElems

end PathVec

namespace StringTk

/-- The part between the first two separators. Without them it is the whole ID. -/
def timeStampFromEntryID (inEntryID : ByteString) : Option ByteString :=
  match find inEntryID STRINGTK_ID_SEPARATOR 0 with
  | none => some inEntryID
  | some firstSepPos =>
    match find inEntryID STRINGTK_ID_SEPARATOR (firstSepPos + 1) with
    | none => some inEntryID
    | some secondSepPos => substr inEntryID (firstSepPos + 1) (secondSepPos - firstSepPos - 1)

end StringTk

namespace StorageTk

def STORAGETK_TIMESTAMP_DAY_RPOS : UInt64 := 3

def CONFIG_CHUNK_UID_PREFIX : ByteString := [0x75]

def CONFIG_CHUNK_LEVEL1_SUBDIR_NUM : UInt32 := 128
def CONFIG_CHUNK_LEVEL2_SUBDIR_NUM : UInt32 := 128

/-! ## The old layout -/

def getHashes (hashStr : ByteString) (numHashesLevel1 numHashesLevel2 : UInt32) : UInt16 × UInt16 :=
  let checksum := BufferTk.hash32 hashStr
  (((checksum >>> 16).toUInt16.toUInt32 % numHashesLevel1).toUInt16,
    (checksum.toUInt16.toUInt32 % numHashesLevel2).toUInt16)

def uint16ToHexStr (a : UInt16) : ByteString := ByteString.uintToHexStr a.toNat

def getBaseHashPath (entryID : ByteString) (numHashesLevel1 numHashesLevel2 : UInt32) :
    ByteString :=
  let (hashLevel1, hashLevel2) := getHashes entryID numHashesLevel1 numHashesLevel2
  uint16ToHexStr hashLevel1 ++ [slash] ++ uint16ToHexStr hashLevel2 ++ [slash] ++ entryID

/-- The path, and the vector of its directories appended to `outChunkDirPathVec`. -/
def getFileChunkPathV2 (entryID : ByteString) (outChunkDirPathVec : PathVec) :
    Option (ByteString × PathVec) := do
  let outChunkFilePath := getBaseHashPath entryID CONFIG_CHUNK_LEVEL1_SUBDIR_NUM
    CONFIG_CHUNK_LEVEL2_SUBDIR_NUM
  let chunkDirPathVec ← (outChunkDirPathVec.parseStr outChunkFilePath).popLastElem
  pure (outChunkFilePath, chunkDirPathVec)

/-! ## The new layout -/

variable (timeStamp : ByteString)

/-- The position of the day, computed as `size_t`. -/
def timeStampDayPos : UInt64 :=
  let timeStampLastPos := UInt64.ofNat timeStamp.length - 1
  timeStampLastPos - STORAGETK_TIMESTAMP_DAY_RPOS

def dayChar : Option ByteString :=
  if (timeStampDayPos timeStamp).toInt64 < 0 then some [0x30]
  else substr timeStamp (timeStampDayPos timeStamp).toNat 1

def yearMonthStr : Option ByteString :=
  if timeStampDayPos timeStamp = 0 then some [0x30]
  else substr timeStamp 0 (timeStampDayPos timeStamp).toNat

def timeStampToPath : Option (ByteString × ByteString) := do
  let outDayChar ← dayChar timeStamp
  let outYearMonthStr ← yearMonthStr timeStamp
  pure (outYearMonthStr, outDayChar)

end StorageTk

namespace Metadata.PathInfo

def hasOrigFeature (pathInfo : PathInfo) : Bool := pathInfo.flags &&& PATHINFO_FEATURE_ORIG != 0

end Metadata.PathInfo

namespace StorageTk

variable (pathInfo : PathInfo)

def getFileChunkPath (entryID : ByteString) : Option ByteString :=
  if !pathInfo.hasOrigFeature then
    -- without a vector, the path is only computed
    pure (getBaseHashPath entryID CONFIG_CHUNK_LEVEL1_SUBDIR_NUM CONFIG_CHUNK_LEVEL2_SUBDIR_NUM)
  else do
    let uidStr := ByteString.uintToHexStr pathInfo.origParentUID.toNat
    let timeStamp ← StringTk.timeStampFromEntryID pathInfo.origParentEntryID
    let (yearMonthStr, dayChar) ← timeStampToPath timeStamp
    pure (CONFIG_CHUNK_UID_PREFIX ++ uidStr ++ [slash] ++ yearMonthStr ++ [slash] ++ dayChar ++
      [slash] ++ pathInfo.origParentEntryID ++ [slash] ++ entryID)

def getChunkDirV3PathVec (outPath : PathVec) : Option PathVec := do
  let uidStr := ByteString.uintToHexStr pathInfo.origParentUID.toNat
  let timeStamp ← StringTk.timeStampFromEntryID pathInfo.origParentEntryID
  let (yearMonthStr, dayChar) ← timeStampToPath timeStamp
  pure ((((outPath.appendElem (CONFIG_CHUNK_UID_PREFIX ++ uidStr)).appendElem
    yearMonthStr).appendElem dayChar).appendElem pathInfo.origParentEntryID)

def getChunkDirChunkFilePath (entryID : ByteString) (hasOrigFeature : Bool)
    (outChunkDirPathVec : PathVec) : Option (PathVec × ByteString) :=
  if !hasOrigFeature then do
    let (outChunkFilePathStr, chunkDirPathVec) ← getFileChunkPathV2 entryID outChunkDirPathVec
    pure (chunkDirPathVec, outChunkFilePathStr)
  else do
    let chunkDirPathVec ← getChunkDirV3PathVec pathInfo outChunkDirPathVec
    pure (chunkDirPathVec, chunkDirPathVec.getPathAsStr ++ [slash] ++ entryID)

end StorageTk

/-! ## What fsck expects -/

namespace DatabaseTk

def calculateExpectedChunkPath (entryID : ByteString) (origParentUID : UInt32)
    (origParentEntryID : ByteString) (pathInfoFlags : Int32) : Option ByteString := do
  -- the whole flags, and not only the bit
  let hasOrigFeature := pathInfoFlags == PATHINFO_FEATURE_ORIG
  let pathInfo : PathInfo := ⟨pathInfoFlags, origParentUID, origParentEntryID⟩
  let (chunkDirPath, chunkFilePath) ←
    StorageTk.getChunkDirChunkFilePath pathInfo entryID hasOrigFeature .empty
  if hasOrigFeature then pure chunkDirPath.getPathAsStr
  else substr chunkFilePath 0 ((findLastOf chunkFilePath slash).getD npos)

end DatabaseTk

namespace ByteString

variable {s : ByteString} {c : UInt8} {pos i : Nat}

theorem find_bounds (h : find s c pos = some i) : pos ≤ i ∧ i < s.length := by
  obtain ⟨k, hk, rfl⟩ := map_eq_some_iff.mp h
  have hLt := (findIdx?_eq_some_iff_getElem.mp hk).1
  rw [length_drop] at hLt
  omega

theorem substr_of_le (h : pos ≤ s.length) (n : Nat) :
    substr s pos n = some ((s.drop pos).take n) := if_neg (not_lt.mpr h)

theorem not_mem_take_drop (h : c ∉ s) (n : Nat) : c ∉ (s.drop pos).take n :=
  fun hIn => h (mem_of_mem_drop (mem_of_mem_take hIn))

theorem findLastOf_append {dir file : ByteString} (h : c ∉ file) :
    findLastOf (dir ++ [c] ++ file) c = some dir.length := by
  have hFile : file.reverse.findIdx? (· == c) = none := by
    rw [findIdx?_eq_none_iff]
    intro x hx
    rw [mem_reverse] at hx
    exact beq_eq_false_iff_ne.mpr fun hSame => h (hSame ▸ hx)
  unfold findLastOf
  rw [reverse_append, findIdx?_append, hFile, reverse_append, reverse_singleton,
    singleton_append, findIdx?_cons, if_pos (beq_self_eq_true c)]
  simp only [none_or, map_some, length_append, length_reverse, length_singleton, some.injEq]
  omega

theorem slash_not_mem_uintToHexStr (a : Nat) : slash ∉ uintToHexStr a := by
  intro h
  have hMin := (mem_uintToHexStr h).1
  revert hMin
  decide

theorem uintToHexStr_injective {a b : Nat} (ha : a < 2 ^ 32) (hb : b < 2 ^ 32)
    (h : uintToHexStr a = uintToHexStr b) : a = b := by
  rw [← strHexToUInt_uintToHexStr ha, h, strHexToUInt_uintToHexStr hb]

end ByteString

/-- An entry ID that can be the name of a file. -/
structure FileName (id : ByteString) : Prop where
  nonempty : id ≠ []
  noSlash : slash ∉ id

theorem fileName_iff {id : ByteString} : id ≠ [] ∧ id.elem slash = false ↔ FileName id := by
  rw [← Bool.not_eq_true, elem_iff]
  exact ⟨fun h => ⟨h.1, h.2⟩, fun h => ⟨h.1, h.2⟩⟩

instance (id : ByteString) : Decidable (FileName id) := decidable_of_iff _ fileName_iff

/-! ## Timestamps -/

theorem StringTk.timeStampFromEntryID_total (inEntryID : ByteString) :
    ∃ timeStamp, timeStampFromEntryID inEntryID = some timeStamp ∧
      (slash ∉ inEntryID → slash ∉ timeStamp) := by
  unfold timeStampFromEntryID
  cases find inEntryID STRINGTK_ID_SEPARATOR 0 with
  | none => exact ⟨inEntryID, rfl, id⟩
  | some firstSepPos =>
    dsimp only
    cases hSecond : find inEntryID STRINGTK_ID_SEPARATOR (firstSepPos + 1) with
    | none => exact ⟨inEntryID, rfl, id⟩
    | some secondSepPos =>
      have hBounds := find_bounds hSecond
      refine ⟨_, substr_of_le (by omega) _, ?_⟩
      exact fun h => not_mem_take_drop h _

namespace StorageTk

theorem toInt64_neg_iff (x : UInt64) : x.toInt64 < 0 ↔ 2 ^ 63 ≤ x.toNat := by
  rw [Int64.lt_iff_toInt_lt]
  show x.toBitVec.toInt < 0 ↔ 2 ^ 63 ≤ x.toBitVec.toNat
  rw [BitVec.toInt_neg_iff]
  omega

theorem timeStampDayPos_le {timeStamp : ByteString}
    (h : ¬ (timeStampDayPos timeStamp).toInt64 < 0) :
    (timeStampDayPos timeStamp).toNat ≤ timeStamp.length := by
  rw [toInt64_neg_iff] at h
  have h1 : (1 : UInt64).toNat = 1 := rfl
  have h3 : (3 : UInt64).toNat = 3 := rfl
  have hPos : (timeStampDayPos timeStamp).toNat =
      (2 ^ 64 - 3 + (2 ^ 64 - 1 + timeStamp.length % 2 ^ 64) % 2 ^ 64) % 2 ^ 64 := by
    rw [timeStampDayPos, STORAGETK_TIMESTAMP_DAY_RPOS, UInt64.toNat_sub, UInt64.toNat_sub,
      UInt64.toNat_ofNat', h1, h3]
  rw [hPos] at h ⊢
  omega

theorem dayChar_total (timeStamp : ByteString) :
    ∃ day, dayChar timeStamp = some day ∧ (slash ∉ timeStamp → slash ∉ day) := by
  unfold dayChar
  by_cases hNegative : (timeStampDayPos timeStamp).toInt64 < 0
  · rw [if_pos hNegative]
    exact ⟨[0x30], rfl, fun _ => by decide⟩
  · rw [if_neg hNegative]
    exact ⟨_, substr_of_le (timeStampDayPos_le hNegative) 1, fun h => not_mem_take_drop h 1⟩

theorem yearMonthStr_total (timeStamp : ByteString) :
    ∃ yearMonth, yearMonthStr timeStamp = some yearMonth ∧
      (slash ∉ timeStamp → slash ∉ yearMonth) := by
  unfold yearMonthStr
  split
  · exact ⟨[0x30], rfl, fun _ => by decide⟩
  · exact ⟨_, substr_of_le (Nat.zero_le _) _,
      fun h => not_mem_take_drop h _⟩

/-! ## The paths of the two layouts -/

section Layouts

variable {pathInfo : PathInfo} {entryID : ByteString}

theorem v3_dirs (hParent : slash ∉ pathInfo.origParentEntryID) :
    ∃ yearMonth day, slash ∉ yearMonth ∧ slash ∉ day ∧
      (StringTk.timeStampFromEntryID pathInfo.origParentEntryID >>= timeStampToPath) =
        some (yearMonth, day) := by
  obtain ⟨timeStamp, hTimeStamp, hNoSlash⟩ :=
    StringTk.timeStampFromEntryID_total pathInfo.origParentEntryID
  obtain ⟨day, hDay, hDaySlash⟩ := dayChar_total timeStamp
  obtain ⟨yearMonth, hYearMonth, hYearSlash⟩ := yearMonthStr_total timeStamp
  have hStamp := hNoSlash hParent
  refine ⟨yearMonth, day, hYearSlash hStamp, hDaySlash hStamp, ?_⟩
  simp only [hTimeStamp, timeStampToPath, hDay, hYearMonth, Option.bind_eq_bind, Option.bind_some,
    Option.pure_def]

def uidDir (pathInfo : PathInfo) : ByteString :=
  CONFIG_CHUNK_UID_PREFIX ++ ByteString.uintToHexStr pathInfo.origParentUID.toNat

theorem slash_not_mem_uidDir : slash ∉ uidDir pathInfo := by
  rw [uidDir, mem_append, not_or]
  exact ⟨by decide, slash_not_mem_uintToHexStr _⟩

variable {yearMonth day : ByteString}

theorem getFileChunkPath_v3 (hOrig : pathInfo.hasOrigFeature = true)
    (hDirs : (StringTk.timeStampFromEntryID pathInfo.origParentEntryID >>= timeStampToPath) =
      some (yearMonth, day)) :
    getFileChunkPath pathInfo entryID = some ([slash].intercalate
      [uidDir pathInfo, yearMonth, day, pathInfo.origParentEntryID, entryID]) := by
  obtain ⟨timeStamp, hTimeStamp, hPath⟩ := bind_eq_some_iff.mp hDirs
  simp only [getFileChunkPath, hOrig, hTimeStamp, hPath, Bool.not_true, Bool.false_eq_true,
    if_false, Option.bind_eq_bind, Option.bind_some, Option.pure_def, uidDir, List.append_assoc]
  simp [intercalate]

theorem getChunkDirV3PathVec_eq
    (hDirs : (timeStampFromEntryID pathInfo.origParentEntryID >>= timeStampToPath) =
      some (yearMonth, day)) :
    getChunkDirV3PathVec pathInfo .empty =
      some ⟨[uidDir pathInfo, yearMonth, day, pathInfo.origParentEntryID], false⟩ := by
  obtain ⟨timeStamp, hTimeStamp, hPath⟩ := bind_eq_some_iff.mp hDirs
  simp only [getChunkDirV3PathVec, hTimeStamp, hPath, bind_eq_bind, bind_some]
  rfl

theorem slash_not_mem_v3 (hYear : slash ∉ yearMonth)
    (hDay : slash ∉ day) (hParent : slash ∉ pathInfo.origParentEntryID) :
    ∀ dir ∈ [uidDir pathInfo, yearMonth, day, pathInfo.origParentEntryID], slash ∉ dir := by
  simp only [forall_mem_cons]
  exact ⟨slash_not_mem_uidDir, hYear, hDay, hParent, fun _ h => absurd h not_mem_nil⟩

def hashDirs (entryID : ByteString) : List ByteString :=
  let (hashLevel1, hashLevel2) :=
    getHashes entryID CONFIG_CHUNK_LEVEL1_SUBDIR_NUM CONFIG_CHUNK_LEVEL2_SUBDIR_NUM
  [uint16ToHexStr hashLevel1, uint16ToHexStr hashLevel2]

section

variable (entryID : ByteString)

theorem slash_not_mem_hashDirs : ∀ dir ∈ hashDirs entryID, slash ∉ dir := by
  simp only [hashDirs, forall_mem_cons]
  exact ⟨slash_not_mem_uintToHexStr _, slash_not_mem_uintToHexStr _,
    fun _ h => absurd h not_mem_nil⟩

theorem hashDirs_nonempty : ∀ dir ∈ hashDirs entryID, dir ≠ [] := by
  simp only [hashDirs, forall_mem_cons]
  exact ⟨uintToHexStr_ne_nil _, uintToHexStr_ne_nil _, fun _ h => absurd h not_mem_nil⟩

theorem getBaseHashPath_eq :
    getBaseHashPath entryID CONFIG_CHUNK_LEVEL1_SUBDIR_NUM CONFIG_CHUNK_LEVEL2_SUBDIR_NUM =
      [slash].intercalate (hashDirs entryID ++ [entryID]) := by
  simp [getBaseHashPath, hashDirs, intercalate]

end

theorem intercalate_concat {dirs : List ByteString} (h : dirs ≠ []) (file : ByteString) :
    [slash].intercalate (dirs ++ [file]) = [slash].intercalate dirs ++ [slash] ++ file := by
  induction dirs with
  | nil => exact absurd rfl h
  | cons dir dirs ih =>
    cases dirs with
    | nil => simp [intercalate]
    | cons next dirs =>
      have hRest := ih (cons_ne_nil _ _)
      simp only [intercalate, cons_append, intersperse_cons_cons, flatten_cons]
        at hRest ⊢
      rw [hRest]
      simp only [append_assoc, cons_append]

theorem getFileChunkPathV2_eq (hEntry : FileName entryID) :
    getFileChunkPathV2 entryID .empty =
      some ([slash].intercalate (hashDirs entryID ++ [entryID]), ⟨hashDirs entryID, false⟩) := by
  have hSlash : ∀ dir ∈ hashDirs entryID ++ [entryID], slash ∉ dir := by
    intro dir hDir
    rcases List.mem_append.mp hDir with hHash | hEntryDir
    · exact slash_not_mem_hashDirs entryID dir hHash
    · exact List.mem_singleton.mp hEntryDir ▸ hEntry.noSlash
  have hPieces : ByteString.explode ([slash].intercalate (hashDirs entryID ++ [entryID])) slash =
      hashDirs entryID ++ [entryID] := by
    rw [ByteString.explode, List.splitOn_intercalate slash hSlash
      (List.append_ne_nil_of_right_ne_nil _ (List.cons_ne_nil _ _)), List.filter_eq_self]
    intro dir hDir
    rw [Bool.not_eq_true', List.isEmpty_eq_false_iff]
    rcases List.mem_append.mp hDir with hHash | hEntryDir
    · exact hashDirs_nonempty entryID dir hHash
    · exact List.mem_singleton.mp hEntryDir ▸ hEntry.nonempty
  rw [getFileChunkPathV2, getBaseHashPath_eq]
  simp only [PathVec.parseStr, PathVec.empty, PathVec.popLastElem, List.nil_append, hPieces,
    List.append_eq_nil_iff, List.cons_ne_nil, and_false, if_false, List.dropLast_concat,
    Option.bind_eq_bind, Option.bind_some, Option.pure_def]

end Layouts

end StorageTk

/-! ## The three places -/

section Places

open StorageTk DatabaseTk

variable {pathInfo : PathInfo} {entryID : ByteString}

theorem chunkDirs_exist (hParent : FileName pathInfo.origParentEntryID)
    (hEntry : FileName entryID) :
    ∃ dirs : List ByteString, dirs ≠ [] ∧ (∀ dir ∈ dirs, slash ∉ dir) ∧
      getFileChunkPath pathInfo entryID = some ([slash].intercalate (dirs ++ [entryID])) ∧
      getChunkDirChunkFilePath pathInfo entryID pathInfo.hasOrigFeature .empty =
        some (⟨dirs, false⟩, [slash].intercalate (dirs ++ [entryID])) ∧
      (pathInfo.hasOrigFeature = false → dirs = hashDirs entryID) ∧
      (pathInfo.hasOrigFeature = true → ∃ yearMonth day,
        dirs = [uidDir pathInfo, yearMonth, day, pathInfo.origParentEntryID]) := by
  cases hOrig : pathInfo.hasOrigFeature with
  | false =>
    refine ⟨hashDirs entryID, cons_ne_nil _ _, slash_not_mem_hashDirs entryID, ?_, ?_,
      fun _ => rfl, nofun⟩
    · rw [getFileChunkPath, hOrig, getBaseHashPath_eq]
      rfl
    · rw [getChunkDirChunkFilePath, getFileChunkPathV2_eq hEntry]
      rfl
  | true =>
    obtain ⟨yearMonth, day, hYear, hDay, hDirs⟩ := v3_dirs hParent.noSlash
    refine ⟨_, cons_ne_nil _ _, slash_not_mem_v3 hYear hDay hParent.noSlash,
      getFileChunkPath_v3 hOrig hDirs, ?_, nofun, fun _ => ⟨yearMonth, day, rfl⟩⟩
    rw [getChunkDirChunkFilePath, getChunkDirV3PathVec_eq hDirs,
      intercalate_concat (cons_ne_nil _ _)]
    rfl

theorem calculateExpectedChunkPath_eq {dirs : List ByteString} (hDirs : dirs ≠ [])
    (hEntry : FileName entryID)
    (hPath : getChunkDirChunkFilePath pathInfo entryID (pathInfo.flags == PATHINFO_FEATURE_ORIG)
      .empty = some (⟨dirs, false⟩, [slash].intercalate (dirs ++ [entryID]))) :
    calculateExpectedChunkPath entryID pathInfo.origParentUID pathInfo.origParentEntryID
      pathInfo.flags = some ([slash].intercalate dirs) := by
  rw [calculateExpectedChunkPath, hPath, intercalate_concat hDirs]
  simp only [Option.bind_eq_bind, Option.bind_some, Option.pure_def, PathVec.getPathAsStr,
    ByteString.findLastOf_append hEntry.noSlash, getD_some]
  split
  · rfl
  · rw [ByteString.substr_of_le (Nat.zero_le _), drop_zero, append_assoc, take_left']
    rfl

theorem calculateExpectedChunkPath_of_ne (hFlags : pathInfo.flags ≠ PATHINFO_FEATURE_ORIG)
    (hEntry : FileName entryID) :
    calculateExpectedChunkPath entryID pathInfo.origParentUID pathInfo.origParentEntryID
      pathInfo.flags = some ([slash].intercalate (hashDirs entryID)) := by
  apply calculateExpectedChunkPath_eq (cons_ne_nil _ _) hEntry
  rw [beq_eq_false_iff_ne.mpr hFlags, getChunkDirChunkFilePath, getFileChunkPathV2_eq hEntry]
  rfl

theorem hasOrigFeature_eq_of_alone
    (hAlone : pathInfo.hasOrigFeature = true → pathInfo.flags = PATHINFO_FEATURE_ORIG) :
    (pathInfo.flags == PATHINFO_FEATURE_ORIG) = pathInfo.hasOrigFeature := by
  cases hOrig : pathInfo.hasOrigFeature with
  | true => exact beq_iff_eq.mpr (hAlone hOrig)
  | false =>
    apply beq_eq_false_iff_ne.mpr
    intro hFlags
    rw [PathInfo.hasOrigFeature, hFlags] at hOrig
    exact absurd hOrig (by decide)

theorem intercalate_injective {elems elems' : List ByteString} (hNonempty : elems ≠ [])
    (hNonempty' : elems' ≠ []) (hSlash : ∀ elem ∈ elems, slash ∉ elem)
    (hSlash' : ∀ elem ∈ elems', slash ∉ elem)
    (h : [slash].intercalate elems = [slash].intercalate elems') : elems = elems' := by
  rw [← splitOn_intercalate slash hSlash hNonempty, h, splitOn_intercalate slash hSlash' hNonempty']

theorem uidDir_injective {pathInfo' : PathInfo} (h : uidDir pathInfo = uidDir pathInfo') :
    pathInfo.origParentUID = pathInfo'.origParentUID :=
  UInt32.toNat_inj.mp (uintToHexStr_injective (UInt32.toNat_lt _) (UInt32.toNat_lt _)
    (append_cancel_left h))

/-- fsck looks for the whole flags, so it expects another directory where a further bit is set. -/
theorem calculateExpectedChunkPath_eq_iff (hParent : FileName pathInfo.origParentEntryID)
    (hEntry : FileName entryID) :
    (∃ dirs path, getChunkDirChunkFilePath pathInfo entryID pathInfo.hasOrigFeature .empty =
      some (dirs, path) ∧ calculateExpectedChunkPath entryID pathInfo.origParentUID
        pathInfo.origParentEntryID pathInfo.flags = some dirs.getPathAsStr) ↔
      (pathInfo.hasOrigFeature = true → pathInfo.flags = PATHINFO_FEATURE_ORIG) := by
  obtain ⟨dirs, hNonempty, hSlash, -, hChunk, hOld, hNew⟩ := chunkDirs_exist hParent hEntry
  constructor
  · rintro ⟨dirs', path, hChunk', hExpected⟩ hOrig
    by_contra hFlags
    obtain ⟨rfl, rfl⟩ : (⟨dirs, false⟩ : PathVec) = dirs' ∧ _ = path :=
      Prod.mk.inj (some.inj (hChunk.symm.trans hChunk'))
    rw [calculateExpectedChunkPath_of_ne hFlags hEntry] at hExpected
    -- two directories in the old layout, four in the new one
    have hSame := intercalate_injective (cons_ne_nil _ _) hNonempty
      (slash_not_mem_hashDirs entryID) hSlash (some.inj hExpected)
    obtain ⟨yearMonth, day, rfl⟩ := hNew hOrig
    have hLength := congrArg length hSame
    simp only [length_cons, length_nil] at hLength
    omega
  · intro hAlone
    refine ⟨_, _, hChunk, ?_⟩
    apply calculateExpectedChunkPath_eq hNonempty hEntry
    rw [hasOrigFeature_eq_of_alone hAlone]
    exact hChunk

theorem calculateExpectedChunkPath_eq_iff_orig :
    (∃ dirs path, getChunkDirChunkFilePath ⟨1, 7, [65]⟩ [66] true .empty = some (dirs, path) ∧
      calculateExpectedChunkPath [66] 7 [65] 1 = some dirs.getPathAsStr) ↔
      ((⟨1, 7, [65]⟩ : PathInfo).hasOrigFeature = true → (1 : Int32) = PATHINFO_FEATURE_ORIG) :=
  @calculateExpectedChunkPath_eq_iff ⟨1, 7, [65]⟩ [66] (by decide) (by decide)

/-- The path is the same in all three places, and in one layout it says which file it is. -/
theorem chunkPaths_agree :
    (∀ (pathInfo : PathInfo) (entryID : ByteString), FileName pathInfo.origParentEntryID →
      FileName entryID →
      ∃ dirs path, getFileChunkPath pathInfo entryID = some path ∧
        getChunkDirChunkFilePath pathInfo entryID pathInfo.hasOrigFeature .empty =
          some (dirs, path) ∧
        dirs.getPathAsStr ++ [slash] ++ entryID = path ∧
        ((pathInfo.hasOrigFeature = true → pathInfo.flags = PATHINFO_FEATURE_ORIG) →
          calculateExpectedChunkPath entryID pathInfo.origParentUID pathInfo.origParentEntryID
            pathInfo.flags = some dirs.getPathAsStr) ∧
        (calculateExpectedChunkPath entryID pathInfo.origParentUID pathInfo.origParentEntryID
          pathInfo.flags).isSome) ∧
    (∀ (pathInfo pathInfo' : PathInfo) (entryID entryID' : ByteString),
      FileName pathInfo.origParentEntryID → FileName entryID →
      FileName pathInfo'.origParentEntryID → FileName entryID' →
      pathInfo.hasOrigFeature = pathInfo'.hasOrigFeature →
      getFileChunkPath pathInfo entryID = getFileChunkPath pathInfo' entryID' →
      entryID = entryID' ∧ (pathInfo.hasOrigFeature = true →
        pathInfo.origParentEntryID = pathInfo'.origParentEntryID ∧
        pathInfo.origParentUID = pathInfo'.origParentUID)) := by
  constructor
  · intro pathInfo entryID hParent hEntry
    obtain ⟨dirs, hNonempty, -, hPath, hChunk, -⟩ := chunkDirs_exist hParent hEntry
    have hAlone (h : pathInfo.hasOrigFeature = true → pathInfo.flags = PATHINFO_FEATURE_ORIG) :=
      calculateExpectedChunkPath_eq hNonempty hEntry (hasOrigFeature_eq_of_alone h ▸ hChunk)
    refine ⟨⟨dirs, false⟩, _, hPath, hChunk, (intercalate_concat hNonempty entryID).symm,
      hAlone, ?_⟩
    by_cases hFlags : pathInfo.flags = PATHINFO_FEATURE_ORIG
    · exact isSome_of_mem (hAlone fun _ => hFlags)
    · exact isSome_of_mem (calculateExpectedChunkPath_of_ne hFlags hEntry)
  · intro pathInfo pathInfo' entryID entryID' hParent hEntry hParent' hEntry' hLayout hSame
    obtain ⟨dirs, hNonempty, hSlash, hPath, -, -, hNew⟩ := chunkDirs_exist hParent hEntry
    obtain ⟨dirs', hNonempty', hSlash', hPath', -, -, hNew'⟩ := chunkDirs_exist hParent' hEntry'
    rw [hPath, hPath'] at hSame
    have hElems : dirs ++ [entryID] = dirs' ++ [entryID'] := by
      apply intercalate_injective (by simp) (by simp) _ _ (some.inj hSame)
      · exact forall_mem_append.mpr ⟨hSlash, forall_mem_singleton.mpr hEntry.noSlash⟩
      · exact forall_mem_append.mpr ⟨hSlash', forall_mem_singleton.mpr hEntry'.noSlash⟩
    obtain ⟨hDirs, hID⟩ := append_inj' hElems rfl
    refine ⟨singleton_inj.mp hID, fun hOrig => ?_⟩
    obtain ⟨yearMonth, day, rfl⟩ := hNew hOrig
    obtain ⟨yearMonth', day', rfl⟩ := hNew' (hLayout ▸ hOrig)
    simp only [cons.injEq, and_true] at hDirs
    exact ⟨hDirs.2.2.2, uidDir_injective hDirs.1⟩

/-- A file in the root directory, whose ID has no timestamp. -/
theorem chunkPaths_agree_root :
    ∃ dirs path, getFileChunkPath ⟨PATHINFO_FEATURE_ORIG, 0, [0x72, 0x6f, 0x6f, 0x74]⟩
        [0x31, 0x2d, 0x31, 0x2d, 0x31] = some path ∧
      getChunkDirChunkFilePath ⟨PATHINFO_FEATURE_ORIG, 0, [0x72, 0x6f, 0x6f, 0x74]⟩
        [0x31, 0x2d, 0x31, 0x2d, 0x31] true .empty = some (dirs, path) ∧
      dirs.getPathAsStr ++ [slash] ++ [0x31, 0x2d, 0x31, 0x2d, 0x31] = path ∧
      calculateExpectedChunkPath [0x31, 0x2d, 0x31, 0x2d, 0x31] 0 [0x72, 0x6f, 0x6f, 0x74]
        PATHINFO_FEATURE_ORIG = some dirs.getPathAsStr := by
  obtain ⟨dirs, path, hPath, hChunk, hJoin, hExpected, -⟩ := chunkPaths_agree.1
    ⟨PATHINFO_FEATURE_ORIG, 0, [0x72, 0x6f, 0x6f, 0x74]⟩ [0x31, 0x2d, 0x31, 0x2d, 0x31]
    (by decide) (by decide)
  exact ⟨dirs, path, hPath, hChunk, hJoin, hExpected fun _ => rfl⟩

theorem getFileChunkPath_old (hOld : pathInfo.hasOrigFeature = false) :
    getFileChunkPath pathInfo entryID = some (getBaseHashPath entryID
      CONFIG_CHUNK_LEVEL1_SUBDIR_NUM CONFIG_CHUNK_LEVEL2_SUBDIR_NUM) := by
  rw [getFileChunkPath, hOld]
  rfl

/-- In the old layout, the owner of a directory is not in the path. -/
theorem not_chunkPaths_distinct :
    ¬ ((∀ (pathInfo : PathInfo) (entryID : ByteString), FileName pathInfo.origParentEntryID →
        FileName entryID →
        ∃ dirs path, getFileChunkPath pathInfo entryID = some path ∧
          getChunkDirChunkFilePath pathInfo entryID pathInfo.hasOrigFeature .empty =
            some (dirs, path) ∧
          dirs.getPathAsStr ++ [slash] ++ entryID = path ∧
          calculateExpectedChunkPath entryID pathInfo.origParentUID pathInfo.origParentEntryID
            pathInfo.flags = some dirs.getPathAsStr) ∧
      (∀ (pathInfo pathInfo' : PathInfo) (entryID entryID' : ByteString),
        FileName pathInfo.origParentEntryID → FileName entryID →
        FileName pathInfo'.origParentEntryID → FileName entryID' →
        pathInfo.hasOrigFeature = pathInfo'.hasOrigFeature →
        getFileChunkPath pathInfo entryID = getFileChunkPath pathInfo' entryID' →
        entryID = entryID' ∧ pathInfo.origParentEntryID = pathInfo'.origParentEntryID ∧
          pathInfo.origParentUID = pathInfo'.origParentUID)) := by
  rintro ⟨-, hDistinct⟩
  have hSame := hDistinct ⟨0, 1, [0x72]⟩ ⟨0, 2, [0x72]⟩ [0x31] [0x31] (by decide) (by decide)
    (by decide) (by decide) rfl ((getFileChunkPath_old rfl).trans (getFileChunkPath_old rfl).symm)
  exact absurd hSame.2.2 (by decide)

end Places

end Fhgfs
