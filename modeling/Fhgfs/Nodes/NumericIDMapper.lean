import Fhgfs.Common.MapTk
import Fhgfs.Lib.Run

/-!
# Numeric IDs of targets

`NumericIDMapper` of the management daemon: string IDs of targets, their 16-bit numeric IDs, and
the file that keeps the mappings. `mappings_of_reachable` describes every reachable state and
what the next operation can do to it.
-/

namespace Fhgfs.Nodes

open OrderedMap List StringTk MapTk Option

abbrev NumericIDMap := OrderedMap Text UInt16

def NUMIDMAPPER_MAX_NUMIDS : Nat := 65535 - 1

structure NumericIDMapper where
  idMap : NumericIDMap
  mappingsDirty : Bool
  storePath : Text
deriving DecidableEq

namespace NumericIDMap

variable (idMap : NumericIDMap)

variable (stringID : Text)

def retrieveNumIDFromStringID : UInt16 :=
  (idMap.find stringID).getD 0

def checkIDPairConflict (numID : UInt16) : Bool :=
  match idMap.find stringID with
  | some existing => decide (existing ≠ numID)
  | none => idMap.elems.any fun p => decide (p.2 = numID)

/-- The loop of `generateNumID` ends when the 16-bit counter overflows to 0. -/
def generateNumID : UInt16 :=
  let previousNumID := idMap.retrieveNumIDFromStringID stringID
  if previousNumID ≠ 0 then previousNumID
  else if NUMIDMAPPER_MAX_NUMIDS ≤ idMap.elems.length then 0
  else
    (((List.range' 1 65535).map UInt16.ofNat).find? fun newNumID =>
      !(idMap.checkIDPairConflict stringID newNumID)).getD 0

def exportToStringMap : StringMap :=
  (idMap.elems.map fun p => (p.1, StringTk.uintToHexStr p.2.toNat)).foldl
    (fun m p => OrderedMap.put m p.1 p.2) OrderedSet.empty

def importFromStringMap (importMap : StringMap) : NumericIDMap :=
  (importMap.elems.map fun p => (p.1, UInt16.ofNat (StringTk.strHexToUInt p.2))).foldl
    (fun m p => OrderedMap.put m p.1 p.2) idMap

end NumericIDMap

namespace NumericIDMapper

variable (m : NumericIDMapper)

/-- The mapper is dirty from now on if the number of mappings has changed. -/
def setMap (idMap : NumericIDMap) : NumericIDMapper :=
  { m with
    idMap := idMap
    mappingsDirty := m.mappingsDirty || decide (m.idMap.elems.length ≠ idMap.elems.length) }

/-- Answers the return value and `outNewNumID`, which stays unset after a conflict. -/
def mapStringID (stringID : Text) (currentNumID : UInt16) :
    Bool × Option UInt16 × NumericIDMapper :=
  if currentNumID ≠ 0 then
    if m.idMap.checkIDPairConflict stringID currentNumID then (false, none, m)
    else (true, some currentNumID, m.setMap (m.idMap.put stringID currentNumID))
  else
    match m.idMap.find stringID with
    | some numID => (true, some numID, m)
    | none =>
      let newNumID := m.idMap.generateNumID stringID
      if newNumID = 0 then (false, some newNumID, m)
      else (true, some newNumID, m.setMap (m.idMap.put stringID newNumID))

def unmapStringID (stringID : Text) : Bool × NumericIDMapper :=
  match m.idMap.find stringID with
  | none => (false, m)
  | some _ => (true, { m with idMap := m.idMap.remove stringID, mappingsDirty := true })

/-- `file` is the content of the file at `storePath`, `none` if it cannot be opened. -/
def loadFromFile (file : Option Text) : Bool × NumericIDMapper :=
  if m.storePath = [] then (false, m)
  else
    match file with
    | none => (false, m)
    | some text =>
      let idMap := NumericIDMap.importFromStringMap OrderedSet.empty (MapTk.loadStringMap text)
      (true, { m with idMap := idMap, mappingsDirty := true })

/-- `written` tells whether the system calls succeed. The file is replaced as a whole. -/
def saveToFile (written : Bool) (file : Option Text) : Bool × NumericIDMapper × Option Text :=
  if m.storePath = [] then (false, m, file)
  else if written then
    (true, { m with mappingsDirty := false }, some (MapTk.saveStringMap m.idMap.exportToStringMap))
  else (false, m, file)

end NumericIDMapper

/-! ## Runs -/

/-- A mapper with the file at its store path. `savedMap` is the map at the last save. -/
structure StoredMapper where
  mapper : NumericIDMapper
  file : Option Text
  savedMap : Option NumericIDMap
deriving DecidableEq

inductive MapperOp
  | mapStringID (stringID : Text) (currentNumID : UInt16)
  | unmapStringID (stringID : Text)
  | loadFromFile
  | saveToFile (written : Bool)
deriving DecidableEq

namespace StoredMapper

def init (storePath : Text) : StoredMapper := ⟨⟨OrderedSet.empty, false, storePath⟩, none, none⟩

def step (s : StoredMapper) : MapperOp → StoredMapper
  | .mapStringID stringID currentNumID =>
    { s with mapper := (s.mapper.mapStringID stringID currentNumID).2.2 }
  | .unmapStringID stringID => { s with mapper := (s.mapper.unmapStringID stringID).2 }
  | .loadFromFile => { s with mapper := (s.mapper.loadFromFile s.file).2 }
  | .saveToFile written =>
    let (saved, mapper, file) := s.mapper.saveToFile written s.file
    ⟨mapper, file, if saved then some s.mapper.idMap else s.savedMap⟩

/-- What a load needs: all string IDs of the saved map are such that their lines are read as
they were written. -/
def LoadsPlain (s : StoredMapper) : MapperOp → Prop
  | .loadFromFile =>
    ∀ idMap ∈ s.savedMap, ∀ stringID numID, idMap.find stringID = some numID →
      MapTk.PlainKey stringID
  | _ => True

end StoredMapper

/-! ## Invariants -/

namespace NumericIDMap

/-- No two string IDs share a numeric ID, and none has the invalid one. -/
structure Injective (idMap : NumericIDMap) : Prop where
  distinct : ∀ s t n, idMap.find s = some n → idMap.find t = some n → s = t
  nonzero : ∀ s n, idMap.find s = some n → n ≠ 0

section Maps

variable {idMap : NumericIDMap}

theorem checkIDPairConflict_eq_false {s : Text} {n : UInt16}
    (h : idMap.checkIDPairConflict s n = false) :
    idMap.find s = some n ∨ idMap.find s = none ∧ ∀ t, idMap.find t ≠ some n := by
  unfold checkIDPairConflict at h
  cases hFind : idMap.find s with
  | some existing =>
    rw [hFind] at h
    left
    simpa using h
  | none =>
    rw [hFind] at h
    refine Or.inr ⟨rfl, fun t ht => ?_⟩
    have hFree := any_eq_false.mp h (t, n) (find_eq_some.mp ht)
    simp at hFree

theorem Injective.put (h : idMap.Injective) {s : Text} {n : UInt16} (hn : n ≠ 0)
    (hFree : ∀ t, idMap.find t = some n → t = s) :
    Injective (put idMap s n) where
  distinct := by
    intro t u k ht hu
    rw [find_put] at ht hu
    split_ifs at ht hu with hts hus hus
    · rw [hts, hus]
    · rw [hts, hFree u (hu.trans ht.symm)]
    · rw [hus, hFree t (ht.trans hu.symm)]
    · exact h.distinct t u k ht hu
  nonzero := by
    intro t k ht
    rw [find_put] at ht
    split_ifs at ht
    · exact some.inj ht ▸ hn
    · exact h.nonzero t k ht

theorem Injective.remove (h : idMap.Injective) (s : Text) :
    Injective (OrderedMap.remove idMap s) := by
  have hOld : ∀ t n, (OrderedMap.remove idMap s).find t = some n → idMap.find t = some n := by
    intro t n ht
    rw [OrderedMap.find_remove] at ht
    split_ifs at ht
    exact ht
  exact ⟨fun t u n ht hu => h.distinct t u n (hOld t n ht) (hOld u n hu),
    fun t n ht => h.nonzero t n (hOld t n ht)⟩

theorem exists_free (idMap : NumericIDMap) (hSize : idMap.elems.length < 65535) :
    ∃ n ∈ (range' 1 65535).map UInt16.ofNat, ∀ t, idMap.find t ≠ some n := by
  by_contra hAll
  push Not at hAll
  have hUsed : ((range' 1 65535).map UInt16.ofNat) ⊆ idMap.elems.map Prod.snd := by
    intro n hn
    obtain ⟨t, ht⟩ := hAll n hn
    exact mem_map.mpr ⟨(t, n), find_eq_some.mp ht, rfl⟩
  have hNodup : ((range' 1 65535).map UInt16.ofNat).Nodup := by
    refine List.Nodup.map_on ?_ nodup_range'
    intro a ha b hb hEq
    have hNat := congrArg UInt16.toNat hEq
    rw [mem_range'_1] at ha hb
    rw [UInt16.toNat_ofNat', UInt16.toNat_ofNat', Nat.mod_eq_of_lt (by omega),
      Nat.mod_eq_of_lt (by omega)] at hNat
    exact hNat
  have hLength := (subperm_of_subset hNodup hUsed).length_le
  rw [length_map, length_map, length_range'] at hLength
  omega

theorem ne_zero_of_mem_range {n : UInt16} (h : n ∈ (range' 1 65535).map UInt16.ofNat) : n ≠ 0 := by
  obtain ⟨k, hk, rfl⟩ := mem_map.mp h
  rw [mem_range'_1] at hk
  intro hZero
  have hNat := congrArg UInt16.toNat hZero
  rw [UInt16.toNat_ofNat', Nat.mod_eq_of_lt (by omega)] at hNat
  exact absurd hNat (by simp; omega)

theorem generateNumID_spec {s : Text} (hNew : idMap.find s = none) :
    (idMap.generateNumID s ≠ 0 → ∀ t, idMap.find t ≠ some (idMap.generateNumID s)) ∧
      (idMap.elems.length < NUMIDMAPPER_MAX_NUMIDS → idMap.generateNumID s ≠ 0) := by
  have hPrevious : idMap.retrieveNumIDFromStringID s = 0 := by
    unfold retrieveNumIDFromStringID
    rw [hNew]
    rfl
  unfold generateNumID
  rw [hPrevious, if_neg (by simp)]
  split_ifs with hFull
  · exact ⟨(absurd rfl ·), fun h => absurd h (not_lt.mpr hFull)⟩
  have hSize : idMap.elems.length < 65535 := by
    unfold NUMIDMAPPER_MAX_NUMIDS at hFull
    omega
  obtain ⟨n, hn, hUnused⟩ := idMap.exists_free hSize
  have hFree : idMap.checkIDPairConflict s n = false := by
    unfold checkIDPairConflict
    rw [hNew]
    refine any_eq_false.mpr fun p hp => ?_
    simp only [decide_eq_true_eq]
    rintro rfl
    exact hUnused p.1 (find_eq_some.mpr hp)
  cases hFind : ((range' 1 65535).map UInt16.ofNat).find? fun newNumID =>
      !(idMap.checkIDPairConflict s newNumID) with
  | none =>
    have hConflict := find?_eq_none.mp hFind n hn
    rw [hFree] at hConflict
    exact absurd rfl hConflict
  | some newNumID =>
    have hAccepted := find?_some hFind
    rw [Bool.not_eq_true'] at hAccepted
    refine ⟨fun _ => ?_, fun _ => ne_zero_of_mem_range (mem_of_find?_eq_some hFind)⟩
    rcases checkIDPairConflict_eq_false hAccepted with hMapped | ⟨-, hNone⟩
    · rw [hNew] at hMapped
      cases hMapped
    · exact hNone

theorem import_export (idMap : NumericIDMap) (hPlain : ∀ s n, idMap.find s = some n → PlainKey s) :
    importFromStringMap OrderedSet.empty
      (loadStringMap (saveStringMap idMap.exportToStringMap)) = idMap := by
  have hExport : ∀ s, (exportToStringMap idMap).find s =
      (idMap.find s).map fun n => uintToHexStr n.toNat :=
    find_foldl_put (fun n : UInt16 => uintToHexStr n.toNat) idMap
  have hLines : ∀ p ∈ exportToStringMap idMap, PlainKey p.1 ∧ PlainValue p.2 := by
    intro p hp
    have hFind := find_eq_some.mpr hp
    rw [hExport, Option.map_eq_some_iff] at hFind
    obtain ⟨n, hn, hHex⟩ := hFind
    have hDigits : AllHex p.2 := by
      rw [← hHex]
      exact (hexDigits_spec 8 (by decide) (Nat.mod_lt _ (by decide))).1
    exact ⟨hPlain p.1 n hn, hDigits.untrimmed, hDigits.not_mem (by decide)⟩
  rw [loadStringMap_saveStringMap hLines]
  refine ext_find fun s => ?_
  unfold importFromStringMap
  rw [find_foldl_put fun value => UInt16.ofNat (strHexToUInt value), hExport, Option.map_map]
  cases idMap.find s with
  | none => rfl
  | some n =>
    have hLt := n.toNat_lt
    simp only [Option.map_some, Function.comp_apply]
    rw [strHexToUInt_uintToHexStr (by omega), UInt16.ofNat_toNat]

end Maps

end NumericIDMap

namespace NumericIDMapper

variable {m : NumericIDMapper}

section

variable (hMap : m.idMap.Injective)
include hMap

section

variable (s : Text) (n : UInt16)

/-- A request leaves the map alone, or maps the string ID to a number that no other one has and
that it had already if it was mapped. -/
theorem mapStringID_cases : (m.mapStringID s n).2.2 = m ∨ ∃ k, (m.mapStringID s n).1 = true ∧
      (m.mapStringID s n).2.1 = some k ∧
      (m.mapStringID s n).2.2.idMap = m.idMap.put s k ∧ k ≠ 0 ∧
      (∀ t, m.idMap.find t = some k → t = s) ∧ ∀ k', m.idMap.find s = some k' → k' = k := by
  unfold mapStringID
  split_ifs with hGiven hConflict
  · exact Or.inl rfl
  · rw [Bool.not_eq_true] at hConflict
    rcases NumericIDMap.checkIDPairConflict_eq_false hConflict with hSame | ⟨hNew, hFree⟩
    · exact Or.inr ⟨n, rfl, rfl, rfl, hGiven, fun t ht => hMap.distinct t s n ht hSame,
        fun k' hk' => some.inj (hk'.symm.trans hSame)⟩
    · exact Or.inr ⟨n, rfl, rfl, rfl, hGiven, fun t ht => absurd ht (hFree t), fun k' hk' =>
        absurd (hNew.symm.trans hk') (some_ne_none k').symm⟩
  · cases hFind : m.idMap.find s with
    | some numID => exact Or.inl rfl
    | none =>
      dsimp only
      split_ifs with hFull
      · exact Or.inl rfl
      · refine Or.inr ⟨_, rfl, rfl, rfl, hFull, fun t ht => ?_, fun k' hk' => ?_⟩
        · exact absurd ht ((NumericIDMap.generateNumID_spec hFind).1 hFull t)
        · cases hk'

theorem mapStringID_injective : (m.mapStringID s n).2.2.idMap.Injective := by
  rcases mapStringID_cases hMap s n with hSame | ⟨k, -, -, hPut, hNonzero, hFree, -⟩
  · rwa [hSame]
  · rw [hPut]
    exact hMap.put hNonzero hFree

theorem find_mapStringID {t : Text} {k : UInt16} (hFind : m.idMap.find t = some k) :
    (m.mapStringID s n).2.2.idMap.find t = some k := by
  rcases mapStringID_cases hMap s n with hSame | ⟨k', -, -, hPut, -, -, hKept⟩
  · rwa [hSame]
  · rw [hPut, find_put]
    split_ifs with hts
    · subst hts
      rw [hKept k hFind]
    · exact hFind

end

theorem mapStringID_refused {s : Text} {n : UInt16}
    (h : (m.mapStringID s n).1 = false) : (m.mapStringID s n).2.2 = m := by
  rcases mapStringID_cases hMap s n with hSame | ⟨k, hTrue, -⟩
  · exact hSame
  · rw [h] at hTrue
    cases hTrue

end

theorem mapStringID_new {s : Text} (hNew : m.idMap.find s = none)
    (hSize : m.idMap.elems.length < NUMIDMAPPER_MAX_NUMIDS) :
    ∃ n, (m.mapStringID s 0).1 = true ∧ (m.mapStringID s 0).2.1 = some n ∧ n ≠ 0 ∧
      (m.mapStringID s 0).2.2.idMap.find s = some n ∧ ∀ t, m.idMap.find t ≠ some n := by
  obtain ⟨hFree, hFound⟩ := NumericIDMap.generateNumID_spec hNew
  have hNonzero := hFound hSize
  have hAnswer : m.mapStringID s 0 = (true, some (m.idMap.generateNumID s),
      m.setMap (m.idMap.put s (m.idMap.generateNumID s))) := by
    unfold mapStringID
    rw [if_neg (by simp), hNew]
    rw [if_neg hNonzero]
  rw [hAnswer]
  exact ⟨_, rfl, rfl, hNonzero, find_put_self _ _ _, hFree hNonzero⟩

theorem saveToFile_cases (m : NumericIDMapper) (written : Bool) (file : Option Text) :
    m.saveToFile written file = (false, m, file) ∨
      m.saveToFile written file = (true, { m with mappingsDirty := false },
        some (saveStringMap m.idMap.exportToStringMap)) := by
  unfold saveToFile
  split_ifs
  · exact Or.inl rfl
  · exact Or.inr rfl
  · exact Or.inl rfl

theorem unmapStringID_idMap (m : NumericIDMapper) (s : Text) :
    (m.unmapStringID s).2.idMap = m.idMap.remove s := by
  unfold unmapStringID
  split
  · rename_i hNone
    exact (remove_of_find hNone).symm
  · rfl

end NumericIDMapper

namespace StoredMapper

/-- The map and the last saved one are injective, and the file is the text of the saved one. -/
structure Inv (s : StoredMapper) : Prop where
  injective : s.mapper.idMap.Injective
  saved_injective : ∀ idMap ∈ s.savedMap, idMap.Injective
  file_eq : s.file = s.savedMap.map fun idMap => MapTk.saveStringMap idMap.exportToStringMap

variable {s : StoredMapper}

theorem Inv.init (storePath : Text) : (init storePath).Inv where
  injective := ⟨fun _ _ _ h => absurd h (by simp [StoredMapper.init]),
    fun _ _ h => absurd h (by simp [StoredMapper.init])⟩
  saved_injective := fun _ h => by cases h
  file_eq := rfl

theorem Inv.loadFromFile (hs : s.Inv) (hPlain : s.LoadsPlain .loadFromFile) :
    (s.mapper.loadFromFile s.file).2.idMap = if s.mapper.storePath = [] then s.mapper.idMap
      else s.savedMap.getD s.mapper.idMap := by
  unfold NumericIDMapper.loadFromFile
  split_ifs
  · rfl
  · rw [hs.file_eq]
    cases hSaved : s.savedMap with
    | none => rfl
    | some idMap => exact idMap.import_export (hPlain idMap hSaved)

theorem Inv.step (hs : s.Inv) {op : MapperOp} (hOp : s.LoadsPlain op) : (s.step op).Inv := by
  cases op with
  | mapStringID stringID currentNumID =>
    exact ⟨NumericIDMapper.mapStringID_injective hs.injective stringID currentNumID,
      hs.saved_injective, hs.file_eq⟩
  | unmapStringID stringID =>
    refine ⟨?_, hs.saved_injective, hs.file_eq⟩
    rw [StoredMapper.step, NumericIDMapper.unmapStringID_idMap]
    exact hs.injective.remove stringID
  | loadFromFile =>
    refine ⟨?_, hs.saved_injective, hs.file_eq⟩
    rw [StoredMapper.step, hs.loadFromFile hOp]
    split_ifs
    · exact hs.injective
    · cases hSaved : s.savedMap with
      | none => exact hs.injective
      | some idMap => exact hs.saved_injective idMap hSaved
  | saveToFile written =>
    rcases s.mapper.saveToFile_cases written s.file with hSave | hSave
    · rw [StoredMapper.step, hSave]
      exact hs
    · rw [StoredMapper.step, hSave]
      refine ⟨hs.injective, ?_, rfl⟩
      rintro idMap ⟨⟩
      exact hs.injective

/-- What a state and the operations from it keep to. -/
structure KeepsMappings (s : StoredMapper) : Prop where
  injective : s.mapper.idMap.Injective
  stable : ∀ stringID numID, s.mapper.idMap.find stringID = some numID → ∀ ops : List MapperOp,
    (∀ op ∈ ops, op ≠ .unmapStringID stringID ∧ op ≠ .loadFromFile) →
    (Run.after StoredMapper.step s ops).mapper.idMap.find stringID = some numID
  loaded : s.LoadsPlain .loadFromFile → (s.step .loadFromFile).mapper.idMap =
    if s.mapper.storePath = [] then s.mapper.idMap else s.savedMap.getD s.mapper.idMap
  refused : ∀ stringID numID, (s.mapper.mapStringID stringID numID).1 = false →
    (s.mapper.mapStringID stringID numID).2.2 = s.mapper
  mapped : ∀ stringID, s.mapper.idMap.find stringID = none →
    s.mapper.idMap.elems.length < 65534 →
    ∃ numID, (s.mapper.mapStringID stringID 0).1 = true ∧
      (s.mapper.mapStringID stringID 0).2.1 = some numID ∧ numID ≠ 0 ∧
      (s.mapper.mapStringID stringID 0).2.2.idMap.find stringID = some numID ∧
      ∀ t, s.mapper.idMap.find t ≠ some numID

theorem Inv.find_step (hs : s.Inv) {op : MapperOp} {stringID : Text} {numID : UInt16}
    (hOp : op ≠ .unmapStringID stringID ∧ op ≠ .loadFromFile)
    (hFind : s.mapper.idMap.find stringID = some numID) :
    (s.step op).mapper.idMap.find stringID = some numID := by
  cases op with
  | mapStringID t n => exact NumericIDMapper.find_mapStringID hs.injective t n hFind
  | unmapStringID t =>
    have hNe : stringID ≠ t := fun h => hOp.1 (h ▸ rfl)
    rw [StoredMapper.step, NumericIDMapper.unmapStringID_idMap, find_remove_of_ne _ hNe]
    exact hFind
  | loadFromFile => exact absurd rfl hOp.2
  | saveToFile written =>
    rcases s.mapper.saveToFile_cases written s.file with hSave | hSave
    · rw [StoredMapper.step, hSave]
      exact hFind
    · rw [StoredMapper.step, hSave]
      exact hFind

theorem Inv.find_after (hs : s.Inv) {ops : List MapperOp} {stringID : Text} {numID : UInt16}
    (hOps : ∀ op ∈ ops, op ≠ .unmapStringID stringID ∧ op ≠ .loadFromFile)
    (hFind : s.mapper.idMap.find stringID = some numID) :
    (Run.after StoredMapper.step s ops).mapper.idMap.find stringID = some numID := by
  induction ops generalizing s with
  | nil => exact hFind
  | cons op ops ih =>
    have hHere := hOps op mem_cons_self
    have hPlain : s.LoadsPlain op := by
      cases op with
      | loadFromFile => exact absurd rfl hHere.2
      | _ => trivial
    exact ih (hs.step hPlain) (fun op' h' => hOps op' (mem_cons_of_mem _ h'))
      (hs.find_step hHere hFind)

/-- Every state that runs with plain loads reach keeps its mappings. -/
theorem keepsMappings_of_reachable {storePath : Text}
    (h : Run.Reachable StoredMapper.step (· = StoredMapper.init storePath) LoadsPlain s) :
    s.KeepsMappings := by
  have hs : s.Inv := by
    refine h.invariant (I := Inv) ?_ ?_
    · rintro s rfl
      exact Inv.init storePath
    · intro s op hInv hOp
      exact hInv.step hOp
  exact ⟨hs.injective, fun _ _ hFind _ hOps => hs.find_after hOps hFind, hs.loadFromFile,
    fun _ _ hRefused => NumericIDMapper.mapStringID_refused hs.injective hRefused,
    fun _ hNew hSize => NumericIDMapper.mapStringID_new hNew hSize⟩

theorem keepsMappings_of_reachable_reloaded :
    KeepsMappings (Run.after step (init ['f'])
      [.mapStringID ['a'] 1, .saveToFile true, .mapStringID ['b'] 2, .loadFromFile]) := by
  have hStart : Run.Reachable step (· = init ['f']) LoadsPlain (init ['f']) := .start rfl
  refine keepsMappings_of_reachable (hStart.after ?_)
  refine ⟨trivial, trivial, trivial, ?_, trivial⟩
  rintro idMap ⟨⟩ stringID numID hFind
  have hKey : stringID = ['a'] := by
    by_contra hNe
    have hOther : (put (OrderedSet.empty : NumericIDMap) ['a'] 1).find stringID =
      some numID := hFind
    rw [find_put_of_ne _ _ hNe] at hOther
    cases hOther
  subst hKey
  have hFirst : ∀ c ∈ (['a'] : Text).head?, isTrimmed c = false := by
    rintro c ⟨⟩
    rfl
  have hLast : ∀ c ∈ (['a'] : Text).getLast?, isTrimmed c = false := by
    rintro c ⟨⟩
    rfl
  exact ⟨⟨hFirst, hLast⟩, by decide, by decide, by decide, by decide⟩

/-- A string ID with `=` is cut when it is read, and its number becomes that of another string
ID; and a load drops what was mapped after the save. -/
theorem not_keepsMappings :
    (¬ ∀ ops, (Run.after step (init ['f']) ops).mapper.idMap.Injective) ∧
      ¬ ∀ ops ops' stringID numID,
        (Run.after step (init ['f']) ops).mapper.idMap.find stringID = some numID →
        (∀ op ∈ ops', op ≠ .unmapStringID stringID) →
        (Run.after step (init ['f']) (ops ++ ops')).mapper.idMap.find stringID = some numID := by
  constructor
  · intro hAll
    have hShared := (hAll [.mapStringID ['a', '=', 'b'] 1, .mapStringID ['c'] 11,
      .saveToFile true, .loadFromFile]).distinct ['a'] ['c'] 11 (by decide) (by decide)
    exact absurd hShared (by decide)
  · intro hAll
    have hKept := hAll [.mapStringID ['a'] 1, .saveToFile true, .mapStringID ['b'] 2]
      [.loadFromFile] ['b'] 2 (by decide) (by decide)
    exact absurd hKept (by decide)

end StoredMapper

end Fhgfs.Nodes
