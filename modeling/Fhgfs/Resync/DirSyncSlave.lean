import Fhgfs.Mirror.MirroredRequests

/-!
# The directories of a resync

`BuddyResyncerDirSyncSlave`: what the buddy has got in a directory and this target has not is
removed on the buddy. The lock of such a chunk is taken by `findChunks` and kept until
`removeBuddyChunkPaths` has sent the paths. What is unlocked there comes from the paths.
-/

namespace Fhgfs.Resync

open List LockEvent Option
open Mirror (ChunkKey ChunkLockEvent)

def CHECK_AT_ONCE : Nat := 50

def basename (path : List Char) : List Char :=
  let stripped := path.reverse.dropWhile (· = '/')
  if path = [] then ['.']
  else if stripped = [] then ['/']
  else (stripped.takeWhile (· ≠ '/')).reverse

def getPathBasename (path : String) : String := String.ofList (basename path.toList)

/-- The names that one listing of a directory returns. -/
structure ListedNames where
  names : List (String × DirEntryType)
  nodup : (names.map Prod.fst).Nodup
  isName : ∀ entry ∈ names, entry.1.toList ≠ [] ∧ '/' ∉ entry.1.toList

/-- A part of the directory, and what the steps result in. `listRes` and `rmRes` are the results
of the communications with the buddy. -/
structure DirPart where
  listRes : FhgfsOpsErr
  listed : ListedNames
  pathExists : String → Bool
  rmRes : FhgfsOpsErr
  selfTerminate : Bool

/-- What is left of the names, and the directories that are new candidates. -/
structure FoundChunks where
  names : List (String × DirEntryType)
  candidates : List String
  locks : List ChunkLockEvent

def entryPath (dirPath entryID : String) : String :=
  if dirPath ≠ "" then dirPath ++ "/" ++ entryID else entryID

def findChunks (targetID : UInt16) (dirPath : String) (pathExists : String → Bool) :
    List (String × DirEntryType) → FoundChunks
  | [] => ⟨[], [], []⟩
  | (entryID, entryType) :: names =>
    let entryExists := pathExists (entryPath dirPath entryID)
    let found := findChunks targetID dirPath pathExists names
    if entryType.isDir then
      { found with
        candidates :=
          if entryExists then found.candidates
          else entryPath dirPath entryID :: found.candidates }
    else if entryExists then
      { found with
        locks := .lock (targetID, entryID) :: .unlock (targetID, entryID) :: found.locks }
    else
      { found with
        names := (entryID, entryType) :: found.names
        locks := .lock (targetID, entryID) :: found.locks }

variable (localTargetID : UInt16)

/-- Whether the paths could be removed or not, they are all unlocked. -/
def removeBuddyChunkPaths (paths : List String) : List ChunkLockEvent :=
  paths.map fun path => .unlock (localTargetID, getPathBasename path)

/-- The locks of `findChunks` and of the removal after it. -/
def syncPart (dirPath : String) (part : DirPart) : List ChunkLockEvent :=
  let found := findChunks localTargetID dirPath part.pathExists part.listed.names
  let rmPaths := found.names.map fun entry => dirPath ++ "/" ++ entry.1
  found.locks ++ removeBuddyChunkPaths localTargetID rmPaths

/-- The loop of `doSync` over the parts. Without a further part there is no result. -/
def syncParts (localTargetID : UInt16) (dirPath : String) :
    List DirPart → Option (FhgfsOpsErr × List ChunkLockEvent)
  | [] => none
  | part :: parts =>
    if part.listRes ≠ .SUCCESS then some (part.listRes, [])
    else
      let locks := syncPart localTargetID dirPath part
      if part.rmRes ≠ .SUCCESS then some (part.rmRes, locks)
      else if part.selfTerminate then some (.INTERRUPTED, locks)
      else if part.listed.names.length = CHECK_AT_ONCE then
        (syncParts localTargetID dirPath parts).map fun (retVal, rest) => (retVal, locks ++ rest)
      else some (.SUCCESS, locks)

/-- A directory to sync. -/
structure DirSync where
  dirPath : String
  localTargetID : UInt16
  hasNode : Bool
  parts : List DirPart

def DirSync.doSync (dir : DirSync) : Option (FhgfsOpsErr × List ChunkLockEvent) :=
  if dir.hasNode then syncParts dir.localTargetID dir.dirPath dir.parts
  else some (.UNKNOWNNODE, [])

/-! ## The locks of a directory -/

theorem getPathBasename_append {dirPath name : String} (hName : name.toList ≠ [])
    (hPlain : '/' ∉ name.toList) : getPathBasename (dirPath ++ "/" ++ name) = name := by
  have hPath : (dirPath ++ "/" ++ name).toList = dirPath.toList ++ '/' :: name.toList := by
    rw [String.toList_append, String.toList_append, append_assoc]
    rfl
  obtain ⟨c, cs, hRev⟩ := exists_cons_of_ne_nil (reverse_ne_nil_iff.mpr hName)
  have hIn : ∀ d ∈ name.toList.reverse, d ≠ '/' := by
    intro d hd h
    exact hPlain (h ▸ mem_reverse.mp hd)
  have hc : c ≠ '/' := hIn c (hRev ▸ mem_cons_self)
  have hStripped : (dirPath.toList ++ '/' :: name.toList).reverse.dropWhile (· = '/') =
      name.toList.reverse ++ '/' :: dirPath.toList.reverse := by
    rw [reverse_append, reverse_cons, append_assoc, hRev, cons_append,
      dropWhile_cons_of_neg (by simpa using hc)]
    rfl
  have hTake : (name.toList.reverse ++ '/' :: dirPath.toList.reverse).takeWhile (· ≠ '/') =
      name.toList.reverse := by
    rw [takeWhile_append_of_pos (by simpa using fun d hd => hIn d (mem_reverse.mpr hd)),
      takeWhile_cons_of_neg (by simp), append_nil]
  rw [getPathBasename, hPath, basename, hStripped, if_neg (by simp), if_neg (by simp), hTake,
    reverse_reverse, String.ofList_toList]

open Mirror

variable {targetID : UInt16} {dirPath : String} {pathExists : String → Bool}
  {names : List (String × DirEntryType)}

theorem findChunks_sublist :
    (findChunks targetID dirPath pathExists names).names.Sublist names := by
  induction names with
  | nil => exact .slnil
  | cons entry names ih =>
    unfold findChunks
    dsimp only
    split_ifs
    · exact ih.cons entry
    · exact ih.cons entry
    · exact ih.cons entry
    · exact ih.cons_cons entry

theorem heldAfter_findChunks (hNodup : (names.map Prod.fst).Nodup) {held : List ChunkKey}
    (hFree : ∀ entry ∈ names, (targetID, entry.1) ∉ held) :
    ∃ held', heldAfter held (findChunks targetID dirPath pathExists names).locks = some held' ∧
      held'.Perm ((findChunks targetID dirPath pathExists names).names.map
        (fun entry => (targetID, entry.1)) ++ held) := by
  induction names generalizing held with
  | nil => exact ⟨held, rfl, .refl held⟩
  | cons entry names ih =>
    obtain ⟨entryID, entryType⟩ := entry
    rw [map_cons, nodup_cons] at hNodup
    have hHead : (targetID, entryID) ∉ held := hFree _ mem_cons_self
    have hTail : ∀ entry ∈ names, (targetID, entry.1) ∉ held := fun entry hIn =>
      hFree entry (mem_cons_of_mem _ hIn)
    unfold findChunks
    dsimp only
    split_ifs
    · exact ih hNodup.2 hTail
    · exact ih hNodup.2 hTail
    · dsimp only
      rw [heldAfter_lock_unlock hHead]
      exact ih hNodup.2 hTail
    dsimp only
    rw [heldAfter_cons, next_lock hHead, bind_some]
    have hOthers : ∀ entry ∈ names, (targetID, entry.1) ∉ (targetID, entryID) :: held := by
      intro entry hIn hMem
      rcases mem_cons.mp hMem with hSame | hMem
      · have hName : entry.1 = entryID := (Prod.mk.inj hSame).2
        exact hNodup.1 (mem_map.mpr ⟨entry, hIn, hName⟩)
      · exact hTail entry hIn hMem
    obtain ⟨held', hHeld, hPerm⟩ := ih hNodup.2 hOthers
    exact ⟨held', hHeld, hPerm.trans perm_middle⟩

theorem balanced_syncPart (dirPath : String) (part : DirPart) :
    LockEvent.Balanced (syncPart localTargetID dirPath part) := by
  have hFound : ∃ held, LockEvent.heldAfter []
      (findChunks localTargetID dirPath part.pathExists part.listed.names).locks = some held ∧ _ :=
    heldAfter_findChunks part.listed.nodup fun _ _ => not_mem_nil
  obtain ⟨held, hHeld, hPerm⟩ := hFound
  rw [append_nil] at hPerm
  have hUnlocks : removeBuddyChunkPaths localTargetID
      ((findChunks localTargetID dirPath part.pathExists part.listed.names).names.map
        fun entry => dirPath ++ "/" ++ entry.1) =
      ((findChunks localTargetID dirPath part.pathExists part.listed.names).names.map
        fun entry => (localTargetID, entry.1)).map .unlock := by
    unfold removeBuddyChunkPaths
    rw [List.map_map, List.map_map]
    apply map_congr_left
    intro entry hIn
    obtain ⟨hName, hPlain⟩ := part.listed.isName entry (findChunks_sublist.subset hIn)
    dsimp only [Function.comp_apply]
    rw [getPathBasename_append hName hPlain]
  unfold LockEvent.Balanced syncPart
  rw [LockEvent.heldAfter_append, hHeld, bind_some, hUnlocks]
  exact LockEvent.heldAfter_unlocks hPerm

theorem balanced_syncParts {localTargetID : UInt16} {dirPath : String} {parts : List DirPart}
    {retVal : FhgfsOpsErr} {locks : List ChunkLockEvent}
    (h : syncParts localTargetID dirPath parts = some (retVal, locks)) :
    Balanced locks := by
  induction parts generalizing retVal locks with
  | nil => cases h
  | cons part parts ih =>
    have hPart := balanced_syncPart localTargetID dirPath part
    unfold syncParts at h
    split_ifs at h
    · obtain ⟨-, rfl⟩ := Prod.mk.inj (some.inj h)
      exact balanced_nil
    · obtain ⟨-, rfl⟩ := Prod.mk.inj (some.inj h)
      exact hPart
    · obtain ⟨-, rfl⟩ := Prod.mk.inj (some.inj h)
      exact hPart
    · obtain ⟨⟨retVal', rest⟩, hRest, hEq⟩ := map_eq_some_iff.mp h
      obtain ⟨-, rfl⟩ := Prod.mk.inj hEq
      exact hPart.append (ih hRest)
    · obtain ⟨-, rfl⟩ := Prod.mk.inj (some.inj h)
      exact hPart

theorem balanced_doSync {dir : DirSync} {retVal : FhgfsOpsErr} {locks : List ChunkLockEvent}
    (h : dir.doSync = some (retVal, locks)) : Balanced locks := by
  unfold DirSync.doSync at h
  split_ifs at h
  · exact balanced_syncParts h
  · obtain ⟨-, rfl⟩ := Prod.mk.inj (some.inj h)
    exact balanced_nil

end Fhgfs.Resync
