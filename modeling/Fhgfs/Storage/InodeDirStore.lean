import Fhgfs.Storage.InodeFileStore

/-!
# The directory inode store

`InodeDirStore`, the referenced directory inodes in memory. The store keeps references of its
own to recently used directories, the reference cache, and sweeps every n-th of them out of the
cache again when it gets too large.
-/

namespace Fhgfs.Storage

open Option

def DIRSTORE_REFCACHE_REMOVE_SKIP_SYNC : Nat := 4
def DIRSTORE_REFCACHE_REMOVE_SKIP_ASYNC : Nat := 3

/-- The inode of a directory in memory, with the store of the file inodes that are referenced
through it. -/
structure DirInode where
  id : String
  isLoaded : Bool
  exclusive : Bool
  fileStore : InodeFileStore
deriving DecidableEq

abbrev DirectoryReferencer := ObjectReferencer DirInode

/-- `refCache` has the IDs of the directories with a cache reference. -/
structure InodeDirStore where
  dirs : OrderedMap String DirectoryReferencer
  refCache : OrderedSet (id : String → String)
  tuneDirMetadataCacheLimit : Nat
deriving DecidableEq

/-- What the store gets from outside: the random numbers of its sweeps, whether the application
is about to terminate, and whether a directory inode can be loaded from disk. -/
structure DirStoreOutcomes where
  randStart : Nat
  selfTerminate : Bool
  loadFromFile : Bool
deriving DecidableEq

namespace InodeDirStore

def empty (tuneDirMetadataCacheLimit : Nat) : InodeDirStore :=
  ⟨OrderedSet.empty, OrderedSet.empty, tuneDirMetadataCacheLimit⟩

def find (store : InodeDirStore) (dirID : String) : Option DirectoryReferencer :=
  store.dirs.find dirID

def put (store : InodeDirStore) (dirID : String) (dirRefer : DirectoryReferencer) : InodeDirStore :=
  { store with dirs := store.dirs.put dirID dirRefer }

def remove (store : InodeDirStore) (dirID : String) : InodeDirStore :=
  { store with dirs := store.dirs.remove dirID }

def updateDir (dirID : String) (f : DirInode → DirInode) (store : InodeDirStore) : InodeDirStore :=
  match store.find dirID with
  | none => store
  | some dirRefer => store.put dirID ⟨dirRefer.refCount, f dirRefer.referencedObject⟩

/-- The store of the files that are referenced through a directory. -/
def fileStoreOf (store : InodeDirStore) (dirID : String) : InodeFileStore :=
  (store.find dirID).elim .empty (fun dirRefer => dirRefer.referencedObject.fileStore)

def setFileStore (dirID : String) (fileStore : InodeFileStore) (store : InodeDirStore) :
    InodeDirStore :=
  store.updateDir dirID (fun dir => { dir with fileStore := fileStore })

/-! ## The operations of the store -/

def refCacheSyncLimit (store : InodeDirStore) : Nat := store.tuneDirMetadataCacheLimit

def refCacheAsyncLimit (store : InodeDirStore) : Nat :=
  store.refCacheSyncLimit - store.refCacheSyncLimit / 2

def releaseDirUnlocked (selfTerminate : Bool) (dirID : String) (store : InodeDirStore) :
    InodeDirStore :=
  match store.find dirID with
  | none => store
  | some dirRefer =>
    if dirRefer.refCount ≠ 0 then
      let released := dirRefer.release
      if released.refCount = 0 then
        if released.referencedObject.fileStore.getSize ≠ 0 ∧ selfTerminate = false then
          -- refuse to release the directory, its file store still has references
          store.put dirID released.reference
        else store.remove dirID
      else store.put dirID released
    else store.remove dirID

def uncache (selfTerminate : Bool) (dirID : String) (store : InodeDirStore) : InodeDirStore :=
  let released := store.releaseDirUnlocked selfTerminate dirID
  { released with refCache := released.refCache.erase dirID }

/-- The walk of a sweep over the rest of the cache, with `i` elements passed since the last one
that was removed. -/
def sweepLoop (selfTerminate : Bool) (removeSkipNum : Nat) :
    Nat → List String → InodeDirStore → InodeDirStore
  | _, [], store => store
  | i, dirID :: dirIDs, store =>
    if i + 1 = removeSkipNum then
      sweepLoop selfTerminate removeSkipNum 0 dirIDs (store.uncache selfTerminate dirID)
    else sweepLoop selfTerminate removeSkipNum (i + 1) dirIDs store

/-- Remove every n-th element from a cache beyond its limit, starting with a random one. The
second component tells whether there was a sweep. -/
def cacheSweepUnlocked (isSyncSweep : Bool) (o : DirStoreOutcomes) (store : InodeDirStore) :
    InodeDirStore × Bool :=
  let cacheLimit := if isSyncSweep then store.refCacheSyncLimit else store.refCacheAsyncLimit
  let removeSkipNum :=
    if isSyncSweep then DIRSTORE_REFCACHE_REMOVE_SKIP_SYNC
    else DIRSTORE_REFCACHE_REMOVE_SKIP_ASYNC
  if store.refCache.elems.length ≤ cacheLimit then (store, false)
  else
    (store.sweepLoop o.selfTerminate removeSkipNum (removeSkipNum - 1)
      (store.refCache.elems.drop o.randStart), true)

variable (o : DirStoreOutcomes)

def cacheSweepAsync (store : InodeDirStore) : InodeDirStore × Bool :=
  store.cacheSweepUnlocked false o

/-- The sweep is before the insertion, so that it does not remove the new entry. -/
def cacheAddUnlocked (dirID : String) (store : InodeDirStore) : InodeDirStore :=
  if store.tuneDirMetadataCacheLimit = 0 then store
  else
    let swept := (store.cacheSweepUnlocked true o).1
    match swept.refCache.contains dirID, swept.find dirID with
    | false, some dirRefer =>
      { swept.put dirID dirRefer.reference with refCache := swept.refCache.insert dirID }
    | _, _ => swept

/-- Insert an empty directory inode, which is loaded from disk only on request. -/
def insertDirInodeUnlocked (dirID : String) (forceLoad : Bool)
    (store : InodeDirStore) : InodeDirStore :=
  if forceLoad && !o.loadFromFile then store
  else store.put dirID (ObjectReferencer.new ⟨dirID, forceLoad, false, .empty⟩)

/-- The second component tells whether the directory was referenced; its inode is then the one
in the store. -/
def referenceDirInode (dirID : String) (forceLoad : Bool)
    (store : InodeDirStore) : InodeDirStore × Bool :=
  let wasReferenced := (store.find dirID).isSome
  let inserted :=
    if wasReferenced then store else store.insertDirInodeUnlocked o dirID forceLoad
  match inserted.find dirID with
  | none => (inserted, false)
  | some dirRefer =>
    -- exclusive directories are being moved
    if dirRefer.referencedObject.exclusive then (inserted, false)
    else
      let referenced := inserted.put dirID dirRefer.reference
      let cached := if wasReferenced then referenced else referenced.cacheAddUnlocked o dirID
      if forceLoad then
        if dirRefer.referencedObject.isLoaded || o.loadFromFile then
          (cached.updateDir dirID (fun dir => { dir with isLoaded := true }), true)
        else (cached.releaseDirUnlocked o.selfTerminate dirID, false)
      else (cached, true)

/-! ## Lookups afterwards -/

/-- The reference count of a directory, 0 if it is not in the store. -/
def refCount (store : InodeDirStore) (dirID : String) : Int :=
  (store.find dirID).elim 0 (fun dirRefer => dirRefer.refCount)

/-- The number of references of the cache to a directory. -/
def cacheRef (store : InodeDirStore) (dirID : String) : Int :=
  if dirID ∈ store.refCache then 1 else 0

def Unlocked (store : InodeDirStore) : Prop :=
  ∀ dirID dirRefer, store.find dirID = some dirRefer → dirRefer.referencedObject.exclusive = false

section Lookups

variable {store store' : InodeDirStore} {dirID : String}

theorem find_put (dirRefer : DirectoryReferencer) (k : String) :
    (store.put dirID dirRefer).find k = if k = dirID then some dirRefer else store.find k :=
  OrderedMap.find_put _ _ _ _

theorem find_remove (k : String) :
    (store.remove dirID).find k = if k = dirID then none else store.find k :=
  OrderedMap.find_remove _ _ _

@[simp] theorem refCache_put (dirRefer : DirectoryReferencer) :
    (store.put dirID dirRefer).refCache = store.refCache := rfl

variable (selfTerminate : Bool)

theorem refCache_releaseDirUnlocked :
    (store.releaseDirUnlocked selfTerminate dirID).refCache = store.refCache := by
  unfold releaseDirUnlocked
  split
  · rfl
  · simp only
    split_ifs <;> rfl

theorem find_updateDir (f : DirInode → DirInode) (k : String) :
    (store.updateDir dirID f).find k = if k = dirID then
      (store.find dirID).map (fun r => ⟨r.refCount, f r.referencedObject⟩) else store.find k := by
  unfold updateDir
  cases hFind : store.find dirID with
  | none =>
    simp only [map_none]
    split
    · rename_i hk
      rw [hk, hFind]
    · rfl
  | some dirRefer => exact find_put _ k

theorem refCache_updateDir (f : DirInode → DirInode) :
    (store.updateDir dirID f).refCache = store.refCache := by
  unfold updateDir
  split <;> rfl

theorem refCache_uncache :
    (store.uncache selfTerminate dirID).refCache = store.refCache.erase dirID := by
  unfold InodeDirStore.uncache
  simp only [refCache_releaseDirUnlocked]

theorem cacheRef_nonneg (store : InodeDirStore) (k : String) : 0 ≤ store.cacheRef k := by
  unfold cacheRef
  split <;> omega

theorem cacheRef_congr (h : store'.refCache = store.refCache) (k : String) :
    store'.cacheRef k = store.cacheRef k := by
  unfold cacheRef
  rw [h]

section

variable {dirRefer : DirectoryReferencer} (h : store.find dirID = some dirRefer)
include h

theorem refCount_of_find : store.refCount dirID = dirRefer.refCount := by
  rw [refCount, h, elim_some]

theorem fileStoreOf_of_find : store.fileStoreOf dirID = dirRefer.referencedObject.fileStore := by
  rw [fileStoreOf, h, elim_some]

end

theorem exists_find_of_refCount (h : 0 < store.refCount dirID) :
    ∃ dirRefer, store.find dirID = some dirRefer := by
  rw [refCount] at h
  cases hFind : store.find dirID with
  | none =>
    rw [hFind, elim_none] at h
    omega
  | some dirRefer => exact ⟨dirRefer, rfl⟩

/-- The reference count of one directory has changed by `n`, and no file store has changed. -/
structure Recounted (store store' : InodeDirStore) (dirID : String) (n : Int) : Prop where
  refCount : ∀ k, store'.refCount k = store.refCount k + if k = dirID then n else 0
  fileStoreOf : ∀ k, store'.fileStoreOf k = store.fileStoreOf k
  unlocked : store.Unlocked → store'.Unlocked

theorem Recounted.of_find {dirRefer' : Option DirectoryReferencer}
    {n : Int} (hFind : ∀ k, store'.find k = if k = dirID then dirRefer' else store.find k)
    (hCount : dirRefer'.elim 0 (fun r => r.refCount) = store.refCount dirID + n)
    (hFiles : dirRefer'.elim .empty (fun r => r.referencedObject.fileStore) =
      store.fileStoreOf dirID)
    (hUnlocked : store.Unlocked → ∀ r, dirRefer' = some r → r.referencedObject.exclusive = false) :
    Recounted store store' dirID n := by
  constructor
  · intro k
    rw [InodeDirStore.refCount, hFind]
    by_cases hk : k = dirID
    · rw [if_pos hk, if_pos hk, hk, hCount]
    · rw [if_neg hk, if_neg hk, InodeDirStore.refCount, add_zero]
  · intro k
    rw [InodeDirStore.fileStoreOf, hFind]
    by_cases hk : k = dirID
    · rw [if_pos hk, hk, hFiles]
    · rw [if_neg hk, InodeDirStore.fileStoreOf]
  · intro hAll k r hr
    rw [hFind] at hr
    split at hr
    · exact hUnlocked hAll r hr
    · exact hAll k r hr

theorem recounted_put {dirRefer dirRefer' : DirectoryReferencer} {n : Int}
    (hFind : store.find dirID = some dirRefer)
    (hCount : dirRefer'.refCount = dirRefer.refCount + n)
    (hDir : dirRefer'.referencedObject = dirRefer.referencedObject) :
    Recounted store (store.put dirID dirRefer') dirID n := by
  refine Recounted.of_find (find_put dirRefer') ?_ ?_ ?_
  · rw [elim_some, refCount_of_find hFind, hCount]
  · rw [elim_some, fileStoreOf_of_find hFind, hDir]
  · intro hAll r hr
    rw [← some.inj hr, hDir]
    exact hAll dirID dirRefer hFind

theorem releaseDirUnlocked_recounted (hHeld : 0 < store.refCount dirID)
    (hLast : store.refCount dirID = 1 → store.fileStoreOf dirID = .empty) :
    Recounted store (store.releaseDirUnlocked selfTerminate dirID) dirID (-1) := by
  obtain ⟨dirRefer, hFind⟩ := exists_find_of_refCount hHeld
  have hCount := refCount_of_find hFind
  have hReleased := dirRefer.refCount_release
  unfold releaseDirUnlocked
  rw [hFind]
  simp only
  rw [if_pos (by omega)]
  by_cases hOne : store.refCount dirID = 1
  · have hEmpty := hLast hOne
    have hSize : dirRefer.release.referencedObject.fileStore.getSize = 0 := by
      rw [ObjectReferencer.referencedObject_release, ← fileStoreOf_of_find hFind, hEmpty,
        InodeFileStore.getSize_empty]
    rw [if_pos (by omega), if_neg (fun hRefused => hRefused.1 hSize)]
    refine Recounted.of_find find_remove ?_ hEmpty.symm (by simp)
    rw [elim_none]
    omega
  · rw [if_neg (by omega)]
    exact recounted_put hFind rfl rfl

end Lookups

end InodeDirStore

end Fhgfs.Storage
