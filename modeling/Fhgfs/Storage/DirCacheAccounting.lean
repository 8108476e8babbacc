import Fhgfs.Storage.DirReferences
import Fhgfs.Lib.Run

/-!
# The references of the directory cache

Runs of the directory inode store, one step for each part of a function that holds the lock of
the store. The reference counts are those of the holders and of the cache as long as no directory
goes while its file store is in use.

A sweep starts behind up to three elements without a look at the size of the cache. A cache
with the limit 1 is swept when it has two elements, and the start may then be behind its end.

* `Accounted.releaseDir`, `Accounted.uncache`, `Accounted.reference`: what one change of a count
  keeps.
* `dirCache_accounted_iff`: the states of a run are right exactly if no sweep starts behind the
  end of the cache.
-/

namespace Fhgfs.Storage.InodeDirStore

open ObjectReferencer Option InodeDirStore OrderedSet List

/-! ## Sweeps, element by element -/

/-- Whether `iter++`, so many times from the begin, goes beyond the end. -/
def passesEnd : Nat → List String → Bool
  | 0, _ => false
  | _ + 1, [] => true
  | n + 1, _ :: dirIDs => passesEnd n dirIDs

theorem passesEnd_iff {n : Nat} {dirIDs : List String} :
    passesEnd n dirIDs = true ↔ dirIDs.length < n := by
  induction n generalizing dirIDs with
  | zero => simp [passesEnd]
  | succ n ih =>
    cases dirIDs with
    | nil => simp [passesEnd]
    | cons dirID dirIDs =>
      rw [passesEnd, ih, length_cons]
      omega

variable (isSyncSweep : Bool)

/-- Whether a sweep goes beyond the end of the cache on the way to its first element. Behind it,
every step of the sweep compares with the end first. -/
def sweepPassesEnd (o : DirStoreOutcomes) (store : InodeDirStore) : Bool :=
  let cacheLimit := if isSyncSweep then store.refCacheSyncLimit else store.refCacheAsyncLimit
  if store.refCache.elems.length ≤ cacheLimit then false
  else passesEnd o.randStart store.refCache.elems

def everyNth (removeSkipNum : Nat) : Nat → List String → List String
  | _, [] => []
  | i, dirID :: dirIDs =>
    if i + 1 = removeSkipNum then dirID :: everyNth removeSkipNum 0 dirIDs
    else everyNth removeSkipNum (i + 1) dirIDs

def sweptIDs (o : DirStoreOutcomes) (store : InodeDirStore) : List String :=
  let cacheLimit := if isSyncSweep then store.refCacheSyncLimit else store.refCacheAsyncLimit
  let removeSkipNum :=
    if isSyncSweep then DIRSTORE_REFCACHE_REMOVE_SKIP_SYNC
    else DIRSTORE_REFCACHE_REMOVE_SKIP_ASYNC
  if store.refCache.elems.length ≤ cacheLimit then []
  else everyNth removeSkipNum (removeSkipNum - 1) (store.refCache.elems.drop o.randStart)

theorem everyNth_sublist (removeSkipNum i : Nat) (dirIDs : List String) :
    (everyNth removeSkipNum i dirIDs).Sublist dirIDs := by
  induction dirIDs generalizing i with
  | nil => exact List.Sublist.refl _
  | cons dirID dirIDs ih =>
    unfold everyNth
    split
    · exact (ih 0).cons_cons dirID
    · exact (ih (i + 1)).cons dirID

theorem sweptIDs_sublist (o : DirStoreOutcomes) (store : InodeDirStore) :
    (store.sweptIDs isSyncSweep o).Sublist store.refCache.elems := by
  unfold sweptIDs
  generalize (if isSyncSweep = true then store.refCacheSyncLimit else
    store.refCacheAsyncLimit) = cacheLimit
  dsimp only
  split
  · exact nil_sublist _
  · exact (everyNth_sublist _ _ _).trans (drop_sublist _ _)

theorem sweepLoop_eq_foldl (selfTerminate : Bool) (removeSkipNum i : Nat) (dirIDs : List String)
    (store : InodeDirStore) :
    store.sweepLoop selfTerminate removeSkipNum i dirIDs =
      (everyNth removeSkipNum i dirIDs).foldl (fun s k => s.uncache selfTerminate k) store := by
  induction dirIDs generalizing i store with
  | nil => rfl
  | cons dirID dirIDs ih =>
    unfold sweepLoop everyNth
    split
    · exact ih 0 _
    · exact ih (i + 1) store

theorem cacheSweepUnlocked_eq_foldl (o : DirStoreOutcomes) (store : InodeDirStore) :
    (store.cacheSweepUnlocked isSyncSweep o).1 =
      (store.sweptIDs isSyncSweep o).foldl (fun s k => s.uncache o.selfTerminate k) store := by
  unfold cacheSweepUnlocked sweptIDs
  generalize (if isSyncSweep = true then store.refCacheSyncLimit else
    store.refCacheAsyncLimit) = cacheLimit
  generalize (if isSyncSweep = true then DIRSTORE_REFCACHE_REMOVE_SKIP_SYNC else
    DIRSTORE_REFCACHE_REMOVE_SKIP_ASYNC) = removeSkipNum
  dsimp only
  split
  · rfl
  · exact sweepLoop_eq_foldl _ _ _ _ _

/-! ## Removal of a directory -/

/-- What a removal gets from outside: whether the application is about to terminate, what the
inode on disk says, and whether it can be unlinked. -/
structure RemoveOutcomes where
  selfTerminate : Bool
  loadFromFile : Bool
  hasSubEntries : Bool
  createFromFile : Bool
  unlinkStoredInode : Bool
deriving DecidableEq

def cacheRemoveUnlocked (selfTerminate : Bool) (dirID : String) (store : InodeDirStore) :
    InodeDirStore :=
  if store.refCache.contains dirID then store.uncache selfTerminate dirID else store

/-- A directory that is in the store is loaded, and is never removable, exclusive or not. -/
def isRemovableUnlocked (o : RemoveOutcomes) (dirID : String) (store : InodeDirStore) :
    InodeDirStore × FhgfsOpsErr :=
  match store.find dirID with
  | some dirRefer =>
    if dirRefer.refCount = 0 then (store, .INTERNAL)
    else
      let loaded :=
        if o.loadFromFile then store.updateDir dirID (fun dir => { dir with isLoaded := true })
        else store
      if o.hasSubEntries then (loaded, .NOTEMPTY) else (loaded, .INUSE)
  | none =>
    if !o.loadFromFile then (store, .PATHNOTEXISTS)
    else if o.hasSubEntries then (store, .NOTEMPTY)
    else (store, .SUCCESS)

/-- `outRemovedDir` is whether the caller wants the removed directory. -/
def removeDirInodeUnlocked (o : RemoveOutcomes) (dirID : String) (outRemovedDir : Bool)
    (store : InodeDirStore) : InodeDirStore × FhgfsOpsErr :=
  let uncached := store.cacheRemoveUnlocked o.selfTerminate dirID
  let (checked, removableRes) := uncached.isRemovableUnlocked o dirID
  if removableRes ≠ .SUCCESS then (checked, removableRes)
  else if outRemovedDir && !o.createFromFile then (checked, .INTERNAL)
  else if !o.unlinkStoredInode then (checked, .INTERNAL)
  else (checked, .SUCCESS)

/-! ## References under the lock -/

/-- `referenceDirInode` until it gives up the lock. The second component tells whether the
directory was referenced. -/
def lookupDirInode (o : DirStoreOutcomes) (dirID : String) (forceLoad : Bool)
    (store : InodeDirStore) : InodeDirStore × Bool :=
  let wasReferenced := (store.find dirID).isSome
  let inserted :=
    if wasReferenced then store else store.insertDirInodeUnlocked o dirID forceLoad
  match inserted.find dirID with
  | none => (inserted, false)
  | some dirRefer =>
    if dirRefer.referencedObject.exclusive then (inserted, false)
    else
      let referenced := inserted.put dirID dirRefer.reference
      (if wasReferenced then referenced else referenced.cacheAddUnlocked o dirID, true)

/-! ## One directory -/

section OneDirectory

variable {store store' : InodeDirStore} {owed : String → Int} {dirID : String}

/-- The reference counts are those of the holders and of the cache, and nothing is kept without a
reference. -/
structure Accounted (store : InodeDirStore) (owed : String → Int) : Prop where
  count : ∀ k, store.refCount k = owed k + store.cacheRef k
  nonneg : ∀ k, 0 ≤ owed k
  counted : ∀ k dirRefer, store.find k = some dirRefer → dirRefer.refCount ≠ 0

section

variable (h : Accounted store owed)
include h

theorem Accounted.of_find {dirRefer' : Option DirectoryReferencer}
    {m c : Int} (hFind : ∀ k, store'.find k = if k = dirID then dirRefer' else store.find k)
    (hCache : ∀ k, store'.cacheRef k = store.cacheRef k + if k = dirID then c else 0)
    (hCount : dirRefer'.elim 0 (fun r => r.refCount) = store.refCount dirID + (m + c))
    (hCounted : ∀ r, dirRefer' = some r → r.refCount ≠ 0) (hNonneg : 0 ≤ owed dirID + m) :
    Accounted store' (owe owed dirID m) := by
  refine ⟨?_, ?_, ?_⟩
  · intro k
    have hBefore := h.count k
    rw [hCache, refCount, hFind, owe]
    split
    next hk =>
      subst hk
      rw [hCount]
      omega
    next =>
      rw [← refCount, hBefore]
      omega
  · intro k
    have hBefore := h.nonneg k
    rw [owe]
    split
    next hk =>
      subst hk
      exact hNonneg
    next => omega
  · intro k r hr
    rw [hFind] at hr
    split at hr
    · exact hCounted r hr
    · exact h.counted k r hr

theorem Accounted.find_of_cached (hCached : dirID ∈ store.refCache) :
    ∃ dirRefer, store.find dirID = some dirRefer := by
  have hCount := h.count dirID
  have hNonneg := h.nonneg dirID
  have hCache : store.cacheRef dirID = 1 := if_pos hCached
  exact exists_find_of_refCount (by omega)

theorem Accounted.not_cached (hNone : store.find dirID = none) : dirID ∉ store.refCache := by
  intro hCached
  obtain ⟨dirRefer, hSome⟩ := h.find_of_cached hCached
  rw [hNone] at hSome
  cases hSome

end

variable (selfTerminate : Bool)

theorem find_releaseDirUnlocked {dirRefer : DirectoryReferencer}
    (hFind : store.find dirID = some dirRefer) (hCount : dirRefer.refCount ≠ 0)
    (hLast : dirRefer.refCount = 1 → store.fileStoreOf dirID = .empty) (k : String) :
    (store.releaseDirUnlocked selfTerminate dirID).find k =
      if k = dirID then (if dirRefer.refCount = 1 then none else some dirRefer.release)
      else store.find k := by
  have hReleased := dirRefer.refCount_release
  unfold releaseDirUnlocked
  rw [hFind]
  dsimp only
  rw [if_pos hCount]
  by_cases hOne : dirRefer.refCount = 1
  · have hSize : dirRefer.release.referencedObject.fileStore.getSize = 0 := by
      rw [referencedObject_release, ← fileStoreOf_of_find hFind, hLast hOne,
        InodeFileStore.getSize_empty]
    rw [if_pos (by omega), if_neg (fun hRefused => hRefused.1 hSize), if_pos hOne]
    exact find_remove k
  · rw [if_neg (by omega), if_neg hOne]
    exact find_put _ k

theorem find_releaseDirUnlocked_of_ne {k : String} (h : k ≠ dirID) :
    (store.releaseDirUnlocked selfTerminate dirID).find k = store.find k := by
  have hPut : ∀ r, (store.put dirID r).find k = store.find k := by
    intro r
    rw [find_put, if_neg h]
  have hRemove : (store.remove dirID).find k = store.find k := by rw [find_remove, if_neg h]
  unfold releaseDirUnlocked
  cases store.find dirID with
  | none => rfl
  | some dirRefer =>
    dsimp only
    split
    · split
      · split
        · exact hPut _
        · exact hRemove
      · exact hPut _
    · exact hRemove

/-- The last reference to a directory goes only while its file store is empty. -/
def EmptyWhenLast (store : InodeDirStore) (dirID : String) : Prop :=
  store.refCount dirID = 1 → store.fileStoreOf dirID = .empty

theorem EmptyWhenLast.congr (h : EmptyWhenLast store dirID)
    (hFind : store'.find dirID = store.find dirID) : EmptyWhenLast store' dirID := by
  unfold EmptyWhenLast refCount fileStoreOf
  rwa [hFind]

theorem Accounted.drop (h : Accounted store owed) {m c : Int} (selfTerminate : Bool)
    (hHeld : 0 < store.refCount dirID) (hLast : EmptyWhenLast store dirID)
    (hFind : ∀ k, store'.find k = (store.releaseDirUnlocked selfTerminate dirID).find k)
    (hCache : ∀ k, store'.cacheRef k = store.cacheRef k + if k = dirID then c else 0)
    (hSum : m + c = -1) (hNonneg : 0 ≤ owed dirID + m) : Accounted store' (owe owed dirID m) := by
  obtain ⟨dirRefer, hSome⟩ := exists_find_of_refCount hHeld
  have hCount := refCount_of_find hSome
  have hReleased := find_releaseDirUnlocked selfTerminate hSome (by omega)
    (fun hOne => hLast (hCount.trans hOne))
  apply h.of_find (fun k => (hFind k).trans (hReleased k)) hCache _ _ hNonneg
  · by_cases hOne : dirRefer.refCount = 1
    · rw [if_pos hOne, elim_none]
      omega
    · rw [if_neg hOne, elim_some, refCount_release]
      omega
  · intro r hr
    split at hr
    · cases hr
    · cases hr
      rw [refCount_release]
      omega

theorem Accounted.releaseDir (h : Accounted store owed) (selfTerminate : Bool)
    (hOwed : 0 < owed dirID) (hLast : EmptyWhenLast store dirID) :
    Accounted (store.releaseDirUnlocked selfTerminate dirID) (owe owed dirID (-1)) := by
  have hCount := h.count dirID
  have hCacheRef := cacheRef_nonneg store dirID
  apply h.drop (c := 0) selfTerminate (by omega) hLast (fun _ => rfl) _ rfl (by omega)
  intro k
  rw [cacheRef_congr (refCache_releaseDirUnlocked selfTerminate), ite_self, add_zero]

theorem mem_uncache {k : String} :
    k ∈ (store.uncache selfTerminate dirID).refCache ↔ k ∈ store.refCache ∧ k ≠ dirID := by
  rw [refCache_uncache, mem_erase]
  rfl

theorem Accounted.uncache (h : Accounted store owed) (selfTerminate : Bool)
    (hCached : dirID ∈ store.refCache) (hLast : EmptyWhenLast store dirID) :
    Accounted (store.uncache selfTerminate dirID) owed := by
  have hCount := h.count dirID
  have hNonneg := h.nonneg dirID
  have hCacheRef : store.cacheRef dirID = 1 := if_pos hCached
  rw [← owe_zero owed dirID]
  have hFind : ∀ k, (store.uncache selfTerminate dirID).find k =
      (store.releaseDirUnlocked selfTerminate dirID).find k := fun _ => rfl
  apply h.drop (c := -1) selfTerminate (by omega) hLast hFind _ rfl (by omega)
  intro k
  unfold cacheRef
  simp only [mem_uncache]
  by_cases hk : k = dirID
  · simp [hk, hCached]
  · simp [hk]

theorem Accounted.reference (h : Accounted store owed) {dirRefer : DirectoryReferencer}
    (hFind : ∀ k, store'.find k = if k = dirID then some dirRefer.reference else store.find k)
    (hCache : store'.refCache = store.refCache)
    (hCount : dirRefer.refCount = store.refCount dirID) : Accounted store' (owe owed dirID 1) := by
  have hBefore := h.count dirID
  have hNonneg := h.nonneg dirID
  have hCacheRef := cacheRef_nonneg store dirID
  apply h.of_find (c := 0) hFind
  · intro k
    rw [cacheRef_congr hCache, ite_self, add_zero]
  · rw [elim_some, refCount_reference, hCount, add_zero]
  · intro r hr
    cases hr
    rw [refCount_reference]
    omega
  · omega

theorem find_uncache_of_ne {k : String} (h : k ≠ dirID) :
    (store.uncache selfTerminate dirID).find k = store.find k :=
  find_releaseDirUnlocked_of_ne selfTerminate h

theorem Accounted.updateDir (h : Accounted store owed) (dirID : String)
    (f : DirInode → DirInode) : Accounted (store.updateDir dirID f) owed := by
  have hNonneg := h.nonneg dirID
  rw [← owe_zero owed dirID]
  apply h.of_find (c := 0) (find_updateDir f)
  · intro k
    rw [cacheRef_congr (refCache_updateDir _), ite_self, add_zero]
  · unfold refCount
    cases store.find dirID <;> simp
  · intro r hr
    obtain ⟨dirRefer, hFind, rfl⟩ := map_eq_some_iff.mp hr
    exact h.counted dirID dirRefer hFind
  · omega

end OneDirectory

/-! ## The cache -/

section Cache

variable {store store' : InodeDirStore} {owed : String → Int} {dirID : String}

variable {dirIDs : List String}

theorem Accounted.uncacheAll (h : Accounted store owed) (selfTerminate : Bool)
    (hNodup : dirIDs.Nodup) (hCached : ∀ k ∈ dirIDs, k ∈ store.refCache)
    (hLast : ∀ k ∈ dirIDs, EmptyWhenLast store k) :
    Accounted (dirIDs.foldl (fun s k => s.uncache selfTerminate k) store) owed := by
  induction dirIDs generalizing store with
  | nil => exact h
  | cons dirID dirIDs ih =>
    obtain ⟨hHere, hRest⟩ := forall_mem_cons.mp hCached
    obtain ⟨hLastHere, hLastRest⟩ := forall_mem_cons.mp hLast
    obtain ⟨hNotIn, hNodup⟩ := nodup_cons.mp hNodup
    have hNe : ∀ k ∈ dirIDs, k ≠ dirID := fun k hk hSame => hNotIn (hSame ▸ hk)
    apply ih (h.uncache selfTerminate hHere hLastHere) hNodup
    · intro k hk
      exact (mem_uncache selfTerminate).mpr ⟨hRest k hk, hNe k hk⟩
    · intro k hk
      exact (hLastRest k hk).congr (find_uncache_of_ne selfTerminate (hNe k hk))

theorem mem_of_mem_sweptIDs {isSyncSweep : Bool} {o : DirStoreOutcomes} {k : String}
    (h : k ∈ store.sweptIDs isSyncSweep o) : k ∈ store.refCache :=
  (sweptIDs_sublist isSyncSweep o store).subset h

theorem Accounted.sweep (h : Accounted store owed) (isSyncSweep : Bool) (o : DirStoreOutcomes)
    (hLast : ∀ k ∈ store.sweptIDs isSyncSweep o, EmptyWhenLast store k) :
    Accounted (store.cacheSweepUnlocked isSyncSweep o).1 owed := by
  rw [cacheSweepUnlocked_eq_foldl]
  exact h.uncacheAll o.selfTerminate ((sweptIDs_sublist _ _ _).nodup (nodup_elems _))
    (fun _ => mem_of_mem_sweptIDs) hLast

section

variable (selfTerminate : Bool) {k : String}

theorem find_uncacheAll_of_notMem (h : k ∉ dirIDs) :
    (dirIDs.foldl (fun s k => s.uncache selfTerminate k) store).find k = store.find k := by
  induction dirIDs generalizing store with
  | nil => rfl
  | cons dirID dirIDs ih =>
    rw [mem_cons, not_or] at h
    obtain ⟨hNe, hRest⟩ := h
    exact (ih hRest).trans (find_uncache_of_ne selfTerminate hNe)

theorem not_cached_uncacheAll (h : k ∉ store.refCache) :
    k ∉ (dirIDs.foldl (fun s k => s.uncache selfTerminate k) store).refCache := by
  induction dirIDs generalizing store with
  | nil => exact h
  | cons dirID dirIDs ih => exact ih fun hIn => h ((mem_uncache selfTerminate).mp hIn).1

end

theorem find_sweep (isSyncSweep : Bool) (o : DirStoreOutcomes) (h : dirID ∉ store.refCache) :
    (store.cacheSweepUnlocked isSyncSweep o).1.find dirID = store.find dirID ∧
      dirID ∉ (store.cacheSweepUnlocked isSyncSweep o).1.refCache := by
  rw [cacheSweepUnlocked_eq_foldl]
  refine ⟨find_uncacheAll_of_notMem _ fun hSwept => h (mem_of_mem_sweptIDs hSwept), ?_⟩
  exact not_cached_uncacheAll _ h

theorem contains_refCache : store.refCache.contains dirID = true ↔ dirID ∈ store.refCache := by
  rw [OrderedSet.contains_iff]
  constructor
  · rintro ⟨z, hz, hSame⟩
    have hSame : z = dirID := hSame
    exact hSame ▸ hz
  · exact fun hIn => ⟨dirID, hIn, rfl⟩

def cached (store : InodeDirStore) (dirID : String) (dirRefer : DirectoryReferencer) :
    InodeDirStore :=
  { store.put dirID dirRefer.reference with refCache := store.refCache.insert dirID }

theorem cacheAddUnlocked_eq {dirRefer : DirectoryReferencer} (o : DirStoreOutcomes)
    (hLimit : store.tuneDirMetadataCacheLimit ≠ 0) (hFresh : dirID ∉ store.refCache)
    (hFind : store.find dirID = some dirRefer) :
    store.cacheAddUnlocked o dirID = (store.cacheSweepUnlocked true o).1.cached dirID dirRefer := by
  obtain ⟨hSwept, hFreshSwept⟩ := find_sweep true o hFresh
  have hContains : (store.cacheSweepUnlocked true o).1.refCache.contains dirID = false :=
    eq_false_of_ne_true fun h => hFreshSwept (contains_refCache.mp h)
  unfold cacheAddUnlocked
  rw [if_neg hLimit]
  dsimp only
  rw [hContains, hSwept, hFind]
  rfl

theorem Accounted.cacheAdd (h : Accounted store owed) (o : DirStoreOutcomes)
    (hFresh : dirID ∉ store.refCache) {dirRefer : DirectoryReferencer}
    (hFind : store.find dirID = some dirRefer)
    (hLast : store.tuneDirMetadataCacheLimit ≠ 0 →
      ∀ k ∈ store.sweptIDs true o, EmptyWhenLast store k) :
    Accounted (store.cacheAddUnlocked o dirID) owed := by
  by_cases hLimit : store.tuneDirMetadataCacheLimit = 0
  · rwa [cacheAddUnlocked, if_pos hLimit]
  rw [cacheAddUnlocked_eq o hLimit hFresh hFind]
  obtain ⟨hSwept, hFreshSwept⟩ := find_sweep true o hFresh
  have hBefore := h.sweep true o (hLast hLimit)
  generalize (store.cacheSweepUnlocked true o).1 = swept at hSwept hFreshSwept hBefore ⊢
  have hCount := refCount_of_find (hSwept.trans hFind)
  have hBalance := hBefore.count dirID
  have hNonneg := hBefore.nonneg dirID
  have hCacheRef := cacheRef_nonneg swept dirID
  rw [← owe_zero owed dirID]
  have hPut : ∀ k, (swept.cached dirID dirRefer).find k =
      if k = dirID then some dirRefer.reference else swept.find k := find_put dirRefer.reference
  apply hBefore.of_find (c := 1) hPut
  · intro k
    have hInsert : k ∈ swept.refCache.insert dirID ↔ k ∈ swept.refCache ∨ k = dirID := by
      rw [mem_insert]
      refine or_congr Iff.rfl (and_iff_left fun z hz hSame => hFreshSwept ?_)
      have hSame : z = dirID := hSame
      rwa [← hSame]
    unfold cacheRef cached
    simp only [hInsert]
    by_cases hk : k = dirID
    · simp [hk, hFreshSwept]
    · simp [hk]
  · rw [elim_some, refCount_reference, hCount, zero_add]
  · intro r hr
    cases hr
    rw [refCount_reference]
    omega
  · omega

end Cache

/-! ## Whole functions -/

section Functions

variable {store store' : InodeDirStore} {owed : String → Int} {dirID : String}

variable (o : DirStoreOutcomes)

/-- Whether a lookup puts a new directory into the store, and from there into the cache. -/
def insertsNew (dirID : String) (forceLoad : Bool) (store : InodeDirStore) : Bool :=
  (store.find dirID).isNone && (!forceLoad || o.loadFromFile)

variable (forceLoad : Bool)

theorem lookupDirInode_of_some {dirRefer : DirectoryReferencer}
    (hFind : store.find dirID = some dirRefer) :
    store.lookupDirInode o dirID forceLoad =
      if dirRefer.referencedObject.exclusive then (store, false)
      else (store.put dirID dirRefer.reference, true) := by
  unfold lookupDirInode
  simp only [hFind, isSome_some, if_true]

def newDir (dirID : String) (forceLoad : Bool) : DirectoryReferencer :=
  ObjectReferencer.new ⟨dirID, forceLoad, false, .empty⟩

/-- The store with a new directory and the reference of its first holder. -/
def inserted (store : InodeDirStore) (dirID : String) (forceLoad : Bool) : InodeDirStore :=
  (store.put dirID (newDir dirID forceLoad)).put dirID (newDir dirID forceLoad).reference

theorem find_inserted (k : String) :
    (store.inserted dirID forceLoad).find k =
      if k = dirID then some (newDir dirID forceLoad).reference else store.find k := by
  unfold inserted
  rw [find_put, find_put]
  split <;> rfl

theorem lookupDirInode_of_none (hFind : store.find dirID = none) :
    store.lookupDirInode o dirID forceLoad =
      if store.insertsNew o dirID forceLoad then
        ((store.inserted dirID forceLoad).cacheAddUnlocked o dirID, true)
      else (store, false) := by
  have hInserts : store.insertsNew o dirID forceLoad = !(forceLoad && !o.loadFromFile) := by
    rw [insertsNew, hFind, Bool.not_and, Bool.not_not]
    rfl
  unfold lookupDirInode insertDirInodeUnlocked
  rw [hInserts]
  cases forceLoad && !o.loadFromFile with
  | true => simp only [hFind, isSome_none, Bool.false_eq_true, if_false, if_true, Bool.not_true]
  | false =>
    have hNew : (store.put dirID (newDir dirID forceLoad)).find dirID =
        some (newDir dirID forceLoad) := (find_put _ dirID).trans (if_pos rfl)
    simp only [hFind, isSome_none, Bool.false_eq_true, if_false]
    show (match (store.put dirID (newDir dirID forceLoad)).find dirID with
      | none => _
      | some dirRefer => _) = _
    rw [hNew]
    rfl

theorem sweptIDs_congr {isSyncSweep : Bool} {o : DirStoreOutcomes}
    (hCache : store'.refCache = store.refCache)
    (hLimit : store'.tuneDirMetadataCacheLimit = store.tuneDirMetadataCacheLimit) :
    store'.sweptIDs isSyncSweep o = store.sweptIDs isSyncSweep o := by
  unfold sweptIDs refCacheAsyncLimit refCacheSyncLimit
  rw [hCache, hLimit]

section

variable (h : Accounted store owed)
include h

theorem Accounted.lookup (o : DirStoreOutcomes) (forceLoad : Bool)
    (hLast : store.insertsNew o dirID forceLoad = true →
      ∀ k ∈ store.sweptIDs true o, EmptyWhenLast store k) :
    Accounted (store.lookupDirInode o dirID forceLoad).1
      (owe owed dirID (if (store.lookupDirInode o dirID forceLoad).2 then 1 else 0)) := by
  cases hFind : store.find dirID with
  | some dirRefer =>
    rw [lookupDirInode_of_some o forceLoad hFind]
    split
    · simpa using h
    · exact h.reference (find_put _) rfl (refCount_of_find hFind).symm
  | none =>
    rw [lookupDirInode_of_none o forceLoad hFind]
    split
    next hNew =>
      have hFresh := h.not_cached hFind
      have hNone : (newDir dirID forceLoad).refCount = store.refCount dirID := by
        rw [refCount, hFind, elim_none]
        rfl
      have hInserted : Accounted (store.inserted dirID forceLoad) (owe owed dirID 1) :=
        h.reference (find_inserted forceLoad) rfl hNone
      have hHere : (store.inserted dirID forceLoad).find dirID = _ :=
        (find_inserted forceLoad dirID).trans (if_pos rfl)
      apply hInserted.cacheAdd o hFresh hHere
      intro _ k hk
      rw [sweptIDs_congr rfl rfl] at hk
      have hNe : k ≠ dirID := by
        rintro rfl
        exact hFresh (mem_of_mem_sweptIDs hk)
      exact (hLast hNew k hk).congr ((find_inserted forceLoad k).trans (if_neg hNe))
    next => simpa using h

theorem Accounted.isRemovable (o : RemoveOutcomes) (dirID : String) :
    Accounted (store.isRemovableUnlocked o dirID).1 owed := by
  have hLoaded : Accounted (if o.loadFromFile then
      store.updateDir dirID (fun dir => { dir with isLoaded := true }) else store) owed := by
    split
    · exact h.updateDir dirID _
    · exact h
  unfold isRemovableUnlocked
  split
  · split
    · exact h
    · dsimp only
      split
      · exact hLoaded
      · exact hLoaded
  · split
    · exact h
    · split
      · exact h
      · exact h

theorem Accounted.removeDirInode (o : RemoveOutcomes)
    (outRemovedDir : Bool) (hLast : dirID ∈ store.refCache → EmptyWhenLast store dirID) :
    Accounted (store.removeDirInodeUnlocked o dirID outRemovedDir).1 owed := by
  have hUncached : Accounted (store.cacheRemoveUnlocked o.selfTerminate dirID) owed := by
    unfold cacheRemoveUnlocked
    split
    next hContains =>
      have hCached := contains_refCache.mp hContains
      exact h.uncache o.selfTerminate hCached (hLast hCached)
    next => exact h
  have hChecked := hUncached.isRemovable o dirID
  unfold removeDirInodeUnlocked
  dsimp only
  split
  · exact hChecked
  · split
    · exact hChecked
    · split
      · exact hChecked
      · exact hChecked

end

end Functions

/-! ## The limit of the cache is configured -/

section Limit

variable {store : InodeDirStore} {dirID : String}

theorem limit_releaseDirUnlocked (selfTerminate : Bool) :
    (store.releaseDirUnlocked selfTerminate dirID).tuneDirMetadataCacheLimit =
      store.tuneDirMetadataCacheLimit := by
  unfold releaseDirUnlocked
  split
  · rfl
  · dsimp only
    split_ifs <;> rfl

theorem limit_uncache (selfTerminate : Bool) :
    (store.uncache selfTerminate dirID).tuneDirMetadataCacheLimit =
      store.tuneDirMetadataCacheLimit := limit_releaseDirUnlocked selfTerminate

theorem limit_sweep (isSyncSweep : Bool) (o : DirStoreOutcomes) :
    (store.cacheSweepUnlocked isSyncSweep o).1.tuneDirMetadataCacheLimit =
      store.tuneDirMetadataCacheLimit := by
  rw [cacheSweepUnlocked_eq_foldl]
  generalize store.sweptIDs isSyncSweep o = dirIDs
  induction dirIDs generalizing store with
  | nil => rfl
  | cons dirID dirIDs ih => exact ih.trans (limit_uncache o.selfTerminate)

theorem limit_updateDir (f : DirInode → DirInode) :
    (store.updateDir dirID f).tuneDirMetadataCacheLimit = store.tuneDirMetadataCacheLimit := by
  unfold updateDir
  split <;> rfl

theorem limit_lookup (o : DirStoreOutcomes) (forceLoad : Bool) :
    (store.lookupDirInode o dirID forceLoad).1.tuneDirMetadataCacheLimit =
      store.tuneDirMetadataCacheLimit := by
  cases hFind : store.find dirID with
  | some dirRefer =>
    rw [lookupDirInode_of_some o forceLoad hFind]
    split <;> rfl
  | none =>
    rw [lookupDirInode_of_none o forceLoad hFind]
    split
    · unfold cacheAddUnlocked
      split
      · rfl
      · dsimp only
        split
        · exact limit_sweep true o
        · exact limit_sweep true o
    · rfl

theorem limit_removeDirInode (o : RemoveOutcomes) (outRemovedDir : Bool) :
    (store.removeDirInodeUnlocked o dirID outRemovedDir).1.tuneDirMetadataCacheLimit =
      store.tuneDirMetadataCacheLimit := by
  have hUncached : (store.cacheRemoveUnlocked o.selfTerminate dirID).tuneDirMetadataCacheLimit =
      store.tuneDirMetadataCacheLimit := by
    unfold cacheRemoveUnlocked
    split
    · exact limit_uncache o.selfTerminate
    · rfl
  have hChecked : ∀ s : InodeDirStore, (s.isRemovableUnlocked o dirID).1.tuneDirMetadataCacheLimit =
        s.tuneDirMetadataCacheLimit := by
    intro s
    unfold isRemovableUnlocked
    split
    · dsimp only
      split_ifs <;> first | rfl | exact limit_updateDir _
    · split_ifs <;> rfl
  unfold removeDirInodeUnlocked
  dsimp only
  split_ifs <;> exact (hChecked _).trans hUncached

end Limit

/-! ## Runs -/

/-- The store, the references of its holders, and whether a sweep went beyond the end of the
cache. What the code does from there on is undefined. -/
structure DirCacheState where
  store : InodeDirStore
  owed : String → Int
  pastEnd : Bool

/-- A call of `referenceDirInode` is a lookup, followed by the load of the inode or by a release
if it cannot be loaded. The holders of a directory change its file store. -/
inductive DirCacheOp
  | lookupDirInode (o : DirStoreOutcomes) (dirID : String) (forceLoad : Bool)
  | loadIfNotLoaded (dirID : String)
  | releaseDir (selfTerminate : Bool) (dirID : String)
  | setFileStore (dirID : String) (fileStore : InodeFileStore)
  | removeDirInode (o : RemoveOutcomes) (dirID : String) (outRemovedDir : Bool)
  | cacheSweepAsync (o : DirStoreOutcomes)

namespace DirCacheState

def initial (tuneDirMetadataCacheLimit : Nat) : DirCacheState :=
  ⟨InodeDirStore.empty tuneDirMetadataCacheLimit, fun _ => 0, false⟩

def step (s : DirCacheState) : DirCacheOp → DirCacheState
  | .lookupDirInode o dirID forceLoad =>
    let (store, referenced) := s.store.lookupDirInode o dirID forceLoad
    -- the cache and its limit are the same at the sweep of the lookup
    let sweeps := s.store.insertsNew o dirID forceLoad && s.store.tuneDirMetadataCacheLimit != 0
    ⟨store, owe s.owed dirID (if referenced then 1 else 0),
      s.pastEnd || sweeps && s.store.sweepPassesEnd true o⟩
  | .loadIfNotLoaded dirID =>
    { s with store := s.store.updateDir dirID (fun dir => { dir with isLoaded := true }) }
  | .releaseDir selfTerminate dirID =>
    { s with
      store := s.store.releaseDirUnlocked selfTerminate dirID
      owed := owe s.owed dirID (-1) }
  | .setFileStore dirID fileStore => { s with store := s.store.setFileStore dirID fileStore }
  | .removeDirInode o dirID outRemovedDir =>
    { s with store := (s.store.removeDirInodeUnlocked o dirID outRemovedDir).1 }
  | .cacheSweepAsync o =>
    { s with
      store := (s.store.cacheSweepAsync o).1
      pastEnd := s.pastEnd || s.store.sweepPassesEnd false o }

/-- Only holders load, change and release a directory. The random elements are those that the
generator is asked for, and a file store is empty when the last reference to its directory
goes. -/
def Allowed (s : DirCacheState) : DirCacheOp → Prop
  | .lookupDirInode o dirID forceLoad =>
    o.randStart < DIRSTORE_REFCACHE_REMOVE_SKIP_SYNC ∧
      (s.store.insertsNew o dirID forceLoad = true →
        ∀ k ∈ s.store.sweptIDs true o, EmptyWhenLast s.store k)
  | .loadIfNotLoaded dirID => 0 < s.owed dirID
  | .releaseDir _ dirID => 0 < s.owed dirID ∧ EmptyWhenLast s.store dirID
  | .setFileStore dirID _ => 0 < s.owed dirID
  | .removeDirInode _ dirID _ => dirID ∈ s.store.refCache → EmptyWhenLast s.store dirID
  | .cacheSweepAsync o =>
    o.randStart < DIRSTORE_REFCACHE_REMOVE_SKIP_ASYNC ∧
      ∀ k ∈ s.store.sweptIDs false o, EmptyWhenLast s.store k

/-- What the counts and the cache are to be, and where the sweeps are to stay. -/
structure Right (s : DirCacheState) : Prop where
  subset : ∀ k ∈ s.store.refCache, ∃ dirRefer, s.store.find k = some dirRefer
  refCount : ∀ k dirRefer, s.store.find k = some dirRefer →
    dirRefer.refCount = s.owed k + if k ∈ s.store.refCache then 1 else 0
  counted : ∀ k dirRefer, s.store.find k = some dirRefer → dirRefer.refCount ≠ 0
  inside : s.pastEnd = false

/-- A new directory comes to a cache with the limit 1 and two elements, and the sweep is to start
with the fourth one. -/
def StartsPastEnd (s : DirCacheState) : DirCacheOp → Prop
  | .lookupDirInode o dirID forceLoad =>
    s.store.insertsNew o dirID forceLoad = true ∧ s.store.tuneDirMetadataCacheLimit = 1 ∧
      s.store.refCache.elems.length = 2 ∧ o.randStart = 3
  | _ => False

instance (s : DirCacheState) : (op : DirCacheOp) → Decidable (s.StartsPastEnd op)
  | .lookupDirInode _ _ _ => inferInstanceAs (Decidable (_ ∧ _ ∧ _ ∧ _))
  | .loadIfNotLoaded _ => .isFalse id
  | .releaseDir _ _ => .isFalse id
  | .setFileStore _ _ => .isFalse id
  | .removeDirInode _ _ _ => .isFalse id
  | .cacheSweepAsync _ => .isFalse id

/-- The invariant: the accounts are right, and the cache is enabled. -/
structure Inv (s : DirCacheState) : Prop where
  accounted : Accounted s.store s.owed
  inside : s.pastEnd = false
  enabled : 1 ≤ s.store.tuneDirMetadataCacheLimit

variable {s : DirCacheState}

theorem Inv.right (h : Inv s) : Right s where
  subset _ hk := h.accounted.find_of_cached hk
  refCount k dirRefer hFind := by
    rw [← refCount_of_find hFind]
    exact h.accounted.count k
  counted := h.accounted.counted
  inside := h.inside

theorem accounted_initial (limit : Nat) : Accounted (initial limit).store (initial limit).owed where
  count k := by
    have hCount : (initial limit).store.refCount k = 0 := rfl
    have hCache : (initial limit).store.cacheRef k = 0 := if_neg (not_mem_empty k)
    rw [hCount, hCache]
    rfl
  nonneg _ := le_refl 0
  counted _ _ hFind := nomatch hFind

theorem sweepPassesEnd_iff {store : InodeDirStore} (isSyncSweep : Bool) (o : DirStoreOutcomes) :
    store.sweepPassesEnd isSyncSweep o = true ↔
      (if isSyncSweep then store.refCacheSyncLimit else store.refCacheAsyncLimit) <
          store.refCache.elems.length ∧ store.refCache.elems.length < o.randStart := by
  unfold sweepPassesEnd
  generalize (if isSyncSweep = true then store.refCacheSyncLimit else
    store.refCacheAsyncLimit) = cacheLimit
  dsimp only
  split
  next hSmall => exact iff_of_false Bool.false_ne_true fun h => not_lt.mpr hSmall h.1
  next hLarge => rw [passesEnd_iff, and_iff_right (Nat.lt_of_not_le hLarge)]

variable {op : DirCacheOp}

theorem accounted_step (h : Accounted s.store s.owed)
    (hok : s.Allowed op) : Accounted (s.step op).store (s.step op).owed := by
  cases op with
  | lookupDirInode o dirID forceLoad => exact h.lookup o forceLoad hok.2
  | loadIfNotLoaded dirID => exact h.updateDir dirID (fun dir => { dir with isLoaded := true })
  | releaseDir selfTerminate dirID => exact h.releaseDir selfTerminate hok.1 hok.2
  | setFileStore dirID fileStore =>
    exact h.updateDir dirID (fun dir => { dir with fileStore := fileStore })
  | removeDirInode o dirID outRemovedDir => exact h.removeDirInode o outRemovedDir hok
  | cacheSweepAsync o => exact h.sweep false o hok.2

theorem limit_step (s : DirCacheState) (op : DirCacheOp) :
    (s.step op).store.tuneDirMetadataCacheLimit = s.store.tuneDirMetadataCacheLimit := by
  cases op with
  | lookupDirInode o dirID forceLoad => exact limit_lookup o forceLoad
  | loadIfNotLoaded dirID => exact limit_updateDir _
  | releaseDir selfTerminate dirID => exact limit_releaseDirUnlocked selfTerminate
  | setFileStore dirID fileStore => exact limit_updateDir _
  | removeDirInode o dirID outRemovedDir => exact limit_removeDirInode o outRemovedDir
  | cacheSweepAsync o => exact limit_sweep false o

theorem pastEnd_step (h : Inv s) (hok : s.Allowed op) :
    (s.step op).pastEnd = true ↔ s.StartsPastEnd op := by
  have hInside := h.inside
  have hEnabled := h.enabled
  have hUnchanged : s.pastEnd = true ↔ False := by
    rw [hInside]
    exact iff_of_false Bool.false_ne_true id
  cases op with
  | lookupDirInode o dirID forceLoad =>
    have hStart := hok.1
    rw [DIRSTORE_REFCACHE_REMOVE_SKIP_SYNC] at hStart
    have hLimit : s.store.refCacheSyncLimit = s.store.tuneDirMetadataCacheLimit := rfl
    show (s.pastEnd || _ && s.store.sweepPassesEnd true o) = true ↔ _ ∧ _
    rw [hInside, Bool.false_or, Bool.and_eq_true, Bool.and_eq_true, bne_iff_ne,
      sweepPassesEnd_iff, if_pos rfl, hLimit, and_assoc]
    apply and_congr_right
    intro _
    omega
  | cacheSweepAsync o =>
    have hStart := hok.1
    rw [DIRSTORE_REFCACHE_REMOVE_SKIP_ASYNC] at hStart
    have hLimit : s.store.refCacheAsyncLimit =
        s.store.tuneDirMetadataCacheLimit - s.store.tuneDirMetadataCacheLimit / 2 := rfl
    show (s.pastEnd || s.store.sweepPassesEnd false o) = true ↔ False
    rw [hInside, Bool.false_or, sweepPassesEnd_iff, if_neg Bool.false_ne_true, hLimit]
    apply iff_of_false _ id
    omega
  | loadIfNotLoaded dirID => exact hUnchanged
  | releaseDir selfTerminate dirID => exact hUnchanged
  | setFileStore dirID fileStore => exact hUnchanged
  | removeDirInode o dirID outRemovedDir => exact hUnchanged

theorem Inv.step (h : Inv s) (hok : s.Allowed op)
    (hInside : ¬ s.StartsPastEnd op) : Inv (s.step op) where
  accounted := accounted_step h.accounted hok
  inside := eq_false_of_ne_true fun hPast => hInside ((pastEnd_step h hok).mp hPast)
  enabled := by
    rw [limit_step]
    exact h.enabled

/-- Runs of any length, with any limit of the cache but 0. -/
theorem dirCache_accounted_iff {limit : Nat} (hLimit : 1 ≤ limit) {ops : List DirCacheOp}
    (hok : Run.EveryStep DirCacheState.step Allowed (initial limit) ops) :
    Run.Throughout DirCacheState.step Right (initial limit) ops ↔
      Run.EveryStep DirCacheState.step (fun s op => ¬ s.StartsPastEnd op) (initial limit) ops := by
  apply Run.throughout_iff_everyStep (J := Inv) DirCacheState.step
  · exact fun s h => h.right
  · exact fun s op h hAllowed hInside => h.step hAllowed hInside
  · intro s op h hAllowed hPast hRight
    have hPastEnd := (pastEnd_step h hAllowed).mpr (not_not.mp hPast)
    rw [hRight.inside] at hPastEnd
    cases hPastEnd
  · exact ⟨accounted_initial limit, rfl, hLimit⟩
  · exact hok

/-- Two directories that are cached, and a third one. -/
def thirdDirectory (randStart : Nat) : List DirCacheOp :=
  [.lookupDirInode ⟨0, false, true⟩ "a" false, .lookupDirInode ⟨0, false, true⟩ "b" false,
   .lookupDirInode ⟨randStart, false, true⟩ "c" false]

theorem allowed_thirdDirectory {randStart : Nat} (hStart : randStart < 4)
    (hHeld : ∀ k ∈ ((initial 1).step (.lookupDirInode ⟨0, false, true⟩ "a" false)
        |>.step (.lookupDirInode ⟨0, false, true⟩ "b" false)).store.sweptIDs true
        ⟨randStart, false, true⟩, k = "a" ∨ k = "b") :
    Run.EveryStep DirCacheState.step Allowed (initial 1) (thirdDirectory randStart) := by
  refine ⟨⟨by decide, ?_⟩, ⟨by decide, ?_⟩, ⟨hStart, ?_⟩, trivial⟩
  · intro _ k hk
    exact absurd hk not_mem_nil
  · intro _ k hk
    exact absurd hk not_mem_nil
  · intro _ k hk hLast
    rcases hHeld k hk with rfl | rfl
    · exact absurd hLast (by decide)
    · exact absurd hLast (by decide)

/-- The sweep starts with the second element. -/
theorem dirCache_accounted_iff_second :
    Run.Throughout DirCacheState.step Right (initial 1) (thirdDirectory 1) :=
  (dirCache_accounted_iff (le_refl 1) (allowed_thirdDirectory (by decide) (by decide))).mpr
    (by decide)

/-- The sweep starts behind the end of a cache with two elements. -/
theorem not_dirCache_accounted :
    ¬ ∀ (limit : Nat) (ops : List DirCacheOp), 1 ≤ limit →
      Run.EveryStep DirCacheState.step Allowed (initial limit) ops →
      Run.Throughout DirCacheState.step Right (initial limit) ops := by
  intro h
  have hRight := h 1 (thirdDirectory 3) (le_refl 1)
    (allowed_thirdDirectory (by decide) (by decide))
  have hPast : (Run.after DirCacheState.step (initial 1) (thirdDirectory 3)).pastEnd = true := by
    decide
  have hInside := ((Run.throughout_iff DirCacheState.step).mp hRight 3).inside
  rw [thirdDirectory, take_succ_cons] at hInside
  exact nomatch hInside.symm.trans hPast

end DirCacheState

end Fhgfs.Storage.InodeDirStore
