import Fhgfs.Storage.InodeDirStore

/-!
# The balance of the directory references

`Balanced` is the accounting of a directory inode store: the reference count of each directory is
the number of references that the users of the store hold, plus one if the directory is in the
cache. All operations keep this balance, with the users' references that they take or give back,
and none of them changes the content of a file store.
-/

namespace Fhgfs.Storage.InodeDirStore

open OrderedSet Option InodeDirStore List

def owe (owed : String → Int) (dirID : String) (n : Int) : String → Int :=
  fun k => owed k + if k = dirID then n else 0

section

variable (owed : String → Int) (dirID : String)

theorem owe_self (n : Int) : owe owed dirID n dirID = owed dirID + n := by
  rw [owe, if_pos rfl]

@[simp] theorem owe_zero : owe owed dirID 0 = owed := by
  funext k
  simp [owe]

@[simp] theorem owe_owe (m n : Int) : owe (owe owed dirID m) dirID n = owe owed dirID (m + n) := by
  funext k
  unfold owe
  split <;> omega

end

/-- The users of the store hold `owed` references to each directory, and at least one to a
directory whose file store is not empty. -/
structure Balanced (store : InodeDirStore) (owed : String → Int) : Prop where
  count : ∀ k, store.refCount k = owed k + store.cacheRef k
  nonneg : ∀ k, 0 ≤ owed k
  empty : ∀ k, owed k = 0 → store.fileStoreOf k = .empty
  unlocked : store.Unlocked

/-- The store has become `store'`, which is balanced for `owed` and has the same file stores. -/
structure Rebalanced (store store' : InodeDirStore) (owed : String → Int) : Prop where
  balanced : Balanced store' owed
  files : ∀ k, store'.fileStoreOf k = store.fileStoreOf k

section Balance

variable {store store' store'' : InodeDirStore} {owed owed' : String → Int} {dirID : String}

theorem Balanced.congr (h : Balanced store owed) (hSame : ∀ k, owed' k = owed k) :
    Balanced store owed' := by
  obtain rfl : owed' = owed := funext hSame
  exact h

theorem Rebalanced.refl (h : Balanced store owed) : Rebalanced store store owed := ⟨h, fun _ => rfl⟩

theorem Rebalanced.trans (h : Rebalanced store store' owed)
    (h' : Rebalanced store' store'' owed') : Rebalanced store store'' owed' :=
  ⟨h'.balanced, fun k => (h'.files k).trans (h.files k)⟩

variable (h : Balanced store owed)
include h

theorem Balanced.exists_find (hOwed : 0 < owed dirID) :
    ∃ dirRefer, store.find dirID = some dirRefer := by
  have hCount := h.count dirID
  have hCache := cacheRef_nonneg store dirID
  exact exists_find_of_refCount (by omega)

/-- The reference count of a directory changes with the references of the users and the one of
the cache. -/
theorem Balanced.recounted {n m c : Int} (hRecount : Recounted store store' dirID n)
    (hCache : ∀ k, store'.cacheRef k = store.cacheRef k + if k = dirID then c else 0)
    (hSum : n = m + c) (hNonneg : 0 ≤ owed dirID + m)
    (hEmpty : owed dirID + m = 0 → store.fileStoreOf dirID = .empty) :
    Rebalanced store store' (owe owed dirID m) := by
  refine ⟨⟨fun k => ?_, fun k => ?_, fun k hZero => ?_, hRecount.unlocked h.unlocked⟩,
    hRecount.fileStoreOf⟩
  · have hCount := h.count k
    have hChange := hRecount.refCount k
    have hCached := hCache k
    unfold owe
    split_ifs at hChange hCached ⊢ <;> omega
  · have hHere := h.nonneg k
    unfold owe
    split
    · rename_i hk
      rwa [hk]
    · omega
  · rw [hRecount.fileStoreOf]
    unfold owe at hZero
    split at hZero
    · rename_i hk
      rw [hk] at hZero ⊢
      exact hEmpty hZero
    · exact h.empty k (by omega)

section

variable (selfTerminate : Bool)

theorem Balanced.release (dirID : String) (hOwed : 0 < owed dirID)
    (hLast : owed dirID = 1 → store.fileStoreOf dirID = .empty) :
    Rebalanced store (store.releaseDirUnlocked selfTerminate dirID) (owe owed dirID (-1)) := by
  have hCount := h.count dirID
  have hCache := cacheRef_nonneg store dirID
  have hRecount := releaseDirUnlocked_recounted selfTerminate (by omega)
    (fun hOne => hLast (by omega))
  refine h.recounted (c := 0) hRecount (fun k => ?_) rfl (by omega) (fun hZero => hLast (by omega))
  rw [cacheRef_congr (refCache_releaseDirUnlocked selfTerminate), ite_self, add_zero]

theorem Balanced.uncache (hCached : dirID ∈ store.refCache) :
    Rebalanced store (store.uncache selfTerminate dirID) owed := by
  have hCount := h.count dirID
  have hNonneg := h.nonneg dirID
  have hCache : store.cacheRef dirID = 1 := if_pos hCached
  have hHeld : 0 < store.refCount dirID := by omega
  have hRelease := releaseDirUnlocked_recounted selfTerminate hHeld
    (fun hOne => h.empty dirID (by omega))
  have hRecount : Recounted store (store.uncache selfTerminate dirID) dirID (-1) :=
    ⟨hRelease.refCount, hRelease.fileStoreOf, hRelease.unlocked⟩
  rw [← owe_zero owed dirID]
  refine h.recounted (c := -1) hRecount (fun k => ?_) rfl (by omega)
    (fun hZero => h.empty dirID (by omega))
  have hErase : k ∈ (store.uncache selfTerminate dirID).refCache ↔
      k ∈ store.refCache ∧ k ≠ dirID := by
    unfold InodeDirStore.uncache
    simp only [refCache_releaseDirUnlocked, OrderedSet.mem_erase, id, ne_eq]
  unfold cacheRef
  simp only [hErase]
  by_cases hk : k = dirID
  · simp [hk, hCached]
  · simp [hk]

theorem Balanced.sweepLoop (removeSkipNum i : Nat)
    {dirIDs : List String} (hNodup : dirIDs.Nodup) (hCached : ∀ k ∈ dirIDs, k ∈ store.refCache) :
    Rebalanced store (store.sweepLoop selfTerminate removeSkipNum i dirIDs) owed := by
  induction dirIDs generalizing store i with
  | nil => exact .refl h
  | cons dirID dirIDs ih =>
    obtain ⟨hHere, hRest⟩ := forall_mem_cons.mp hCached
    obtain ⟨hNotIn, hNodup⟩ := nodup_cons.mp hNodup
    unfold sweepLoop
    split
    · have hUncached := h.uncache selfTerminate hHere
      refine hUncached.trans (ih hUncached.balanced 0 hNodup fun k hk => ?_)
      rw [refCache_uncache, mem_erase]
      refine ⟨hRest k hk, fun hSame => hNotIn ?_⟩
      have hSame : k = dirID := hSame
      rwa [← hSame]
    · exact ih h (i + 1) hNodup hRest

end

theorem Balanced.sweep (isSyncSweep : Bool) (o : DirStoreOutcomes) :
    Rebalanced store (store.cacheSweepUnlocked isSyncSweep o).1 owed := by
  unfold cacheSweepUnlocked
  generalize (if isSyncSweep = true then store.refCacheSyncLimit else
    store.refCacheAsyncLimit) = cacheLimit
  generalize (if isSyncSweep = true then DIRSTORE_REFCACHE_REMOVE_SKIP_SYNC else
    DIRSTORE_REFCACHE_REMOVE_SKIP_ASYNC) = removeSkipNum
  simp only
  split
  · exact .refl h
  · refine h.sweepLoop _ _ _ ?_ fun k hk => mem_of_mem_drop hk
    exact (drop_sublist _ _).nodup (nodup_elems _)

theorem Balanced.cacheAdd (o : DirStoreOutcomes) (dirID : String) :
    Rebalanced store (store.cacheAddUnlocked o dirID) owed := by
  unfold cacheAddUnlocked
  split
  · exact .refl h
  have hSwept := h.sweep true o
  refine hSwept.trans ?_
  generalize (store.cacheSweepUnlocked true o).1 = swept at hSwept ⊢
  have hBalanced := hSwept.balanced
  simp only
  split
  · rename_i dirRefer hContains hFind
    have hFresh : dirID ∉ swept.refCache := by
      intro hIn
      rw [contains_iff.mpr ⟨dirID, hIn, rfl⟩] at hContains
      cases hContains
    have hInsert : ∀ k, k ∈ swept.refCache.insert dirID ↔ k ∈ swept.refCache ∨ k = dirID := by
      intro k
      rw [mem_insert]
      refine or_congr Iff.rfl (and_iff_left fun z hz hSame => hFresh ?_)
      have hSame : z = dirID := hSame
      rwa [← hSame]
    have hPut : Recounted swept (swept.put dirID dirRefer.reference) dirID 1 :=
      recounted_put hFind rfl rfl
    have hRecount : Recounted swept
        { swept.put dirID dirRefer.reference with refCache := swept.refCache.insert dirID }
        dirID 1 := ⟨hPut.refCount, hPut.fileStoreOf, hPut.unlocked⟩
    rw [← owe_zero owed dirID]
    refine hBalanced.recounted (c := 1) hRecount (fun k => ?_) rfl ?_ ?_
    · unfold cacheRef
      simp only [hInsert]
      by_cases hk : k = dirID
      · simp [hk, hFresh]
      · simp [hk]
    · have hNonneg := hBalanced.nonneg dirID
      omega
    · intro hZero
      exact hBalanced.empty dirID (by omega)
  · exact .refl hBalanced

theorem Balanced.reference {dirRefer : DirectoryReferencer}
    (hFind : store.find dirID = some dirRefer) :
    Rebalanced store (store.put dirID dirRefer.reference) (owe owed dirID 1) := by
  have hNonneg := h.nonneg dirID
  refine h.recounted (c := 0) (recounted_put hFind rfl rfl) (fun k => ?_) rfl (by omega)
    (fun hZero => by omega)
  rw [cacheRef_congr (refCache_put _), ite_self, add_zero]

theorem Balanced.insert (o : DirStoreOutcomes) (forceLoad : Bool)
    (hNone : store.find dirID = none) :
    Rebalanced store (store.insertDirInodeUnlocked o dirID forceLoad) owed := by
  unfold insertDirInodeUnlocked
  split
  · exact .refl h
  have hNonneg := h.nonneg dirID
  have hFiles : store.fileStoreOf dirID = .empty := by rw [fileStoreOf, hNone, elim_none]
  have hCount : store.refCount dirID = 0 := by rw [refCount, hNone, elim_none]
  have hRecount : Recounted store (store.put dirID (ObjectReferencer.new
      ⟨dirID, forceLoad, false, .empty⟩)) dirID 0 := by
    refine Recounted.of_find (find_put _) ?_ hFiles.symm ?_
    · rw [hCount]
      rfl
    · rintro - r hr
      rw [← some.inj hr]
      rfl
  rw [← owe_zero owed dirID]
  refine h.recounted (c := 0) hRecount (fun k => ?_) rfl (by omega) (fun _ => hFiles)
  rw [cacheRef_congr (refCache_put _), ite_self, add_zero]

theorem Balanced.load (dirID : String) :
    Rebalanced store (store.updateDir dirID (fun dir => { dir with isLoaded := true })) owed := by
  have hRecount : Recounted store
      (store.updateDir dirID (fun dir => { dir with isLoaded := true })) dirID 0 := by
    refine Recounted.of_find (find_updateDir _) ?_ ?_ ?_
    · unfold refCount
      cases store.find dirID <;> simp
    · unfold fileStoreOf
      cases store.find dirID <;> simp
    · intro hAll r hr
      obtain ⟨dirRefer, hFind, rfl⟩ := map_eq_some_iff.mp hr
      exact hAll dirID dirRefer hFind
  have hNonneg := h.nonneg dirID
  rw [← owe_zero owed dirID]
  refine h.recounted (c := 0) hRecount (fun k => ?_) rfl (by omega)
    (fun hZero => h.empty dirID (by omega))
  rw [cacheRef_congr (refCache_updateDir _), ite_self, add_zero]

/-- A reference call takes one reference, or none if it fails. Without `forceLoad` it succeeds. -/
theorem Balanced.referenceDir (o : DirStoreOutcomes) (dirID : String) (forceLoad : Bool) :
    Rebalanced store (store.referenceDirInode o dirID forceLoad).1
        (owe owed dirID (if (store.referenceDirInode o dirID forceLoad).2 then 1 else 0)) ∧
      (forceLoad = false → (store.referenceDirInode o dirID forceLoad).2 = true) := by
  unfold referenceDirInode
  have hInsert : Rebalanced store (if (store.find dirID).isSome then store else
      store.insertDirInodeUnlocked o dirID forceLoad) owed := by
    cases hFind : store.find dirID with
    | none => exact h.insert o forceLoad hFind
    | some _ => exact .refl h
  have hFound : forceLoad = false → ∃ dirRefer, (if (store.find dirID).isSome then store else
      store.insertDirInodeUnlocked o dirID forceLoad).find dirID = some dirRefer := by
    rintro rfl
    cases hFind : store.find dirID with
    | none => exact ⟨_, (find_put _ dirID).trans (if_pos rfl)⟩
    | some dirRefer => exact ⟨dirRefer, hFind⟩
  simp only
  generalize (if (store.find dirID).isSome = true then store else
    store.insertDirInodeUnlocked o dirID forceLoad) = inserted at hInsert hFound ⊢
  cases hFind : inserted.find dirID with
  | none =>
    refine ⟨by simpa using hInsert, fun hNoLoad => ?_⟩
    obtain ⟨dirRefer, hSome⟩ := hFound hNoLoad
    rw [hFind] at hSome
    cases hSome
  | some dirRefer =>
    have hReferenced := hInsert.trans (hInsert.balanced.reference hFind)
    have hNonneg := h.nonneg dirID
    simp only [hInsert.balanced.unlocked dirID dirRefer hFind, Bool.false_eq_true, if_false]
    have hCached : Rebalanced store (if (store.find dirID).isSome then
        inserted.put dirID dirRefer.reference else
        (inserted.put dirID dirRefer.reference).cacheAddUnlocked o dirID)
        (owe owed dirID 1) := by
      split
      · exact hReferenced
      · exact hReferenced.trans (hReferenced.balanced.cacheAdd o dirID)
    generalize (if (store.find dirID).isSome = true then inserted.put dirID dirRefer.reference
      else (inserted.put dirID dirRefer.reference).cacheAddUnlocked o dirID) = cached at hCached ⊢
    by_cases hLoad : forceLoad = true
    · rw [if_pos hLoad]
      refine ⟨?_, fun hNoLoad => absurd (hLoad.symm.trans hNoLoad) Bool.true_eq_false_eq_False⟩
      split
      · exact hCached.trans (hCached.balanced.load dirID)
      · have hOwed := owe_self owed dirID 1
        have hRelease := hCached.balanced.release o.selfTerminate dirID (by omega)
          (fun hOne => (hCached.files dirID).trans (h.empty dirID (by omega)))
        simpa using hCached.trans hRelease
    · rw [if_neg hLoad]
      exact ⟨hCached, fun _ => rfl⟩

theorem Balanced.setFileStore (dirID : String)
    (fileStore : InodeFileStore) (hOwed : 0 < owed dirID) :
    Balanced (store.setFileStore dirID fileStore) owed ∧
      ∀ k, (store.setFileStore dirID fileStore).fileStoreOf k =
        if k = dirID then fileStore else store.fileStoreOf k := by
  obtain ⟨dirRefer, hFind⟩ := h.exists_find hOwed
  have hFind' : ∀ k, (store.setFileStore dirID fileStore).find k = if k = dirID then
      some ⟨dirRefer.refCount, { dirRefer.referencedObject with fileStore := fileStore }⟩
      else store.find k := by
    intro k
    unfold InodeDirStore.setFileStore
    rw [find_updateDir, hFind, map_some]
  have hFiles : ∀ k, (store.setFileStore dirID fileStore).fileStoreOf k =
      if k = dirID then fileStore else store.fileStoreOf k := by
    intro k
    rw [fileStoreOf, hFind']
    split
    · rfl
    · rw [fileStoreOf]
  refine ⟨⟨fun k => ?_, h.nonneg, fun k hZero => ?_, fun k r hr => ?_⟩, hFiles⟩
  · have hCount : (store.setFileStore dirID fileStore).refCount k = store.refCount k := by
      rw [refCount, hFind']
      split
      · rename_i hk
        rw [hk, refCount_of_find hFind, elim_some]
      · rw [refCount]
    have hCache : (store.setFileStore dirID fileStore).cacheRef k = store.cacheRef k :=
      cacheRef_congr (refCache_updateDir _) k
    rw [hCount, hCache, h.count]
  · rw [hFiles, if_neg]
    · exact h.empty k hZero
    · rintro rfl
      omega
  · rw [hFind'] at hr
    split at hr
    · rw [← some.inj hr]
      exact h.unlocked dirID dirRefer hFind
    · exact h.unlocked k r hr

end Balance

end Fhgfs.Storage.InodeDirStore
