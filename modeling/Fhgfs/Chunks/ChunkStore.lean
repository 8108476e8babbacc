import Fhgfs.Lib.OrderedMap
import Mathlib.Data.String.Basic

/-!
# The chunk directory store

`ChunkStore` of the storage server: the referenced chunk directories by their ID, and the cache
that keeps one reference of its own to directories that were not in memory when they were
referenced. A sweep gives every n-th cached reference back.

`Counts` describes the map: an element is there exactly if it has references, and it counts
those of the threads and the one of the cache. A reference keeps the directory object that the
other references have.
-/

namespace Fhgfs.Chunks

open OrderedMap Function List

/-- A `ChunkDir*`, the address and the ID that is stored there. -/
structure ChunkDirPtr where
  id : String
  addr : Nat
deriving DecidableEq

structure ChunkDirReferencer where
  chunkDir : ChunkDirPtr
  refCount : Nat
deriving DecidableEq

/-- `nextAddr` is where the next `ChunkDir` will be allocated. -/
structure ChunkStore where
  dirs : OrderedMap String ChunkDirReferencer
  refCache : OrderedSet (fun dirID : String => dirID)
  refCacheSyncLimit : Nat
  refCacheAsyncLimit : Nat
  nextAddr : Nat
deriving DecidableEq

def getUniqueDirID (pathElement : String) (pathDepth : Nat) : String :=
  pathElement ++ "-l" ++ toString pathDepth

def CHUNKSTORE_REFCACHE_REMOVE_SKIP_SYNC : Nat := 4

def CHUNKSTORE_REFCACHE_REMOVE_SKIP_ASYNC : Nat := 3

/-- The elements where a counter that goes up by one reaches `n`. It starts over from 0. -/
def everyNth (n : Nat) : Nat → List String → List String
  | _, [] => []
  | i, dirID :: rest =>
    if i + 1 = n then dirID :: everyNth n 0 rest else everyNth n (i + 1) rest

namespace ChunkStore

def init (tuneDirCacheLimit : Nat) : ChunkStore where
  dirs := OrderedSet.empty
  refCache := OrderedSet.empty
  refCacheSyncLimit := tuneDirCacheLimit
  refCacheAsyncLimit := tuneDirCacheLimit - tuneDirCacheLimit / 2
  nextAddr := 0

/-- Releases of directories without an element are only logged. -/
def releaseDirUnlocked (s : ChunkStore) (dirID : String) : ChunkStore :=
  match s.dirs.find dirID with
  | none => s
  | some dirRefer =>
    if dirRefer.refCount ≠ 0 ∧ dirRefer.refCount - 1 ≠ 0 then
      { s with dirs := s.dirs.put dirID { dirRefer with refCount := dirRefer.refCount - 1 } }
    else { s with dirs := s.dirs.remove dirID }

/-- `releaseDirUnlocked` and `refCache.erase` of a cached directory. -/
def cacheRemoveUnlocked (s : ChunkStore) (dirID : String) : ChunkStore :=
  { s.releaseDirUnlocked dirID with refCache := s.refCache.erase dirID }

def cacheSweepUnlocked (s : ChunkStore) (isSyncSweep : Bool) (rand : Nat) : ChunkStore :=
  let cacheLimit := if isSyncSweep then s.refCacheSyncLimit else s.refCacheAsyncLimit
  let removeSkipNum :=
    if isSyncSweep then CHUNKSTORE_REFCACHE_REMOVE_SKIP_SYNC
    else CHUNKSTORE_REFCACHE_REMOVE_SKIP_ASYNC
  if s.refCache.elems.length ≤ cacheLimit then s
  else
    let randStart := rand % removeSkipNum
    (everyNth removeSkipNum (removeSkipNum - 1) (s.refCache.elems.drop randStart)).foldl
      cacheRemoveUnlocked s

def cacheAddUnlocked (s : ChunkStore) (rand : Nat) (dirID : String) : ChunkStore :=
  let swept := s.cacheSweepUnlocked true rand
  if dirID ∈ swept.refCache then swept
  else
    match swept.dirs.find dirID with
    | none => { swept with refCache := swept.refCache.insert dirID }
    | some dirRefer =>
      { swept with
        refCache := swept.refCache.insert dirID
        dirs := swept.dirs.put dirID { dirRefer with refCount := dirRefer.refCount + 1 } }

/-- The lookup under the read lock, and the second one and the insertion under the write lock. -/
def referenceDir (s : ChunkStore) (rand : Nat) (dirID : String) : ChunkDirPtr × ChunkStore :=
  match s.dirs.find dirID with
  | some dirRefer =>
    (dirRefer.chunkDir,
      { s with dirs := s.dirs.put dirID { dirRefer with refCount := dirRefer.refCount + 1 } })
  | none =>
    let dir : ChunkDirPtr := ⟨dirID, s.nextAddr⟩
    (dir, ({ s with
      dirs := s.dirs.put dirID ⟨dir, 1⟩
      nextAddr := s.nextAddr + 1 } : ChunkStore).cacheAddUnlocked rand dirID)

def cached (s : ChunkStore) (dirID : String) : Nat := if dirID ∈ s.refCache then 1 else 0

/-- The reference count of a directory. It is 0 while the directory is not in memory. -/
def refCount (s : ChunkStore) (dirID : String) : Nat :=
  match s.dirs.find dirID with
  | none => 0
  | some dirRefer => dirRefer.refCount

/-! ## What the elements count -/

/-- `refs` has the references of the threads, `dir` the directory objects. -/
structure Counts (s : ChunkStore) (dir : String → ChunkDirPtr) (refs : String → Nat) : Prop where
  find_eq : ∀ dirID, s.dirs.find dirID =
    if refs dirID + s.cached dirID = 0 then none
    else some ⟨dir dirID, refs dirID + s.cached dirID⟩
  ids : ∀ dirID, (dir dirID).id = dirID

namespace Counts

open Function (update)

variable {s : ChunkStore} {dir : String → ChunkDirPtr} {refs : String → Nat}

theorem init (tuneDirCacheLimit : Nat) :
    Counts (ChunkStore.init tuneDirCacheLimit) (fun dirID => ⟨dirID, 0⟩) (fun _ => 0) :=
  ⟨fun _ => rfl, fun _ => rfl⟩

theorem refCount_eq (h : Counts s dir refs) (dirID : String) :
    s.refCount dirID = refs dirID + s.cached dirID := by
  unfold refCount
  rw [h.find_eq]
  by_cases hZero : refs dirID + s.cached dirID = 0
  · rw [if_pos hZero, hZero]
  · rw [if_neg hZero]

theorem of_update {s' : ChunkStore} {dir' : String → ChunkDirPtr} {refs' : String → Nat}
    {count : Nat} (h : Counts s dir refs) (dirID : String)
    (hCount : refs' dirID + s'.cached dirID = count)
    (hHere : s'.dirs.find dirID = if count = 0 then none else some ⟨dir' dirID, count⟩)
    (hID : (dir' dirID).id = dirID)
    (hFind : ∀ k, k ≠ dirID → s'.dirs.find k = s.dirs.find k)
    (hRefs : ∀ k, k ≠ dirID → refs' k = refs k) (hDir : ∀ k, k ≠ dirID → dir' k = dir k)
    (hCached : ∀ k, k ≠ dirID → s'.cached k = s.cached k) : Counts s' dir' refs' where
  find_eq := by
    intro k
    by_cases hk : k = dirID
    · rw [hk, hHere, hCount]
    · rw [hFind k hk, h.find_eq, hRefs k hk, hDir k hk, hCached k hk]
  ids := by
    intro k
    by_cases hk : k = dirID
    · rw [hk, hID]
    · rw [hDir k hk, h.ids]

variable {dirID : String}

theorem find_releaseDirUnlocked (h : Counts s dir refs) (hUsed : 0 < refs dirID + s.cached dirID) :
    (s.releaseDirUnlocked dirID).dirs.find dirID =
      if refs dirID + s.cached dirID - 1 = 0 then none
      else some ⟨dir dirID, refs dirID + s.cached dirID - 1⟩ := by
  have hFind := h.find_eq dirID
  rw [if_neg hUsed.ne'] at hFind
  unfold releaseDirUnlocked
  rw [hFind]
  by_cases hLast : refs dirID + s.cached dirID - 1 = 0
  · rw [if_pos hLast]
    simp [hLast]
  · rw [if_neg hLast]
    simp only
    rw [if_pos ⟨hUsed.ne', hLast⟩]
    exact find_put_self _ _ _

theorem find_releaseDirUnlocked_of_ne (s : ChunkStore) {dirID k : String} (h : k ≠ dirID) :
    (s.releaseDirUnlocked dirID).dirs.find k = s.dirs.find k := by
  unfold releaseDirUnlocked
  split
  · rfl
  · split
    · exact find_put_of_ne _ _ h
    · exact find_remove_of_ne _ h

@[simp] theorem refCache_releaseDirUnlocked (s : ChunkStore) (dirID : String) :
    (s.releaseDirUnlocked dirID).refCache = s.refCache := by
  unfold releaseDirUnlocked
  split
  · rfl
  · split <;> rfl

@[simp] theorem cached_releaseDirUnlocked (s : ChunkStore) (dirID k : String) :
    (s.releaseDirUnlocked dirID).cached k = s.cached k := by
  simp [cached]

theorem releaseDir (h : Counts s dir refs) (hHeld : 0 < refs dirID) :
    Counts (s.releaseDirUnlocked dirID) dir (update refs dirID (refs dirID - 1)) := by
  apply h.of_update dirID
  · rw [update_self, cached_releaseDirUnlocked, ← Nat.sub_add_comm hHeld]
  · exact h.find_releaseDirUnlocked (by omega)
  · exact h.ids dirID
  · exact fun k hk => find_releaseDirUnlocked_of_ne s hk
  · exact fun k hk => update_of_ne hk _ _
  · exact fun _ _ => rfl
  · exact fun k _ => cached_releaseDirUnlocked s dirID k

theorem cacheRemoveUnlocked (h : Counts s dir refs)
    (hCached : dirID ∈ s.refCache) : Counts (s.cacheRemoveUnlocked dirID) dir refs := by
  have hOne : s.cached dirID = 1 := if_pos hCached
  have hGone : (s.cacheRemoveUnlocked dirID).cached dirID = 0 :=
    if_neg (by simp [ChunkStore.cacheRemoveUnlocked])
  apply h.of_update dirID
  · show refs dirID + (s.cacheRemoveUnlocked dirID).cached dirID =
      refs dirID + s.cached dirID - 1
    rw [hGone, hOne, Nat.add_sub_cancel, add_zero]
  · exact h.find_releaseDirUnlocked (by omega)
  · exact h.ids dirID
  · exact fun k hk => find_releaseDirUnlocked_of_ne s hk
  · exact fun _ _ => rfl
  · exact fun _ _ => rfl
  · intro k hk
    simp [cached, ChunkStore.cacheRemoveUnlocked, hk]

theorem foldl_cacheRemoveUnlocked {dirIDs : List String} (hNodup : dirIDs.Nodup)
    (h : Counts s dir refs) (hCached : ∀ dirID ∈ dirIDs, dirID ∈ s.refCache) :
    Counts (dirIDs.foldl ChunkStore.cacheRemoveUnlocked s) dir refs := by
  induction dirIDs generalizing s with
  | nil => exact h
  | cons dirID rest ih =>
    obtain ⟨hFirst, hRest⟩ := nodup_cons.mp hNodup
    apply ih hRest (h.cacheRemoveUnlocked (hCached dirID mem_cons_self))
    intro k hk
    have hNe : k ≠ dirID := fun hSame => hFirst (hSame ▸ hk)
    have hIn := hCached k (mem_cons_of_mem _ hk)
    simp [ChunkStore.cacheRemoveUnlocked, hIn, hNe]

theorem everyNth_sublist (n i : Nat) (dirIDs : List String) :
    (everyNth n i dirIDs).Sublist dirIDs := by
  induction dirIDs generalizing i with
  | nil => exact List.Sublist.refl _
  | cons dirID rest ih =>
    unfold everyNth
    split
    · exact (ih 0).cons_cons dirID
    · exact (ih (i + 1)).cons dirID

theorem cacheSweepUnlocked (h : Counts s dir refs) (isSyncSweep : Bool) (rand : Nat) :
    Counts (s.cacheSweepUnlocked isSyncSweep rand) dir refs := by
  unfold ChunkStore.cacheSweepUnlocked
  simp only
  generalize (if isSyncSweep then s.refCacheSyncLimit else s.refCacheAsyncLimit) = cacheLimit
  generalize (if isSyncSweep then CHUNKSTORE_REFCACHE_REMOVE_SKIP_SYNC
    else CHUNKSTORE_REFCACHE_REMOVE_SKIP_ASYNC) = removeSkipNum
  split
  · exact h
  · have hPicked := fun n i start =>
      (everyNth_sublist n i (s.refCache.elems.drop start)).trans (drop_sublist _ _)
    apply h.foldl_cacheRemoveUnlocked
    · exact (hPicked _ _ _).nodup s.refCache.nodup_elems
    · exact fun dirID hIn => (hPicked _ _ _).subset hIn

theorem cacheAddUnlocked (h : Counts s dir refs) (rand : Nat)
    (hHeld : 0 < refs dirID) : Counts (s.cacheAddUnlocked rand dirID) dir refs := by
  have hSwept := h.cacheSweepUnlocked true rand
  unfold ChunkStore.cacheAddUnlocked
  simp only
  generalize s.cacheSweepUnlocked true rand = swept at hSwept
  split
  · exact hSwept
  rename_i hFresh
  have hNone : swept.cached dirID = 0 := if_neg hFresh
  have hFind := hSwept.find_eq dirID
  rw [hNone, if_neg (by omega)] at hFind
  rw [hFind]
  have hCached : ∀ k, (if k ∈ swept.refCache.insert dirID then 1 else 0) =
      if k = dirID then 1 else swept.cached k := by
    intro k
    by_cases hk : k = dirID <;> simp [cached, OrderedSet.mem_insert_id, hk]
  apply hSwept.of_update dirID
  · exact congrArg (refs dirID + ·) ((hCached dirID).trans (if_pos rfl))
  · rw [if_neg (Nat.succ_ne_zero _)]
    exact find_put_self _ _ _
  · exact hSwept.ids dirID
  · exact fun k hk => find_put_of_ne _ _ hk
  · exact fun _ _ => rfl
  · exact fun _ _ => rfl
  · intro k hk
    exact (hCached k).trans (if_neg hk)

theorem referenceDir (h : Counts s dir refs) (rand : Nat) (dirID : String) :
    ∃ dir', Counts (s.referenceDir rand dirID).2 dir' (update refs dirID (refs dirID + 1)) ∧
      (s.referenceDir rand dirID).1 = dir' dirID ∧ ∀ k, 0 < refs k → dir' k = dir k := by
  have hFind := h.find_eq dirID
  unfold ChunkStore.referenceDir
  by_cases hZero : refs dirID + s.cached dirID = 0
  · rw [if_pos hZero] at hFind
    rw [hFind]
    refine ⟨update dir dirID ⟨dirID, s.nextAddr⟩, ?_, ?_, ?_⟩
    · apply Counts.cacheAddUnlocked _ rand (by simp)
      apply h.of_update dirID
      · show update refs dirID (refs dirID + 1) dirID + s.cached dirID = 1
        rw [update_self]
        omega
      · rw [if_neg one_ne_zero, update_self]
        exact find_put_self _ _ _
      · simp
      · exact fun k hk => find_put_of_ne _ _ hk
      · exact fun k hk => update_of_ne hk _ _
      · exact fun k hk => update_of_ne hk _ _
      · exact fun _ _ => rfl
    · simp
    · intro k hk
      apply update_of_ne
      rintro rfl
      omega
  · rw [if_neg hZero] at hFind
    rw [hFind]
    refine ⟨dir, ?_, rfl, fun _ _ => rfl⟩
    apply h.of_update dirID
    · show update refs dirID (refs dirID + 1) dirID + s.cached dirID =
        refs dirID + s.cached dirID + 1
      rw [update_self, add_right_comm]
    · rw [if_neg (Nat.succ_ne_zero _)]
      exact find_put_self _ _ _
    · exact h.ids dirID
    · exact fun k hk => find_put_of_ne _ _ hk
    · exact fun k hk => update_of_ne hk _ _
    · exact fun _ _ => rfl
    · exact fun _ _ => rfl

end Counts

end ChunkStore

end Fhgfs.Chunks
