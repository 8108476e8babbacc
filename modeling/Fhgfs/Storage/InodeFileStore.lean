import Fhgfs.Common.StorageDefinitions
import Fhgfs.Common.ObjectReferencer
import Fhgfs.Lib.OrderedMap

/-!
# File inode stores

`InodeFileStore`, the referenced file inodes in memory, by entry ID. There is a global store, and
one for each directory; only the latter load inodes from disk. An inode is unloaded with its
last reference.

A `FileInode` here is the pointer to an inode object, `address`, with the fields of the object
that do not change while it is loaded. The number of references of an entry ID is
`InodeFileStore.refCount`.
-/

namespace Fhgfs.Storage

open Option ObjectReferencer OrderedMap

/-- An inode object in memory. `exclusiveTID` is the thread that has locked it exclusively, for
a move to another server, or 0. -/
structure FileInode where
  entryID : String
  exclusiveTID : Int
  address : Nat
deriving DecidableEq

abbrev FileInodeReferencer := ObjectReferencer FileInode

/-- Inodes are stored under their own ID. -/
structure InodeFileStore where
  inodes : OrderedMap String FileInodeReferencer
  keyed : ∀ id inodeRefer, inodes.find id = some inodeRefer →
    inodeRefer.referencedObject.entryID = id
deriving DecidableEq

def FileInode.unlockedFor (posixTID : Int) (inode : FileInode) : Bool :=
  inode.exclusiveTID == 0 || inode.exclusiveTID == posixTID

namespace InodeFileStore

def empty : InodeFileStore := ⟨OrderedSet.empty, by simp⟩

def put (store : InodeFileStore) (inodeRefer : FileInodeReferencer) : InodeFileStore where
  inodes := store.inodes.put inodeRefer.referencedObject.entryID inodeRefer
  keyed := by
    intro id r hFind
    rw [OrderedMap.find_put] at hFind
    split at hFind
    · rename_i hSame
      rw [hSame, ← Option.some.inj hFind]
    · exact store.keyed id r hFind

def remove (store : InodeFileStore) (fileID : String) : InodeFileStore where
  inodes := store.inodes.remove fileID
  keyed := by
    intro id r hFind
    rw [OrderedMap.find_remove] at hFind
    split at hFind
    · cases hFind
    · exact store.keyed id r hFind

def find (store : InodeFileStore) (fileID : String) : Option FileInodeReferencer :=
  store.inodes.find fileID

/-! ## The operations of a store -/

def isInStore (store : InodeFileStore) (fileID : String) : Bool := (store.find fileID).isSome

/-- Take the referencer out of the store, to move it to another one. -/
def getReferencerAndDeleteFromMap (fileID : String) (store : InodeFileStore) :
    InodeFileStore × Option FileInodeReferencer :=
  match store.find fileID with
  | none => (store, none)
  | some fileRefer => (store.remove fileID, some fileRefer)

def insertReferencer (fileRefer : FileInodeReferencer) (store : InodeFileStore) :
    InodeFileStore × Bool :=
  if store.isInStore fileRefer.referencedObject.entryID then (store, false)
  else (store.put fileRefer, true)

/-- `createFromEntryInfo` gives the address of the inode that was read from disk, if there is
one. -/
def loadAndInsertFileInodeUnlocked (createFromEntryInfo : Option Nat) (entryInfo : EntryInfo)
    (store : InodeFileStore) : InodeFileStore :=
  match createFromEntryInfo with
  | none => store
  | some address => store.put (ObjectReferencer.new ⟨entryInfo.entryID, 0, address⟩)

/-- Inodes that another thread has locked are not referenced. -/
def referenceFileInodeMapIterUnlocked (posixTID : Int) (inodeRefer : FileInodeReferencer)
    (store : InodeFileStore) : InodeFileStore × Option FileInode :=
  let inodeNonRef := inodeRefer.referencedObject
  if inodeNonRef.unlockedFor posixTID then
    (store.put inodeRefer.reference, some inodeNonRef)
  else (store, none)

def referenceFileInode (posixTID : Int) (createFromEntryInfo : Option Nat)
    (entryInfo : EntryInfo) (loadFromDisk : Bool) (store : InodeFileStore) :
    InodeFileStore × Option FileInode :=
  let loaded :=
    if !store.isInStore entryInfo.entryID && loadFromDisk then
      loadAndInsertFileInodeUnlocked createFromEntryInfo entryInfo store
    else store
  match loaded.find entryInfo.entryID with
  | none => (loaded, none)
  | some inodeRefer => referenceFileInodeMapIterUnlocked posixTID inodeRefer loaded

/-- Drop a reference; the last one unloads the inode. -/
def decreaseInodeRefCountUnlocked (inodeRefer : FileInodeReferencer) (store : InodeFileStore) :
    InodeFileStore :=
  let released := inodeRefer.release
  if released.refCount = 0 then store.remove inodeRefer.referencedObject.entryID
  else store.put released

/-- The second component tells whether the inode was in the store. -/
def releaseFileInode (inode : FileInode) (store : InodeFileStore) : InodeFileStore × Bool :=
  match store.find inode.entryID with
  | none => (store, false)
  | some inodeRefer => (decreaseInodeRefCountUnlocked inodeRefer store, true)

/-- Open inodes are always also implicitly referenced. -/
def openFile (posixTID : Int) (createFromEntryInfo : Option Nat) (entryInfo : EntryInfo)
    (loadFromDisk : Bool) (store : InodeFileStore) :
    InodeFileStore × Except FhgfsOpsErr FileInode :=
  let referenced := store.referenceFileInode posixTID createFromEntryInfo entryInfo loadFromDisk
  (referenced.1, match referenced.2 with
    | none => .error .PATHNOTEXISTS
    | some inode => .ok inode)

/-- The second component is the number of references left, if the inode was in the store. -/
def closeFile (inode : FileInode) (store : InodeFileStore) : InodeFileStore × Option Int :=
  match store.find inode.entryID with
  | none => (store, none)
  | some inodeRefer =>
    (decreaseInodeRefCountUnlocked inodeRefer store, some inodeRefer.release.refCount)

def getSize (store : InodeFileStore) : Nat := store.inodes.elems.length

/-! ## Lookups afterwards -/

/-- The number of references to an entry ID, 0 if it is not loaded. -/
def refCount (store : InodeFileStore) (fileID : String) : Int :=
  match store.find fileID with
  | none => 0
  | some inodeRefer => inodeRefer.refCount

section Lookups

variable {store : InodeFileStore} {k : String}

theorem find_put (inodeRefer : FileInodeReferencer) :
    (store.put inodeRefer).find k =
      if k = inodeRefer.referencedObject.entryID then some inodeRefer else store.find k :=
  OrderedMap.find_put _ _ _ _

theorem find_remove (fileID : String) :
    (store.remove fileID).find k = if k = fileID then none else store.find k :=
  OrderedMap.find_remove _ _ _

@[simp] theorem find_empty : empty.find k = none := rfl

theorem entryID_of_find {inodeRefer : FileInodeReferencer} (h : store.find k = some inodeRefer) :
    inodeRefer.referencedObject.entryID = k :=
  store.keyed k inodeRefer h

def decreased (inodeRefer : FileInodeReferencer) : Option FileInodeReferencer :=
  if inodeRefer.refCount = 1 then none else some inodeRefer.release

variable (inode : FileInode)

theorem find_releaseFileInode :
    (store.releaseFileInode inode).1.find k =
      if k = inode.entryID then (store.find inode.entryID).bind decreased else store.find k := by
  unfold releaseFileInode
  split
  · rename_i hFind
    split
    · rename_i hSame
      rw [hSame, hFind]
      rfl
    · rfl
  rename_i r hFind
  have hKey := entryID_of_find hFind
  have hLast : r.release.refCount = 0 ↔ r.refCount = 1 := by
    rw [refCount_release]
    omega
  rw [hFind, bind_some]
  unfold decreaseInodeRefCountUnlocked decreased
  simp only [hLast]
  split
  · rw [find_remove, hKey]
  · rw [find_put, referencedObject_release, hKey]

theorem releaseFileInode_found :
    (store.releaseFileInode inode).2 = store.isInStore inode.entryID := by
  unfold releaseFileInode isInStore
  split <;> simp [*]

/-- The referencer that a reference call finds in the store, or loads from disk. -/
def lookupOrLoad (createFromEntryInfo : Option Nat) (loadFromDisk : Bool) (store : InodeFileStore)
    (fileID : String) : Option FileInodeReferencer :=
  (store.find fileID).or <|
    if loadFromDisk then
      createFromEntryInfo.map (fun address => ObjectReferencer.new ⟨fileID, 0, address⟩)
    else none

variable {createFromEntryInfo : Option Nat} {r : FileInodeReferencer} {loadFromDisk : Bool}

theorem entryID_of_lookupOrLoad
    (h : lookupOrLoad createFromEntryInfo loadFromDisk store k = some r) :
    r.referencedObject.entryID = k := by
  rcases or_eq_some_iff.mp h with hFind | ⟨-, hDisk⟩
  · exact entryID_of_find hFind
  · split at hDisk
    · obtain ⟨address, -, rfl⟩ := map_eq_some_iff.mp hDisk
      rfl
    · cases hDisk

theorem lookupOrLoad_false (createFromEntryInfo : Option Nat) :
    lookupOrLoad createFromEntryInfo false store k = store.find k := by
  simp [lookupOrLoad]

theorem isInStore_of_find (h : store.find k = some r) : store.isInStore k = true := by
  rw [isInStore, h]
  rfl

theorem isInStore_eq_false (h : store.find k = none) : store.isInStore k = false := by
  rw [isInStore, h]
  rfl

/-- The ways in which a reference call ends: it references the inode, or it leaves all lookups
as they were, since there is no inode or another thread has locked it. -/
inductive Referenced (posixTID : Int) (createFromEntryInfo : Option Nat) (loadFromDisk : Bool)
    (store : InodeFileStore) (fileID : String) : InodeFileStore × Option FileInode → Prop
  | success {r : FileInodeReferencer} {store' : InodeFileStore}
      (hLookup : lookupOrLoad createFromEntryInfo loadFromDisk store fileID = some r)
      (hUnlocked : r.referencedObject.unlockedFor posixTID = true)
      (hFind : ∀ k, store'.find k = if k = fileID then some r.reference else store.find k) :
      Referenced posixTID createFromEntryInfo loadFromDisk store fileID
        (store', some r.referencedObject)
  | failure
      (hLocked : ∀ r, lookupOrLoad createFromEntryInfo loadFromDisk store fileID = some r →
        r.referencedObject.unlockedFor posixTID = false) :
      Referenced posixTID createFromEntryInfo loadFromDisk store fileID (store, none)

theorem referenced_of_find {posixTID : Int} {fileID : String} {loaded : InodeFileStore}
    (hLookup : lookupOrLoad createFromEntryInfo loadFromDisk store fileID = some r)
    (hID : r.referencedObject.entryID = fileID)
    (hLoaded : ∀ k, k ≠ fileID → loaded.find k = store.find k)
    (hSame : r.referencedObject.unlockedFor posixTID = false → loaded = store) :
    Referenced posixTID createFromEntryInfo loadFromDisk store fileID
      (referenceFileInodeMapIterUnlocked posixTID r loaded) := by
  unfold referenceFileInodeMapIterUnlocked
  simp only
  split
  · rename_i hUnlocked
    refine .success hLookup hUnlocked fun k => ?_
    rw [find_put, referencedObject_reference, hID]
    split
    · rfl
    · exact hLoaded k ‹_›
  rename_i hLocked
  have hLocked := eq_false_of_ne_true hLocked
  rw [hSame hLocked]
  refine .failure fun r' hr' => ?_
  rwa [← some.inj (hLookup.symm.trans hr')]

theorem referenceFileInode_referenced (store : InodeFileStore) (posixTID : Int)
    (createFromEntryInfo : Option Nat) (entryInfo : EntryInfo) (loadFromDisk : Bool) :
    Referenced posixTID createFromEntryInfo loadFromDisk store entryInfo.entryID
      (store.referenceFileInode posixTID createFromEntryInfo entryInfo loadFromDisk) := by
  unfold referenceFileInode isInStore loadAndInsertFileInodeUnlocked
  cases hFind : store.find entryInfo.entryID with
  | some r =>
    simp only [isSome_some, Bool.not_true, Bool.false_and, Bool.false_eq_true, if_false, hFind]
    refine referenced_of_find ?_ (entryID_of_find hFind) (fun _ _ => rfl) (fun _ => rfl)
    unfold lookupOrLoad
    rw [hFind, some_or]
  | none =>
    simp only [isSome_none, Bool.not_false, Bool.true_and]
    by_cases hLoad : loadFromDisk = true
    · cases hDisk : createFromEntryInfo with
      | none =>
        simp only [hLoad, if_true, hFind]
        exact .failure (by simp [lookupOrLoad, hFind])
      | some address =>
        simp only [hLoad, if_true, find_put, new]
        refine referenced_of_find ?_ rfl ?_ ?_
        · simp [lookupOrLoad, hFind, new]
        · intro k hk
          rw [find_put, if_neg hk]
        · intro hLocked
          simp [FileInode.unlockedFor] at hLocked
    · simp only [hLoad, Bool.false_eq_true, if_false, hFind]
      exact .failure (by simp [lookupOrLoad, hFind])

/-! ## Reference counts afterwards -/

variable {store' : InodeFileStore}

theorem refCount_eq_of_find (h : store'.find k = store.find k) :
    store'.refCount k = store.refCount k := by
  unfold refCount
  rw [h]

theorem refCount_lookupOrLoad (h : lookupOrLoad createFromEntryInfo loadFromDisk store k = some r) :
    store.refCount k = r.refCount := by
  unfold lookupOrLoad at h
  unfold refCount
  cases hFind : store.find k with
  | some r' =>
    rw [hFind, some_or] at h
    rw [← some.inj h]
  | none =>
    rw [hFind, none_or] at h
    split at h
    · obtain ⟨address, -, rfl⟩ := map_eq_some_iff.mp h
      rfl
    · cases h

theorem refCount_reference {fileID : String}
    (hLookup : lookupOrLoad createFromEntryInfo loadFromDisk store fileID = some r)
    (hFind : ∀ k, store'.find k = if k = fileID then some r.reference else store.find k)
    (k : String) : store'.refCount k = store.refCount k + if k = fileID then 1 else 0 := by
  by_cases hk : k = fileID
  · subst hk
    rw [refCount_lookupOrLoad hLookup, if_pos rfl, refCount, hFind, if_pos rfl]
    rfl
  · rw [if_neg hk, add_zero]
    refine refCount_eq_of_find ?_
    rw [hFind, if_neg hk]

theorem refCount_releaseFileInode {inode : FileInode} (h : store.isInStore inode.entryID = true)
    (k : String) :
    (store.releaseFileInode inode).1.refCount k =
      store.refCount k - if k = inode.entryID then 1 else 0 := by
  by_cases hk : k = inode.entryID
  · subst hk
    obtain ⟨r, hFind⟩ := isSome_iff_exists.mp h
    rw [if_pos rfl, refCount, refCount, find_releaseFileInode, if_pos rfl, hFind, bind_some]
    by_cases hLast : r.refCount = 1
    · simp [decreased, hLast]
    · simp [decreased, hLast]
  · rw [if_neg hk, Int.sub_zero]
    refine refCount_eq_of_find ?_
    rw [find_releaseFileInode, if_neg hk]

theorem releaseFileInode_of_not_inStore {inode : FileInode}
    (h : store.isInStore inode.entryID = false) :
    store.releaseFileInode inode = (store, false) := by
  unfold releaseFileInode
  rw [isSome_eq_false_iff.mp h |> isNone_iff_eq_none.mp]

theorem closeFile_released (store : InodeFileStore) :
    (store.closeFile inode).1 = (store.releaseFileInode inode).1 ∧
      (store.closeFile inode).2.isSome = store.isInStore inode.entryID := by
  unfold closeFile releaseFileInode isInStore
  split <;> simp [*]

/-! ## All references of a store -/

def totalRefs (store : InodeFileStore) : Int := store.inodes.total (fun r => r.refCount)

@[simp] theorem totalRefs_empty : empty.totalRefs = 0 := rfl

@[simp] theorem getSize_empty : empty.getSize = 0 := rfl

theorem ext_find (h : ∀ k, store.find k = store'.find k) : store = store' := by
  obtain ⟨inodes, keyed⟩ := store
  obtain ⟨inodes', keyed'⟩ := store'
  obtain rfl : inodes = inodes' := ext_find h
  rfl

theorem totalRefs_of_agree (fileID : String) (h : ∀ k, k ≠ fileID → store'.find k = store.find k) :
    store'.totalRefs = store.totalRefs - store.refCount fileID + store'.refCount fileID := by
  have hElim : ∀ store : InodeFileStore,
      store.refCount fileID = (store.inodes.find fileID).elim 0 (fun r => r.refCount) := by
    intro store
    unfold refCount find
    cases store.inodes.find fileID <;> rfl
  rw [hElim, hElim]
  exact total_of_agree _ h

def Positive (store : InodeFileStore) : Prop :=
  ∀ k r, store.find k = some r → 0 < r.refCount

theorem Positive.totalRefs_nonneg (h : store.Positive) : 0 ≤ store.totalRefs :=
  total_nonneg fun k r hFind => (h k r hFind).le

theorem Positive.eq_empty (h : store.Positive) (hNone : store.totalRefs = 0) : store = empty := by
  refine ext_find fun k => ?_
  rw [find_empty]
  cases hFind : store.find k with
  | none => rfl
  | some r =>
    have hOther : (store.remove k).Positive := by
      intro k' r' hFind'
      rw [find_remove] at hFind'
      split at hFind'
      · cases hFind'
      · exact h k' r' hFind'
    have hRemoved : (store.remove k).totalRefs =
        store.totalRefs - store.refCount k + (store.remove k).refCount k := by
      refine totalRefs_of_agree k fun k' hk => ?_
      rw [find_remove, if_neg hk]
    have hZero : (store.remove k).refCount k = 0 := by
      rw [refCount, find_remove, if_pos rfl]
    have hHere : store.refCount k = r.refCount := by rw [refCount, hFind]
    have hPositive := h k r hFind
    have hNonneg := hOther.totalRefs_nonneg
    omega

end Lookups

end InodeFileStore

end Fhgfs.Storage
