import Fhgfs.Lib.Run
import Fhgfs.Storage.MoveRemoteFile

/-!
# The counters of subdirectories and files

The inode of a directory has the numbers of its subdirectories and files. Each operation on the
dentries adjusts them in its own place, after the names on disk were changed.

* `counters_exact_iff`: in which runs the stored counters are the numbers of names after every
  operation.
* `step_exact_iff`: which steps keep them exact.

The operations that hold the caller's copy of a dentry believe its type, and three of them rely on
the caller for the inode to be loaded. `linkFilesInDirUnlocked` takes everything it links for a
file.
-/

namespace Fhgfs.Storage

open Option OrderedMap Run

/-- A dentry file. The number is the one of its inode in the local file system, by which
`rename(2)` knows two hard links of one file. The dentry can be loaded, and so has a type. -/
structure LinkedDentry where
  inode : Nat
  file : DentryFile
  valid : (file.dentryDiskData.entryType.isFile || file.dentryDiskData.entryType.isDir) = true
deriving DecidableEq

def LinkedDentry.isDir (l : LinkedDentry) : Bool := l.file.dentryDiskData.entryType.isDir

def LinkedDentry.ofEntry (newInode : Nat) (entry : DirEntry) (inodeData : List UInt8)
    (h : (entry.entryType.isFile || entry.entryType.isDir) = true) : LinkedDentry where
  inode := newInode
  file := ⟨entry.dentryDiskData, inodeData⟩
  valid := h

structure SubEntryCounters where
  numSubdirs : UInt32
  numFiles : UInt32
deriving DecidableEq

namespace SubEntryCounters

variable (c : SubEntryCounters)

/-- The counter for directories or the one for files. -/
def get (isDir : Bool) : UInt32 := if isDir then c.numSubdirs else c.numFiles

def adjust (isDir : Bool) (f : UInt32 → UInt32) : SubEntryCounters :=
  if isDir then { c with numSubdirs := f c.numSubdirs } else { c with numFiles := f c.numFiles }

theorem get_adjust (d e : Bool) (f : UInt32 → UInt32) :
    (c.adjust d f).get e = if e = d then f (c.get d) else c.get e := by
  cases d <;> cases e <;> rfl

end SubEntryCounters

/-- The outcomes of the system calls of one operation. A call with `none` does what the state of
the directory makes it do, and one with an error fails without an effect. -/
structure CountedOutcomes where
  loadFromFile : Bool
  storeMetaData : Bool
  createID : Option SysErr
  writeID : Bool
  linkName : Option SysErr
  unlinkName : Option SysErr
  unlinkID : Option SysErr
  renameName : Bool
  moveID : Option SysErr
deriving DecidableEq

/-- A directory: its dentry files by name and by ID, the inode object in memory, and the counters
in the inode file on disk. -/
structure CountedDir where
  names : OrderedMap String LinkedDentry
  ids : OrderedMap String LinkedDentry
  isLoaded : Bool
  counters : SubEntryCounters
  stored : SubEntryCounters
deriving DecidableEq

def DirEntry_UNLINK_ID : UInt32 := 1
def DirEntry_UNLINK_FILENAME : UInt32 := 2

def unlinksFilename (unlinkTypeFlags : UInt32) : Bool :=
  unlinkTypeFlags &&& DirEntry_UNLINK_FILENAME != 0

def unlinksID (unlinkTypeFlags : UInt32) : Bool := unlinkTypeFlags &&& DirEntry_UNLINK_ID != 0

/-- `DirEntry::removeDirEntryName`, for the names and for the IDs. -/
def removeDentryFile (err : Option SysErr) (key : String)
    (files : OrderedMap String LinkedDentry) : OrderedMap String LinkedDentry × FhgfsOpsErr :=
  match err, files.find key with
  | some .ENOENT, _ => (files, .PATHNOTEXISTS)
  | some _, _ => (files, .INTERNAL)
  | none, none => (files, .PATHNOTEXISTS)
  | none, some _ => (files.remove key, .SUCCESS)

namespace CountedDir

/-! ## The inode -/

variable (o : CountedOutcomes)

def loadIfNotLoadedUnlocked (dir : CountedDir) : CountedDir × Bool :=
  if dir.isLoaded then (dir, true)
  else if o.loadFromFile then ({ dir with isLoaded := true, counters := dir.stored }, true)
  else (dir, false)

/-- Load the inode on demand, since `body` needs it. -/
def whenLoaded {ρ : Type} (failed : ρ) (body : CountedDir → CountedDir × ρ)
    (dir : CountedDir) : CountedDir × ρ :=
  let loaded := dir.loadIfNotLoadedUnlocked o
  if !loaded.2 then (loaded.1, failed) else body loaded.1

def storeUpdatedMetaDataUnlocked (dir : CountedDir) : CountedDir × Bool :=
  if !dir.isLoaded then (dir, false)
  else if o.storeMetaData then ({ dir with stored := dir.counters }, true)
  else (dir, false)

def adjustAndStore (isDir : Bool) (f : UInt32 → UInt32) (dir : CountedDir) : CountedDir × Bool :=
  { dir with counters := dir.counters.adjust isDir f }.storeUpdatedMetaDataUnlocked o

def decrease (n : UInt32) : UInt32 := if n ≠ 0 then n - 1 else n

def increaseNumSubDirsAndStoreOnDisk : CountedDir → CountedDir × Bool :=
  adjustAndStore o true (· + 1)

def increaseNumFilesAndStoreOnDisk : CountedDir → CountedDir × Bool :=
  adjustAndStore o false (· + 1)

def decreaseNumSubDirsAndStoreOnDisk : CountedDir → CountedDir × Bool :=
  adjustAndStore o true decrease

def decreaseNumFilesAndStoreOnDisk : CountedDir → CountedDir × Bool :=
  adjustAndStore o false decrease

/-! ## The operations -/

variable (entryID : String)

/-- `unlink(2)` of a dentry-by-ID file, whose failure is logged only. -/
def unlinkIDFile (dir : CountedDir) : CountedDir :=
  { dir with ids := (removeDentryFile o.unlinkID entryID dir.ids).1 }

def storeInitialDirEntryID (new : LinkedDentry) (dir : CountedDir) : CountedDir × FhgfsOpsErr :=
  match o.createID, dir.ids.find entryID with
  | some .EMFILE, _ => (dir.unlinkIDFile o entryID, .INTERNAL)
  | some .EEXIST, _ => (dir, .EXISTS)
  | some _, _ => (dir, .INTERNAL)
  | none, some _ => (dir, .EXISTS)
  | none, none =>
    let created := { dir with ids := dir.ids.put entryID new }
    if o.writeID then (created, .SUCCESS) else (created.unlinkIDFile o entryID, .INTERNAL)

def storeInitialDirEntryName (entryID entryName : String)
    (new : LinkedDentry) (dir : CountedDir) : CountedDir × FhgfsOpsErr :=
  match o.linkName, dir.names.find entryName with
  | some .EEXIST, _ => (dir.unlinkIDFile o entryID, .EXISTS)
  | some _, _ => (dir.unlinkIDFile o entryID, .INTERNAL)
  | none, some _ => (dir.unlinkIDFile o entryID, .EXISTS)
  | none, none =>
    let linked := { dir with names := dir.names.put entryName new }
    (if new.isDir then linked.unlinkIDFile o entryID else linked, .SUCCESS)

def makeEntry (entry : DirEntry) (new : LinkedDentry) (dir : CountedDir) :
    CountedDir × FhgfsOpsErr :=
  let created := dir.storeInitialDirEntryID o entry.entryID new
  if created.2 ≠ .SUCCESS then created
  else created.1.storeInitialDirEntryName o entry.entryID entry.name new

/-- `newInode` is the number that the local file system gives the new dentry file. -/
def makeDirEntry (newInode : Nat) (inodeData : List UInt8) (entry : DirEntry)
    (dir : CountedDir) : CountedDir × FhgfsOpsErr :=
  if h : (entry.entryType.isFile || entry.entryType.isDir) = true then
    dir.whenLoaded o .PATHNOTEXISTS fun dir =>
      let made := dir.makeEntry o entry (.ofEntry newInode entry inodeData h)
      if made.2 = .SUCCESS then
        if entry.entryType.isDir then ((made.1.increaseNumSubDirsAndStoreOnDisk o).1, made.2)
        else ((made.1.increaseNumFilesAndStoreOnDisk o).1, made.2)
      else made
  else (dir, .INTERNAL)

variable (fromName toName : String)

def linkEntryInDir (dir : CountedDir) : CountedDir × FhgfsOpsErr :=
  match o.linkName, dir.names.find fromName, dir.names.find toName with
  | some .EEXIST, _, _ => (dir, .EXISTS)
  | some _, _, _ => (dir, .INTERNAL)
  | none, none, _ => (dir, .INTERNAL)
  | none, some _, some _ => (dir, .EXISTS)
  | none, some file, none => ({ dir with names := dir.names.put toName file }, .SUCCESS)

def linkFilesInDirUnlocked (dir : CountedDir) : CountedDir × FhgfsOpsErr :=
  let linked := dir.linkEntryInDir o fromName toName
  -- the inode is not loaded here
  if linked.2 = .SUCCESS then ((linked.1.increaseNumFilesAndStoreOnDisk o).1, linked.2) else linked

/-- `DirEntryStore::linkInodeToDir`, for the inode that is at the path. -/
def linkInodeToDir (inode : LinkedDentry) (fileName : String)
    (dir : CountedDir) : CountedDir × FhgfsOpsErr :=
  match o.linkName, dir.names.find fileName with
  | none, none => ({ dir with names := dir.names.put fileName inode }, .SUCCESS)
  | _, _ => (dir, .INTERNAL)

def linkFileInodeToDir (inode : LinkedDentry) (fileName : String)
    (dir : CountedDir) : CountedDir × FhgfsOpsErr :=
  dir.whenLoaded o .PATHNOTEXISTS fun dir =>
    let linked := dir.linkInodeToDir o inode fileName
    if linked.2 = .SUCCESS then ((linked.1.increaseNumFilesAndStoreOnDisk o).1, linked.2)
    else linked

variable (entryName : String)

def getDentryUnlocked (dir : CountedDir) : Option DirEntry :=
  (dir.names.find entryName).map (fun l => ⟨l.file.dentryDiskData, entryName⟩)

def removeDirEntryName (dir : CountedDir) : CountedDir × FhgfsOpsErr :=
  let removed := removeDentryFile o.unlinkName entryName dir.names
  ({ dir with names := removed.1 }, removed.2)

/-- `DirEntryStore::removeDir`. The last component is the entry that the caller gets. -/
def removeDirEntry (dir : CountedDir) : CountedDir × FhgfsOpsErr × Option DirEntry :=
  match dir.getDentryUnlocked entryName with
  | none => (dir, .PATHNOTEXISTS, none)
  | some entry =>
    if !entry.entryType.isDir then (dir, .PATHNOTEXISTS, none)
    else
      let removed := dir.removeDirEntryName o entryName
      (removed.1, removed.2, some entry)

def removeDir (dir : CountedDir) : CountedDir × FhgfsOpsErr × Option DirEntry :=
  dir.whenLoaded o (.PATHNOTEXISTS, none) fun dir =>
    let removed := dir.removeDirEntry o entryName
    if removed.2.1 = .SUCCESS then
      let decreased := removed.1.decreaseNumSubDirsAndStoreOnDisk o
      (decreased.1, if decreased.2 then .SUCCESS else .INTERNAL, removed.2.2)
    else removed

def removeFileDentry (entryID entryName : String) (unlinkTypeFlags : UInt32)
    (dir : CountedDir) : CountedDir × FhgfsOpsErr :=
  if unlinksFilename unlinkTypeFlags then
    let removed := dir.removeDirEntryName o entryName
    if removed.2 = .SUCCESS ∧ unlinksID unlinkTypeFlags then
      (removed.1.unlinkIDFile o entryID, removed.2)
    else removed
  else if unlinksID unlinkTypeFlags then
    let removed := removeDentryFile o.unlinkID entryID dir.ids
    ({ dir with ids := removed.1 }, removed.2)
  else (dir, .SUCCESS)

/-- The entry is the one of the caller, or is read by its name. -/
def entryToUnlink (inEntry : Option DirEntry) (unlinkTypeFlags : UInt32)
    (dir : CountedDir) : Except FhgfsOpsErr DirEntry :=
  match inEntry with
  | some entry => .ok entry
  | none =>
    if !unlinksFilename unlinkTypeFlags then .error .INTERNAL
    else
      match dir.getDentryUnlocked entryName with
      | none => .error .PATHNOTEXISTS
      | some entry => .ok entry

def unlinkDirEntry (inEntry : Option DirEntry)
    (unlinkTypeFlags : UInt32) (dir : CountedDir) : CountedDir × FhgfsOpsErr :=
  dir.whenLoaded o .PATHNOTEXISTS fun dir =>
    match dir.entryToUnlink entryName inEntry unlinkTypeFlags with
    | .error err => (dir, err)
    | .ok entry =>
      let removed := dir.removeFileDentry o entry.entryID entryName unlinkTypeFlags
      if removed.2 = .SUCCESS ∧ unlinksFilename unlinkTypeFlags then
        if entry.entryType.isDir then ((removed.1.decreaseNumSubDirsAndStoreOnDisk o).1, removed.2)
        else ((removed.1.decreaseNumFilesAndStoreOnDisk o).1, removed.2)
      else removed

/-- Move the dentry-by-ID file to the directory of the inodes. -/
def moveIDFile (unlinkTypeFlags : UInt32) (dir : CountedDir) : CountedDir × FhgfsOpsErr :=
  match o.moveID, dir.ids.find entryID with
  -- after this the inode is linked to the disposal directory
  | none, some _ => ({ dir with ids := dir.ids.remove entryID }, .SUCCESS)
  | err, _ =>
    (dir, if unlinksFilename unlinkTypeFlags then .SUCCESS
      else if err = none ∨ err = some .ENOENT then .PATHNOTEXISTS
      else .INTERNAL)

def removeBusyFile (entryID entryName : String) (unlinkTypeFlags : UInt32)
    (dir : CountedDir) : CountedDir × FhgfsOpsErr :=
  let removed :=
    if unlinksFilename unlinkTypeFlags then dir.removeDirEntryName o entryName else (dir, .SUCCESS)
  if removed.2 = .SUCCESS ∧ unlinksID unlinkTypeFlags then
    removed.1.moveIDFile o entryID unlinkTypeFlags
  else removed

def unlinkBusyFile (fileName : String) (dentry : DirEntry)
    (unlinkTypeFlags : UInt32) (dir : CountedDir) : CountedDir × FhgfsOpsErr :=
  let removed := dir.removeBusyFile o dentry.entryID fileName unlinkTypeFlags
  -- the inode is not loaded here, and the type of the dentry not looked at
  if removed.2 = .SUCCESS ∧ unlinksFilename unlinkTypeFlags then
    let decreased := removed.1.decreaseNumFilesAndStoreOnDisk o
    (decreased.1, if decreased.2 then .SUCCESS else .INTERNAL)
  else removed

/-- `DirEntryStore::renameEntry`. A rename to another hard link of the same file does nothing. -/
def renameEntry (dir : CountedDir) : CountedDir × FhgfsOpsErr :=
  match o.renameName, dir.names.find fromName with
  | true, some file =>
    if (dir.names.find toName).map LinkedDentry.inode = some file.inode then (dir, .SUCCESS)
    else ({ dir with names := (dir.names.remove fromName).put toName file }, .SUCCESS)
  | _, _ => (dir, .INTERNAL)

def renameDirEntry
    (overWriteEntry : Option DirEntry) (dir : CountedDir) : CountedDir × FhgfsOpsErr :=
  let renamed := dir.renameEntry o fromName toName
  if renamed.2 = .SUCCESS then
    match overWriteEntry with
    -- not by one of the functions that keep the counters from going below zero
    | some entry => ((renamed.1.adjustAndStore o entry.entryType.isDir (· - 1)).1, renamed.2)
    | none => ((renamed.1.storeUpdatedMetaDataUnlocked o).1, renamed.2)
  else renamed

end CountedDir

inductive SubEntryCall
  | makeDirEntry (newInode : Nat) (inodeData : List UInt8) (entry : DirEntry)
  | linkFilesInDirUnlocked (fromName toName : String)
  | linkFileInodeToDir (inode : LinkedDentry) (fileName : String)
  | removeDir (entryName : String)
  | unlinkDirEntry (entryName : String) (inEntry : Option DirEntry) (unlinkTypeFlags : UInt32)
  | unlinkBusyFile (fileName : String) (dentry : DirEntry) (unlinkTypeFlags : UInt32)
  | renameDirEntry (fromName toName : String) (overWriteEntry : Option DirEntry)
  /-- The object is freed. The counters of a new one are what was in its memory. -/
  | unload (counters : SubEntryCounters)
  | loadIfNotLoaded
deriving DecidableEq

namespace CountedDir

def step (dir : CountedDir) (i : CountedOutcomes × SubEntryCall) : CountedDir :=
  match i.2 with
  | .makeDirEntry newInode inodeData entry => (dir.makeDirEntry i.1 newInode inodeData entry).1
  | .linkFilesInDirUnlocked fromName toName => (dir.linkFilesInDirUnlocked i.1 fromName toName).1
  | .linkFileInodeToDir inode fileName => (dir.linkFileInodeToDir i.1 inode fileName).1
  | .removeDir entryName => (dir.removeDir i.1 entryName).1
  | .unlinkDirEntry entryName inEntry flags => (dir.unlinkDirEntry i.1 entryName inEntry flags).1
  | .unlinkBusyFile fileName dentry flags => (dir.unlinkBusyFile i.1 fileName dentry flags).1
  | .renameDirEntry fromName toName overWriteEntry =>
    (dir.renameDirEntry i.1 fromName toName overWriteEntry).1
  | .unload counters => { dir with isLoaded := false, counters := counters }
  | .loadIfNotLoaded => (dir.loadIfNotLoadedUnlocked i.1).1

/-! ## Exact counters -/

/-- The number of names of directories, or of files. -/
def numNames (dir : CountedDir) (isDir : Bool) : Int :=
  dir.names.total (fun l => if l.isDir = isDir then 1 else 0)

/-- The counters in the inode file are the numbers of names. -/
structure Exact (dir : CountedDir) : Prop where
  numSubdirs : (dir.stored.numSubdirs.toNat : Int) = dir.numNames true
  numFiles : (dir.stored.numFiles.toNat : Int) = dir.numNames false

/-- A loaded inode has the counters that are stored. -/
def Synced (dir : CountedDir) : Prop := dir.isLoaded = true → dir.counters = dir.stored

/-- A rename takes one off a counter that is zero. The other operations look first. -/
def BelowZero (dir : CountedDir) (i : CountedOutcomes × SubEntryCall) : Prop :=
  match i.2 with
  | .renameDirEntry fromName _ (some entry) =>
    dir.isLoaded = true ∧ i.1.renameName = true ∧ dir.names.find fromName ≠ none ∧
      dir.counters.get entry.entryType.isDir = 0
  | _ => False

def CanLoad (dir : CountedDir) (o : CountedOutcomes) : Prop :=
  dir.isLoaded = true ∨ o.loadFromFile = true

def HasRoom (dir : CountedDir) (isDir : Bool) : Prop := dir.numNames isDir + 1 < 2 ^ 32

def Makes (dir : CountedDir) (o : CountedOutcomes) (entry : DirEntry) : Prop :=
  (entry.entryType.isFile || entry.entryType.isDir) = true ∧ dir.CanLoad o ∧ o.createID = none ∧
    dir.ids.find entry.entryID = none ∧ o.writeID = true ∧ o.linkName = none ∧
    dir.names.find entry.name = none

def replaced (dir : CountedDir) (file : LinkedDentry) (toName : String) : Option LinkedDentry :=
  (dir.names.find toName).filter (fun old => old.inode ≠ file.inode)

/-- The step keeps the counters exact: if it changes a name, then the inode is loaded, the counter
that is adjusted is the one for the kind of the name, and it does not wrap. -/
def KeepsCounters (dir : CountedDir) (i : CountedOutcomes × SubEntryCall) : Prop :=
  match i.2 with
  | .makeDirEntry _ _ entry => dir.Makes i.1 entry → dir.HasRoom entry.entryType.isDir
  | .linkFilesInDirUnlocked fromName toName =>
    i.1.linkName = none → dir.names.find toName = none → ∀ file ∈ dir.names.find fromName,
      dir.isLoaded = true ∧ file.isDir = false ∧ dir.HasRoom false
  | .linkFileInodeToDir inode fileName =>
    dir.CanLoad i.1 → i.1.linkName = none → dir.names.find fileName = none →
      inode.isDir = false ∧ dir.HasRoom false
  | .unlinkDirEntry entryName inEntry flags =>
    dir.CanLoad i.1 → unlinksFilename flags = true → i.1.unlinkName = none →
      ∀ old ∈ dir.names.find entryName, ∀ entry ∈ inEntry, entry.entryType.isDir = old.isDir
  | .unlinkBusyFile fileName _ flags =>
    unlinksFilename flags = true → i.1.unlinkName = none → ∀ old ∈ dir.names.find fileName,
      dir.isLoaded = true ∧ old.isDir = false
  | .renameDirEntry fromName toName overWriteEntry =>
    i.1.renameName = true → ∀ file ∈ dir.names.find fromName,
      match dir.replaced file toName with
      | some old =>
        dir.isLoaded = true ∧ ∃ entry ∈ overWriteEntry, entry.entryType.isDir = old.isDir
      | none => dir.isLoaded = true → overWriteEntry = none
  | .removeDir _ | .unload _ | .loadIfNotLoaded => True

section Steps

variable {o : CountedOutcomes} {dir dir₁ : CountedDir} {k : String} {l : LinkedDentry} {d : Bool}

theorem exact_iff : dir.Exact ↔ ∀ e, ((dir.stored.get e).toNat : Int) = dir.numNames e := by
  constructor
  · rintro ⟨hDirs, hFiles⟩ e
    cases e
    · exact hFiles
    · exact hDirs
  · intro h
    exact ⟨h true, h false⟩

variable {δ : Bool → Int}

theorem exact_adjusted_iff {f : UInt32 → UInt32} (hExact : dir.Exact)
    (hNames : ∀ e, dir₁.numNames e = dir.numNames e + δ e)
    (hStored : dir₁.stored = dir.stored.adjust d f) :
    dir₁.Exact ↔ ((f (dir.stored.get d)).toNat : Int) = dir.numNames d + δ d ∧ δ (!d) = 0 := by
  have hOther := exact_iff.mp hExact (!d)
  rw [exact_iff, hStored, Bool.forall_bool' d]
  apply and_congr
  · rw [SubEntryCounters.get_adjust, if_pos rfl, hNames]
  · rw [SubEntryCounters.get_adjust, if_neg (by cases d <;> decide), hNames, hOther]
    omega

theorem exact_kept_iff (hExact : dir.Exact)
    (hNames : ∀ e, dir₁.numNames e = dir.numNames e + δ e) (hStored : dir₁.stored = dir.stored) :
    dir₁.Exact ↔ ∀ e, δ e = 0 := by
  rw [exact_iff, hStored]
  refine forall_congr' fun e => ?_
  rw [hNames, exact_iff.mp hExact]
  omega

theorem numNames_put (hNames : dir₁.names = dir.names.put k l) (hFree : dir.names.find k = none)
    (e : Bool) : dir₁.numNames e = dir.numNames e + if l.isDir = e then 1 else 0 := by
  unfold numNames
  rw [hNames, total_of_agree _ fun k' h => find_put_of_ne _ l h, hFree]
  simp

theorem numNames_remove (hNames : dir₁.names = dir.names.remove k)
    (hFind : dir.names.find k = some l) (e : Bool) :
    dir₁.numNames e = dir.numNames e + -(if l.isDir = e then 1 else 0) := by
  unfold numNames
  rw [hNames, total_of_agree _ fun k' h => find_remove_of_ne _ h, hFind]
  simp
  omega

theorem numNames_nonneg (dir : CountedDir) (e : Bool) : 0 ≤ dir.numNames e :=
  total_nonneg fun _ _ _ => by split <;> decide

theorem toNat_sub_one {n : UInt32} (h : n ≠ 0) : (n - 1).toNat = n.toNat - 1 := by
  have hPos : n.toNat ≠ 0 := fun hZero => h (UInt32.toNat_inj.mp hZero)
  refine UInt32.toNat_sub_of_le n 1 (UInt32.le_iff_toNat_le.mpr ?_)
  show 1 ≤ n.toNat
  omega

theorem toNat_decrease (n : UInt32) : (decrease n).toNat = n.toNat - 1 := by
  unfold decrease
  split
  · exact toNat_sub_one ‹_›
  · rename_i hZero
    rw [not_not.mp hZero]
    rfl

/-- A step keeps the object and the inode file together, and leaves exact counters if and only if
`C` holds. -/
structure Keeps (dir₁ : CountedDir) (C : Prop) : Prop where
  synced : dir₁.Synced
  exact_iff : dir₁.Exact ↔ C

theorem Keeps.of_iff {C C' : Prop} (h : dir₁.Keeps C) (hIff : C ↔ C') : dir₁.Keeps C' :=
  ⟨h.synced, h.exact_iff.trans hIff⟩

/-- The inode object and its file are the ones of `dir`. -/
structure SameInode (dir dir₁ : CountedDir) : Prop where
  isLoaded : dir₁.isLoaded = dir.isLoaded
  counters : dir₁.counters = dir.counters
  stored : dir₁.stored = dir.stored

theorem SameInode.refl (dir : CountedDir) : SameInode dir dir := ⟨rfl, rfl, rfl⟩

theorem SameInode.synced (h : SameInode dir dir₁) (hSynced : dir.Synced) : dir₁.Synced := by
  intro hLoaded
  rw [h.counters, h.stored]
  exact hSynced (h.isLoaded.symm.trans hLoaded)

theorem keeps_same {C : Prop} (hSynced : dir₁.Synced) (hExact : dir.Exact)
    (hNames : dir₁.names = dir.names) (hStored : dir₁.stored = dir.stored) (hC : C) :
    dir₁.Keeps C := by
  refine ⟨hSynced, iff_of_true ?_ hC⟩
  refine (exact_kept_iff (δ := fun _ => 0) hExact (fun e => ?_) hStored).mpr fun _ => rfl
  unfold numNames
  rw [hNames, add_zero]

section

variable (hStore : o.storeMetaData = true)
include hStore

theorem storeUpdatedMetaDataUnlocked_spec :
    (dir.storeUpdatedMetaDataUnlocked o).1 =
      if dir.isLoaded then { dir with stored := dir.counters } else dir := by
  unfold storeUpdatedMetaDataUnlocked
  cases dir.isLoaded <;> simp [hStore]

theorem adjustAndStore_spec (hSynced : dir.Synced) (d : Bool) (f : UInt32 → UInt32) :
    (dir.adjustAndStore o d f).1.Synced ∧ (dir.adjustAndStore o d f).1.names = dir.names ∧
      (dir.adjustAndStore o d f).1.stored =
        if dir.isLoaded then dir.stored.adjust d f else dir.stored := by
  unfold adjustAndStore
  rw [storeUpdatedMetaDataUnlocked_spec hStore]
  cases hLoaded : dir.isLoaded with
  | false => exact ⟨fun h => absurd h Bool.false_ne_true, rfl, rfl⟩
  | true =>
    refine ⟨fun _ => rfl, rfl, ?_⟩
    show dir.counters.adjust d f = dir.stored.adjust d f
    rw [hSynced hLoaded]

section

variable (hSynced : dir₁.Synced) (hExact : dir.Exact) (hStored : dir₁.stored = dir.stored)
include hSynced hExact hStored

theorem keeps_increase (hNames : dir₁.names = dir.names.put k l) (hFree : dir.names.find k = none) :
    (dir₁.adjustAndStore o d (· + 1)).1.Keeps
      (dir₁.isLoaded = true ∧ l.isDir = d ∧ dir.HasRoom d) := by
  obtain ⟨hSync, hSame, hAdjusted⟩ := adjustAndStore_spec hStore hSynced d (· + 1)
  refine ⟨hSync, ?_⟩
  have hCount := numNames_put (hSame.trans hNames) hFree
  cases hLoaded : dir₁.isLoaded with
  | false =>
    rw [hLoaded, if_neg Bool.false_ne_true, hStored] at hAdjusted
    rw [exact_kept_iff hExact hCount hAdjusted]
    refine iff_of_false (fun h => ?_) (fun h => Bool.false_ne_true h.1)
    simpa using h l.isDir
  | true =>
    rw [hLoaded, if_pos rfl, hStored] at hAdjusted
    rw [exact_adjusted_iff hExact hCount hAdjusted]
    have hGet := CountedDir.exact_iff.mp hExact d
    by_cases hKind : l.isDir = d
    · have hOne : UInt32.toNat 1 = 1 := rfl
      rw [if_pos hKind, if_neg (not_not.mpr hKind ∘ Bool.eq_not.mp), HasRoom, ← hGet,
        UInt32.toNat_add, hOne]
      simp only [hKind, true_and, and_true]
      omega
    · rw [if_pos (Bool.eq_not.mpr hKind)]
      exact iff_of_false (fun h => one_ne_zero h.2) (fun h => hKind h.2.1)

theorem keeps_decrease
    (hNames : dir₁.names = dir.names.remove k) (hFind : dir.names.find k = some l) :
    (dir₁.adjustAndStore o d decrease).1.Keeps (dir₁.isLoaded = true ∧ l.isDir = d) := by
  obtain ⟨hSync, hSame, hAdjusted⟩ := adjustAndStore_spec hStore hSynced d decrease
  refine ⟨hSync, ?_⟩
  have hCount := numNames_remove (hSame.trans hNames) hFind
  cases hLoaded : dir₁.isLoaded with
  | false =>
    rw [hLoaded, if_neg Bool.false_ne_true, hStored] at hAdjusted
    rw [exact_kept_iff hExact hCount hAdjusted]
    refine iff_of_false (fun h => ?_) (fun h => Bool.false_ne_true h.1)
    simpa using h l.isDir
  | true =>
    rw [hLoaded, if_pos rfl, hStored] at hAdjusted
    rw [exact_adjusted_iff hExact hCount hAdjusted]
    have hGet := CountedDir.exact_iff.mp hExact d
    by_cases hKind : l.isDir = d
    · have hRest := numNames_nonneg (dir₁.adjustAndStore o d decrease).1 d
      rw [hCount, if_pos hKind] at hRest
      rw [if_pos hKind, if_neg (not_not.mpr hKind ∘ Bool.eq_not.mp), toNat_decrease]
      exact iff_of_true ⟨by omega, neg_zero⟩ ⟨rfl, hKind⟩
    · rw [if_pos (Bool.eq_not.mpr hKind)]
      exact iff_of_false (fun h => by simpa using h.2) (fun h => hKind h.2)

end

end

theorem loadIfNotLoadedUnlocked_spec (o : CountedOutcomes) (hSynced : dir.Synced) :
    (dir.loadIfNotLoadedUnlocked o).1.Synced ∧
      (dir.loadIfNotLoadedUnlocked o).1.stored = dir.stored ∧
      (dir.loadIfNotLoadedUnlocked o).1.names = dir.names := by
  unfold loadIfNotLoadedUnlocked
  split_ifs
  · exact ⟨hSynced, rfl, rfl⟩
  · exact ⟨fun _ => rfl, rfl, rfl⟩
  · exact ⟨hSynced, rfl, rfl⟩

/-- The inode is loaded on demand: it suffices that the operation on the loaded directory keeps the
counters under `C`, and that `C` holds if the inode cannot be loaded. -/
theorem keeps_whenLoaded {ρ : Type} {failed : ρ} {body : CountedDir → CountedDir × ρ} {C : Prop}
    (hSynced : dir.Synced) (hExact : dir.Exact) (hNot : ¬ dir.CanLoad o → C)
    (hBody : dir.CanLoad o → ∀ loaded : CountedDir, loaded.isLoaded = true → loaded.Synced →
      loaded.stored = dir.stored → loaded.names = dir.names → loaded.ids = dir.ids →
      (body loaded).1.Keeps C) :
    (dir.whenLoaded o failed body).1.Keeps C := by
  unfold whenLoaded loadIfNotLoadedUnlocked
  cases hLoaded : dir.isLoaded with
  | true => exact hBody (Or.inl hLoaded) dir hLoaded hSynced rfl rfl rfl
  | false =>
    cases hLoad : o.loadFromFile with
    | true =>
      exact hBody (Or.inr hLoad) { dir with isLoaded := true, counters := dir.stored } rfl
        (fun _ => rfl) rfl rfl rfl
    | false =>
      refine keeps_same hSynced hExact rfl rfl (hNot ?_)
      rintro (h | h)
      · exact nomatch hLoaded.symm.trans h
      · exact nomatch hLoad.symm.trans h

section

variable (o : CountedOutcomes)

theorem storeInitialDirEntryID_spec (entryID : String) (new : LinkedDentry) (dir : CountedDir) :
    SameInode dir (dir.storeInitialDirEntryID o entryID new).1 ∧
      (dir.storeInitialDirEntryID o entryID new).1.names = dir.names ∧
      ((dir.storeInitialDirEntryID o entryID new).2 = .SUCCESS ↔
        o.createID = none ∧ dir.ids.find entryID = none ∧ o.writeID = true) := by
  unfold storeInitialDirEntryID
  cases o.createID with
  | some err => cases err <;> exact ⟨⟨rfl, rfl, rfl⟩, rfl, by simp⟩
  | none =>
    cases dir.ids.find entryID with
    | some old => exact ⟨⟨rfl, rfl, rfl⟩, rfl, by simp⟩
    | none => cases o.writeID <;> exact ⟨⟨rfl, rfl, rfl⟩, rfl, by simp⟩

theorem storeInitialDirEntryName_spec (entryID entryName : String)
    (new : LinkedDentry) (dir : CountedDir) :
    SameInode dir (dir.storeInitialDirEntryName o entryID entryName new).1 ∧
      (dir.storeInitialDirEntryName o entryID entryName new).1.names =
        (if (dir.storeInitialDirEntryName o entryID entryName new).2 = .SUCCESS then
          dir.names.put entryName new else dir.names) ∧
      ((dir.storeInitialDirEntryName o entryID entryName new).2 = .SUCCESS ↔
        o.linkName = none ∧ dir.names.find entryName = none) := by
  unfold storeInitialDirEntryName
  cases o.linkName with
  | some err => cases err <;> exact ⟨⟨rfl, rfl, rfl⟩, rfl, by simp⟩
  | none =>
    cases dir.names.find entryName with
    | some old => exact ⟨⟨rfl, rfl, rfl⟩, rfl, by simp⟩
    | none => cases new.isDir <;> exact ⟨⟨rfl, rfl, rfl⟩, rfl, by simp⟩

theorem makeEntry_spec (entry : DirEntry) (new : LinkedDentry) (dir : CountedDir) :
    SameInode dir (dir.makeEntry o entry new).1 ∧
      (dir.makeEntry o entry new).1.names =
        (if (dir.makeEntry o entry new).2 = .SUCCESS then dir.names.put entry.name new
          else dir.names) ∧
      ((dir.makeEntry o entry new).2 = .SUCCESS ↔
        o.createID = none ∧ dir.ids.find entry.entryID = none ∧ o.writeID = true ∧
          o.linkName = none ∧ dir.names.find entry.name = none) := by
  obtain ⟨hInode, hNames, hCreated⟩ := storeInitialDirEntryID_spec o entry.entryID new dir
  unfold makeEntry
  by_cases hID : (dir.storeInitialDirEntryID o entry.entryID new).2 = .SUCCESS
  · obtain ⟨hInode', hNames', hLinked⟩ := storeInitialDirEntryName_spec o entry.entryID entry.name
      new (dir.storeInitialDirEntryID o entry.entryID new).1
    rw [hNames] at hNames' hLinked
    rw [if_neg (not_not.mpr hID)]
    refine ⟨⟨hInode'.isLoaded.trans hInode.isLoaded, hInode'.counters.trans hInode.counters,
      hInode'.stored.trans hInode.stored⟩, hNames', hLinked.trans ?_⟩
    obtain ⟨hCreate, hFree, hWrite⟩ := hCreated.mp hID
    simp only [hCreate, hFree, hWrite, true_and]
  · rw [if_pos hID, if_neg hID]
    refine ⟨hInode, hNames, iff_of_false hID fun h => hID (hCreated.mpr ⟨h.1, h.2.1, h.2.2.1⟩)⟩

end

section

variable (hStore : o.storeMetaData = true) (hSynced : dir.Synced) (hExact : dir.Exact)
include hStore hSynced hExact

theorem makeDirEntry_keeps (newInode : Nat) (inodeData : List UInt8) (entry : DirEntry) :
    (dir.makeDirEntry o newInode inodeData entry).1.Keeps
      (dir.Makes o entry → dir.HasRoom entry.entryType.isDir) := by
  unfold makeDirEntry
  split
  · rename_i hValid
    refine keeps_whenLoaded hSynced hExact (fun hNot hMakes => absurd hMakes.2.1 hNot) ?_
    intro hCan loaded hLoaded hSync hStored hNames hIDs
    obtain ⟨hInode, hPut, hMade⟩ := makeEntry_spec o entry
      (.ofEntry newInode entry inodeData hValid) loaded
    rw [hIDs, hNames] at hMade
    rw [hNames] at hPut
    have hSync' := hInode.synced hSync
    have hStored' := hInode.stored.trans hStored
    dsimp only
    split
    · rename_i hSuccess
      rw [if_pos hSuccess] at hPut
      have hMakes : dir.Makes o entry := ⟨hValid, hCan, hMade.mp hSuccess⟩
      have hIncrease : ∀ d, entry.entryType.isDir = d →
          ((loaded.makeEntry o entry (.ofEntry newInode entry inodeData hValid)).1.adjustAndStore o
            d (· + 1)).1.Keeps (dir.Makes o entry → dir.HasRoom entry.entryType.isDir) := by
        rintro d rfl
        refine (keeps_increase hStore hSync' hExact hStored' hPut hMakes.2.2.2.2.2.2).of_iff ?_
        exact ⟨fun h _ => h.2.2, fun h => ⟨hInode.isLoaded.trans hLoaded, rfl, h hMakes⟩⟩
      split
      · exact hIncrease true ‹_›
      · exact hIncrease false (eq_false_of_ne_true ‹_›)
    · rename_i hFailed
      rw [if_neg hFailed] at hPut
      refine keeps_same hSync' hExact hPut hStored' fun hMakes => ?_
      exact absurd (hMade.mpr hMakes.2.2) hFailed
  · rename_i hInvalid
    exact keeps_same hSynced hExact rfl rfl fun hMakes => absurd hMakes.1 hInvalid

theorem linkFilesInDirUnlocked_keeps (fromName toName : String) :
    (dir.linkFilesInDirUnlocked o fromName toName).1.Keeps
      (o.linkName = none → dir.names.find toName = none → ∀ file ∈ dir.names.find fromName,
        dir.isLoaded = true ∧ file.isDir = false ∧ dir.HasRoom false) := by
  unfold linkFilesInDirUnlocked linkEntryInDir
  cases hLink : o.linkName with
  | some err =>
    cases err <;> exact keeps_same hSynced hExact rfl rfl fun h => absurd h (some_ne_none _)
  | none =>
    cases hFrom : dir.names.find fromName with
    | none => exact keeps_same hSynced hExact rfl rfl fun _ _ _ => nofun
    | some file =>
      cases hTo : dir.names.find toName with
      | some old =>
        exact keeps_same hSynced hExact rfl rfl fun _ h => absurd h (some_ne_none _)
      | none =>
        rw [if_pos rfl]
        refine Keeps.of_iff (keeps_increase hStore hSynced hExact rfl rfl hTo) ?_
        simp

theorem linkFileInodeToDir_keeps (inode : LinkedDentry) (fileName : String) :
    (dir.linkFileInodeToDir o inode fileName).1.Keeps
      (dir.CanLoad o → o.linkName = none → dir.names.find fileName = none →
        inode.isDir = false ∧ dir.HasRoom false) := by
  refine keeps_whenLoaded hSynced hExact (fun hNot hCan => absurd hCan hNot) ?_
  intro hCan loaded hLoaded hSync hStored hNames _
  unfold linkInodeToDir
  rw [hNames]
  cases hLink : o.linkName with
  | some err => exact keeps_same hSync hExact hNames hStored fun _ h => nomatch h
  | none =>
    cases hFree : dir.names.find fileName with
    | some old => exact keeps_same hSync hExact hNames hStored fun _ _ h => nomatch h
    | none =>
      rw [if_pos rfl]
      refine Keeps.of_iff (keeps_increase hStore hSync hExact hStored rfl hFree) ?_
      simp [hCan, hLoaded]

end

theorem removeDentryFile_spec (err : Option SysErr) (key : String)
    (files : OrderedMap String LinkedDentry) :
    ((removeDentryFile err key files).2 = .SUCCESS ↔ err = none ∧ files.find key ≠ none) ∧
      (removeDentryFile err key files).1 =
        if (removeDentryFile err key files).2 = .SUCCESS then files.remove key else files := by
  unfold removeDentryFile
  cases err with
  | some err => cases err <;> simp
  | none => cases files.find key <;> simp

theorem removeDirEntry_spec (o : CountedOutcomes) (entryName : String) (dir : CountedDir) :
    SameInode dir (dir.removeDirEntry o entryName).1 ∧
      ((dir.removeDirEntry o entryName).2.1 = .SUCCESS →
        (dir.removeDirEntry o entryName).1.names = dir.names.remove entryName ∧
          ∃ l, dir.names.find entryName = some l ∧ l.isDir = true) ∧
      ((dir.removeDirEntry o entryName).2.1 ≠ .SUCCESS →
        (dir.removeDirEntry o entryName).1.names = dir.names) := by
  unfold removeDirEntry getDentryUnlocked
  cases hFind : dir.names.find entryName with
  | none => exact ⟨.refl dir, nofun, fun _ => rfl⟩
  | some l =>
    have hRemoved := (removeDentryFile_spec o.unlinkName entryName dir.names).2
    have hType : (⟨l.file.dentryDiskData, entryName⟩ : DirEntry).entryType.isDir = l.isDir := rfl
    dsimp only [map_some]
    rw [hType]
    cases hKind : l.isDir with
    | false => exact ⟨.refl dir, nofun, fun _ => rfl⟩
    | true =>
      exact ⟨⟨rfl, rfl, rfl⟩, fun hSuccess => ⟨hRemoved.trans (if_pos hSuccess), l, rfl, hKind⟩,
        fun hFailed => hRemoved.trans (if_neg hFailed)⟩

theorem removeDir_keeps (hStore : o.storeMetaData = true) (hSynced : dir.Synced)
    (hExact : dir.Exact) (entryName : String) : (dir.removeDir o entryName).1.Keeps True := by
  refine keeps_whenLoaded hSynced hExact (fun _ => trivial) ?_
  intro hCan loaded hLoaded hSync hStored hNames _
  obtain ⟨hInode, hRemoved, hFailed⟩ := removeDirEntry_spec o entryName loaded
  have hSync' := hInode.synced hSync
  have hStored' := hInode.stored.trans hStored
  rw [hNames] at hRemoved hFailed
  dsimp only
  split
  · rename_i hSuccess
    obtain ⟨hRemove, l, hFind, hKind⟩ := hRemoved hSuccess
    refine Keeps.of_iff (keeps_decrease hStore hSync' hExact hStored' hRemove hFind) ?_
    exact iff_of_true ⟨hInode.isLoaded.trans hLoaded, hKind⟩ trivial
  · exact keeps_same hSync' hExact (hFailed ‹_›) hStored' trivial

theorem removeFileDentry_spec (o : CountedOutcomes) (entryID entryName : String) (flags : UInt32)
    (dir : CountedDir) :
    SameInode dir (dir.removeFileDentry o entryID entryName flags).1 ∧
      (dir.removeFileDentry o entryID entryName flags).1.names =
        (if (dir.removeFileDentry o entryID entryName flags).2 = .SUCCESS ∧
          unlinksFilename flags = true then dir.names.remove entryName else dir.names) ∧
      (unlinksFilename flags = true →
        ((dir.removeFileDentry o entryID entryName flags).2 = .SUCCESS ↔
          o.unlinkName = none ∧ dir.names.find entryName ≠ none)) := by
  obtain ⟨hIff, hRemoved⟩ := removeDentryFile_spec o.unlinkName entryName dir.names
  unfold removeFileDentry
  cases hName : unlinksFilename flags with
  | true =>
    rw [if_pos rfl]
    dsimp only
    split
    · refine ⟨⟨rfl, rfl, rfl⟩, ?_, fun _ => hIff⟩
      simp only [and_true]
      exact hRemoved
    · refine ⟨⟨rfl, rfl, rfl⟩, ?_, fun _ => hIff⟩
      simp only [and_true]
      exact hRemoved
  | false =>
    rw [if_neg Bool.false_ne_true]
    split <;> exact ⟨⟨rfl, rfl, rfl⟩, by simp, nofun⟩

theorem unlinkDirEntry_keeps (hStore : o.storeMetaData = true) (hSynced : dir.Synced)
    (hExact : dir.Exact) (entryName : String) (inEntry : Option DirEntry) (flags : UInt32) :
    (dir.unlinkDirEntry o entryName inEntry flags).1.Keeps
      (dir.CanLoad o → unlinksFilename flags = true → o.unlinkName = none →
        ∀ old ∈ dir.names.find entryName, ∀ entry ∈ inEntry,
          entry.entryType.isDir = old.isDir) := by
  refine keeps_whenLoaded hSynced hExact (fun hNot hCan => absurd hCan hNot) ?_
  intro hCan loaded hLoaded hSync hStored hNames _
  cases hEntry : loaded.entryToUnlink entryName inEntry flags with
  | error err =>
    refine keeps_same hSync hExact hNames hStored ?_
    rintro - - - old - entry rfl
    cases hEntry
  | ok entry =>
    obtain ⟨hInode, hRemove, hIff⟩ := removeFileDentry_spec o entry.entryID entryName flags loaded
    have hSync' := hInode.synced hSync
    have hStored' := hInode.stored.trans hStored
    rw [hNames] at hRemove hIff
    dsimp only
    split
    · rename_i hSuccess
      rw [if_pos hSuccess] at hRemove
      obtain ⟨hUnlink, hIn⟩ := (hIff hSuccess.2).mp hSuccess.1
      obtain ⟨l, hFind⟩ := ne_none_iff_exists'.mp hIn
      -- the entry that is read by its name has the type of the name
      have hEntryKind : inEntry = none → entry.entryType.isDir = l.isDir := by
        rintro rfl
        unfold entryToUnlink getDentryUnlocked at hEntry
        rw [hSuccess.2, hNames, hFind] at hEntry
        rw [← Except.ok.inj hEntry]
        rfl
      have hGiven : ∀ e ∈ inEntry, e = entry := by
        rintro e rfl
        exact Except.ok.inj hEntry
      have hDecrease : ∀ d, entry.entryType.isDir = d →
          ((loaded.removeFileDentry o entry.entryID entryName flags).1.adjustAndStore o d
            decrease).1.Keeps (dir.CanLoad o → unlinksFilename flags = true →
              o.unlinkName = none → ∀ old ∈ dir.names.find entryName, ∀ entry ∈ inEntry,
                entry.entryType.isDir = old.isDir) := by
        rintro d rfl
        refine (keeps_decrease hStore hSync' hExact hStored' hRemove hFind).of_iff ?_
        rw [hFind, hInode.isLoaded]
        constructor
        · rintro ⟨-, hKind⟩ - - - old hOld e he
          rw [hGiven e he, ← some.inj hOld, hKind]
        · intro h
          refine ⟨hLoaded, ?_⟩
          cases inEntry with
          | none => exact (hEntryKind rfl).symm
          | some e => rw [← hGiven e rfl, h hCan hSuccess.2 hUnlink l rfl e rfl]
      split
      · exact hDecrease true ‹_›
      · exact hDecrease false (eq_false_of_ne_true ‹_›)
    · rename_i hFailed
      rw [if_neg hFailed] at hRemove
      refine keeps_same hSync' hExact hRemove hStored' ?_
      intro _ hName hUnlink old hOld
      refine absurd ⟨(hIff hName).mpr ⟨hUnlink, ?_⟩, hName⟩ hFailed
      rw [mem_def.mp hOld]
      exact some_ne_none old

theorem moveIDFile_spec (o : CountedOutcomes) (entryID : String) (flags : UInt32)
    (dir : CountedDir) :
    SameInode dir (dir.moveIDFile o entryID flags).1 ∧
      (dir.moveIDFile o entryID flags).1.names = dir.names ∧
      (unlinksFilename flags = true → (dir.moveIDFile o entryID flags).2 = .SUCCESS) := by
  unfold moveIDFile
  split
  · exact ⟨⟨rfl, rfl, rfl⟩, rfl, fun _ => rfl⟩
  · exact ⟨.refl dir, rfl, fun h => if_pos h⟩

theorem removeBusyFile_spec (o : CountedOutcomes) (entryID entryName : String) (flags : UInt32)
    (dir : CountedDir) :
    SameInode dir (dir.removeBusyFile o entryID entryName flags).1 ∧
      (dir.removeBusyFile o entryID entryName flags).1.names =
        (if (dir.removeBusyFile o entryID entryName flags).2 = .SUCCESS ∧
          unlinksFilename flags = true then dir.names.remove entryName else dir.names) ∧
      (unlinksFilename flags = true →
        ((dir.removeBusyFile o entryID entryName flags).2 = .SUCCESS ↔
          o.unlinkName = none ∧ dir.names.find entryName ≠ none)) := by
  obtain ⟨hIff, hRemoved⟩ := removeDentryFile_spec o.unlinkName entryName dir.names
  unfold removeBusyFile
  cases hName : unlinksFilename flags with
  | true =>
    obtain ⟨hInode, hNames, hMoved⟩ :=
      moveIDFile_spec o entryID flags (dir.removeDirEntryName o entryName).1
    simp only [if_true, and_true]
    split
    · rename_i hSuccess
      rw [if_pos (hMoved hName)]
      refine ⟨⟨hInode.isLoaded, hInode.counters, hInode.stored⟩, ?_, fun _ => ?_⟩
      · exact hNames.trans (hRemoved.trans (if_pos hSuccess.1))
      · exact iff_of_true (hMoved hName) (hIff.mp hSuccess.1)
    · exact ⟨⟨rfl, rfl, rfl⟩, hRemoved, fun _ => hIff⟩
  | false =>
    obtain ⟨hInode, hNames, -⟩ := moveIDFile_spec o entryID flags dir
    simp only [Bool.false_eq_true, if_false, and_false, true_and]
    split
    · exact ⟨hInode, hNames, nofun⟩
    · exact ⟨.refl dir, rfl, nofun⟩

theorem unlinkBusyFile_keeps (hStore : o.storeMetaData = true) (hSynced : dir.Synced)
    (hExact : dir.Exact) (fileName : String) (dentry : DirEntry) (flags : UInt32) :
    (dir.unlinkBusyFile o fileName dentry flags).1.Keeps
      (unlinksFilename flags = true → o.unlinkName = none → ∀ old ∈ dir.names.find fileName,
        dir.isLoaded = true ∧ old.isDir = false) := by
  obtain ⟨hInode, hRemove, hIff⟩ := removeBusyFile_spec o dentry.entryID fileName flags dir
  have hSync' := hInode.synced hSynced
  unfold unlinkBusyFile
  dsimp only
  split
  · rename_i hSuccess
    rw [if_pos hSuccess] at hRemove
    obtain ⟨hUnlink, hIn⟩ := (hIff hSuccess.2).mp hSuccess.1
    obtain ⟨l, hFind⟩ := ne_none_iff_exists'.mp hIn
    refine Keeps.of_iff (keeps_decrease hStore hSync' hExact hInode.stored hRemove hFind) ?_
    rw [hFind, hInode.isLoaded]
    constructor
    · rintro h - - old hOld
      rwa [← some.inj hOld]
    · intro h
      exact h hSuccess.2 hUnlink l rfl
  · rename_i hFailed
    rw [if_neg hFailed] at hRemove
    refine keeps_same hSync' hExact hRemove hInode.stored ?_
    intro hName hUnlink old hOld
    refine absurd ⟨(hIff hName).mpr ⟨hUnlink, ?_⟩, hName⟩ hFailed
    rw [mem_def.mp hOld]
    exact some_ne_none old

theorem renameEntry_spec (o : CountedOutcomes) (fromName toName : String) (dir : CountedDir) :
    SameInode dir (dir.renameEntry o fromName toName).1 ∧
      ((dir.renameEntry o fromName toName).2 = .SUCCESS → ∃ file,
        o.renameName = true ∧ dir.names.find fromName = some file ∧
          ∀ e, (dir.renameEntry o fromName toName).1.numNames e = dir.numNames e +
            -(dir.replaced file toName).elim 0 (fun l => if l.isDir = e then 1 else 0)) ∧
      ((dir.renameEntry o fromName toName).2 ≠ .SUCCESS →
        (dir.renameEntry o fromName toName).1.names = dir.names ∧
          (o.renameName = true → dir.names.find fromName = none)) := by
  unfold renameEntry
  cases hRename : o.renameName with
  | false => exact ⟨.refl dir, nofun, fun _ => ⟨rfl, nofun⟩⟩
  | true =>
    cases hFrom : dir.names.find fromName with
    | none => exact ⟨.refl dir, nofun, fun _ => ⟨rfl, fun _ => rfl⟩⟩
    | some file =>
      dsimp only
      split
      · rename_i hSame
        refine ⟨.refl dir, fun _ => ⟨file, rfl, rfl, fun e => ?_⟩, (absurd rfl ·)⟩
        obtain ⟨old, hTo, hInode⟩ := map_eq_some_iff.mp hSame
        have hNone : dir.replaced file toName = none := by
          rw [replaced, hTo]
          simp [hInode]
        rw [hNone, elim_none, neg_zero, add_zero]
      · rename_i hOther
        refine ⟨⟨rfl, rfl, rfl⟩, fun _ => ⟨file, rfl, rfl, fun e => ?_⟩, (absurd rfl ·)⟩
        have hNe : toName ≠ fromName := by
          rintro rfl
          exact hOther (by rw [hFrom, map_some])
        have hReplaced : dir.replaced file toName = dir.names.find toName := by
          unfold replaced
          cases hTo : dir.names.find toName with
          | none => rfl
          | some old =>
            have hInode : old.inode ≠ file.inode := fun h =>
              hOther (by rw [hTo, map_some, h])
            exact filter_some_pos (decide_eq_true hInode)
        unfold numNames
        rw [hReplaced, total_of_agree _ fun k' h => find_put_of_ne _ file h,
          total_of_agree _ fun k' h => find_remove_of_ne _ h, hFrom,
          find_remove_of_ne _ hNe]
        simp
        omega

section

variable (hStore : o.storeMetaData = true) (hSynced : dir₁.Synced) (hExact : dir.Exact)
  (hStored : dir₁.stored = dir.stored)
include hStore hSynced hExact hStored

theorem storeUpdatedMetaDataUnlocked_keeps (hCount : ∀ e, dir₁.numNames e = dir.numNames e + δ e) :
    (dir₁.storeUpdatedMetaDataUnlocked o).1.Keeps (∀ e, δ e = 0) := by
  rw [storeUpdatedMetaDataUnlocked_spec hStore]
  split
  · rename_i hLoaded
    exact ⟨fun _ => rfl, exact_kept_iff hExact hCount ((hSynced hLoaded).trans hStored)⟩
  · exact ⟨hSynced, exact_kept_iff hExact hCount hStored⟩

/-- The number of an overwritten entry is taken off the counter for its kind, without a look at
the counter. -/
theorem overwritten_keeps {replaced : Option LinkedDentry} (hCount : ∀ e, dir₁.numNames e =
      dir.numNames e + -replaced.elim 0 (fun l => if l.isDir = e then 1 else 0)) :
    (dir₁.adjustAndStore o d (· - 1)).1.Keeps (replaced.elim (dir₁.isLoaded = false)
        (fun old => dir₁.isLoaded = true ∧ d = old.isDir)) := by
  obtain ⟨hSync, hSame, hAdjusted⟩ := adjustAndStore_spec hStore hSynced d (· - 1)
  have hCount' : ∀ e, (dir₁.adjustAndStore o d (· - 1)).1.numNames e =
      dir.numNames e + -replaced.elim 0 (fun l => if l.isDir = e then 1 else 0) := by
    intro e
    rw [← hCount e, numNames, hSame, numNames]
  refine ⟨hSync, ?_⟩
  cases hLoaded : dir₁.isLoaded with
  | false =>
    rw [hLoaded, if_neg Bool.false_ne_true, hStored] at hAdjusted
    rw [exact_kept_iff hExact hCount' hAdjusted]
    cases replaced with
    | none => exact iff_of_true (fun _ => rfl) rfl
    | some old =>
      refine iff_of_false (fun h => ?_) (fun h => Bool.false_ne_true h.1)
      simpa using h old.isDir
  | true =>
    rw [hLoaded, if_pos rfl, hStored] at hAdjusted
    rw [exact_adjusted_iff hExact hCount' hAdjusted]
    have hGet := CountedDir.exact_iff.mp hExact d
    have hRest := numNames_nonneg dir₁ d
    rw [hCount] at hRest
    cases replaced with
    | none =>
      refine iff_of_false (fun h => ?_) nofun
      have hSub : (dir.stored.get d - 1).toNat = (dir.stored.get d).toNat := by
        have := h.1
        rw [elim_none, neg_zero, add_zero, ← hGet] at this
        exact Int.ofNat_inj.mp this
      by_cases hZero : dir.stored.get d = 0
      · rw [hZero] at hSub
        exact absurd hSub (by decide)
      · have hPos : (dir.stored.get d).toNat ≠ 0 := fun h => hZero (UInt32.toNat_inj.mp h)
        rw [toNat_sub_one hZero] at hSub
        omega
    | some old =>
      rw [elim_some] at hRest
      by_cases hKind : old.isDir = d
      · rw [if_pos hKind, ← hGet] at hRest
        have hNe : dir.stored.get d ≠ 0 := by
          intro hZero
          rw [hZero] at hRest
          exact absurd hRest (by decide)
        rw [elim_some, elim_some, if_pos hKind,
          if_neg (not_not.mpr hKind ∘ Bool.eq_not.mp), toNat_sub_one hNe]
        exact iff_of_true ⟨by omega, neg_zero⟩ ⟨rfl, hKind.symm⟩
      · rw [elim_some, elim_some, if_pos (Bool.eq_not.mpr hKind)]
        exact iff_of_false (fun h => by simpa using h.2) (fun h => hKind h.2.symm)

end

theorem renameDirEntry_keeps (hStore : o.storeMetaData = true) (hSynced : dir.Synced)
    (hExact : dir.Exact) (fromName toName : String) (overWriteEntry : Option DirEntry) :
    (dir.renameDirEntry o fromName toName overWriteEntry).1.Keeps
      (o.renameName = true → ∀ file ∈ dir.names.find fromName,
        match dir.replaced file toName with
        | some old =>
          dir.isLoaded = true ∧ ∃ entry ∈ overWriteEntry, entry.entryType.isDir = old.isDir
        | none => dir.isLoaded = true → overWriteEntry = none) := by
  obtain ⟨hInode, hRenamed, hFailed⟩ := renameEntry_spec o fromName toName dir
  have hSync' := hInode.synced hSynced
  unfold renameDirEntry
  dsimp only
  split
  · rename_i hSuccess
    obtain ⟨file, hRename, hFrom, hCount⟩ := hRenamed hSuccess
    rw [hFrom]
    cases overWriteEntry with
    | none =>
      refine Keeps.of_iff
        (storeUpdatedMetaDataUnlocked_keeps hStore hSync' hExact hInode.stored hCount) ?_
      cases hReplaced : dir.replaced file toName with
      | none => simp [hReplaced]
      | some old =>
        refine iff_of_false (fun h => ?_) (fun h => ?_)
        · simpa using h old.isDir
        · have hAll := h hRename file rfl
          rw [hReplaced] at hAll
          exact absurd hAll.2 (by simp)
    | some entry =>
      refine (overwritten_keeps hStore hSync' hExact hInode.stored hCount).of_iff ?_
      rw [hInode.isLoaded]
      cases hReplaced : dir.replaced file toName <;> simp [hReplaced, hRename]
  · rename_i hNot
    obtain ⟨hNames, hFrom⟩ := hFailed hNot
    refine keeps_same hSync' hExact hNames hInode.stored fun hRename file hFile => ?_
    rw [hFrom hRename] at hFile
    cases hFile

theorem one_le_numNames (hFind : dir.names.find k = some l) : 1 ≤ dir.numNames l.isDir := by
  have hRest := numNames_nonneg { dir with names := dir.names.remove k } l.isDir
  rw [numNames_remove rfl hFind, if_pos rfl] at hRest
  omega

/-! ## Runs -/

section

variable {i : CountedOutcomes × SubEntryCall}

theorem step_exact_iff (hStore : i.1.storeMetaData = true)
    (hSynced : dir.Synced) (hExact : dir.Exact) : (dir.step i).Keeps (dir.KeepsCounters i) := by
  obtain ⟨o, call⟩ := i
  cases call with
  | makeDirEntry newInode inodeData entry =>
    exact makeDirEntry_keeps hStore hSynced hExact newInode inodeData entry
  | linkFilesInDirUnlocked fromName toName =>
    exact linkFilesInDirUnlocked_keeps hStore hSynced hExact fromName toName
  | linkFileInodeToDir inode fileName =>
    exact linkFileInodeToDir_keeps hStore hSynced hExact inode fileName
  | removeDir entryName => exact removeDir_keeps hStore hSynced hExact entryName
  | unlinkDirEntry entryName inEntry flags =>
    exact unlinkDirEntry_keeps hStore hSynced hExact entryName inEntry flags
  | unlinkBusyFile fileName dentry flags =>
    exact unlinkBusyFile_keeps hStore hSynced hExact fileName dentry flags
  | renameDirEntry fromName toName overWriteEntry =>
    exact renameDirEntry_keeps hStore hSynced hExact fromName toName overWriteEntry
  | unload counters => exact keeps_same nofun hExact rfl rfl trivial
  | loadIfNotLoaded =>
    obtain ⟨hSync, hStored, hNames⟩ := loadIfNotLoadedUnlocked_spec o hSynced
    exact keeps_same hSync hExact hNames hStored trivial

theorem not_belowZero (hSynced : dir.Synced)
    (hExact : dir.Exact) (hKeeps : dir.KeepsCounters i) : ¬ dir.BelowZero i := by
  obtain ⟨o, call⟩ := i
  cases call with
  | renameDirEntry fromName toName overWriteEntry =>
    cases overWriteEntry with
    | none => exact id
    | some entry =>
      rintro ⟨hLoaded, hRename, hFrom, hZero⟩
      obtain ⟨file, hFile⟩ := ne_none_iff_exists'.mp hFrom
      have hReplaced := hKeeps hRename file hFile
      cases hOld : dir.replaced file toName with
      | none =>
        rw [hOld] at hReplaced
        exact absurd (hReplaced hLoaded) (some_ne_none entry)
      | some old =>
        rw [hOld] at hReplaced
        obtain ⟨-, e, hEntry, hKind⟩ := hReplaced
        rw [← some.inj hEntry] at hKind
        have hCount := one_le_numNames (filter_eq_some_iff.mp hOld).1
        rw [hSynced hLoaded, hKind] at hZero
        rw [← CountedDir.exact_iff.mp hExact, hZero] at hCount
        exact absurd hCount (by decide)
  | _ => exact id

end

end Steps

/-- The counters are exact after every operation of a run, and none goes below zero, if and only
if every operation keeps them. -/
theorem counters_exact_iff (dir : CountedDir) (is : List (CountedOutcomes × SubEntryCall))
    (hStore : ∀ i ∈ is, i.1.storeMetaData = true) (hSynced : dir.Synced) (hExact : dir.Exact) :
    Run.Throughout step Exact dir is ∧ Run.EveryStep step (fun dir i => ¬ dir.BelowZero i) dir is ↔
      Run.EveryStep step KeepsCounters dir is := by
  have hStored : EveryStep step (fun _ i => i.1.storeMetaData = true) dir is :=
    everyStep_of_forall step fun _ => hStore
  have hIff : Throughout step Exact dir is ↔ EveryStep step KeepsCounters dir is := by
    refine throughout_iff_everyStep step (J := fun dir => dir.Synced ∧ dir.Exact)
      (fun _ h => h.2) ?_ ?_ ⟨hSynced, hExact⟩ hStored
    · rintro dir i ⟨hSynced, hExact⟩ hStore hKeeps
      obtain ⟨hSync, hStep⟩ := step_exact_iff hStore hSynced hExact
      exact ⟨hSync, hStep.mpr hKeeps⟩
    · rintro dir i ⟨hSynced, hExact⟩ hStore hBreaks hStep
      exact hBreaks ((step_exact_iff hStore hSynced hExact).exact_iff.mp hStep)
  refine ⟨fun h => hIff.mp h.1, fun h => ⟨hIff.mpr h, ?_⟩⟩
  refine everyStep_imp step (I := fun dir => dir.Synced ∧ dir.Exact)
    (A := fun dir i => i.1.storeMetaData = true ∧ dir.KeepsCounters i) ?_ ?_ ⟨hSynced, hExact⟩
    (everyStep_and step hStored h)
  · rintro dir i ⟨hSynced, hExact⟩ ⟨hStore, hKeeps⟩
    obtain ⟨hSync, hStep⟩ := step_exact_iff hStore hSynced hExact
    exact ⟨hSync, hStep.mpr hKeeps⟩
  · rintro dir i ⟨hSynced, hExact⟩ ⟨-, hKeeps⟩
    exact not_belowZero hSynced hExact hKeeps

def fine : CountedOutcomes := ⟨true, true, none, true, none, none, none, true, none⟩

/-- A new directory, whose inode was just stored. -/
def new : CountedDir := ⟨.empty, .empty, true, ⟨0, 0⟩, ⟨0, 0⟩⟩

theorem exact_new : new.Exact := ⟨by decide, by decide⟩

def fileX : DirEntry := ⟨⟨"6-5F00-1", .REGULARFILE, 1, 3⟩, "x"⟩
def fileY : DirEntry := ⟨⟨"8-5F00-1", .REGULARFILE, 1, 3⟩, "y"⟩
def dirX : DirEntry := ⟨⟨"7-5F00-1", .DIRECTORY, 1, 0⟩, "x"⟩

/-- A file is replaced by another one, after the inode was freed and loaded again. -/
def replacingRun : List (CountedOutcomes × SubEntryCall) :=
  [(fine, .makeDirEntry 10 [] fileX), (fine, .makeDirEntry 11 [] fileY), (fine, .unload ⟨7, 7⟩),
    (fine, .loadIfNotLoaded), (fine, .renameDirEntry "x" "y" (some fileY))]

theorem counters_exact_iff_replacing : Run.Throughout step Exact new replacingRun ∧
    Run.EveryStep step (fun dir i => ¬ dir.BelowZero i) new replacingRun := by
  refine (counters_exact_iff new replacingRun (by decide) (fun _ => rfl) exact_new).mpr ?_
  have hRoom : new.HasRoom false ∧ (new.step (fine, .makeDirEntry 10 [] fileX)).HasRoom false := by
    unfold HasRoom
    decide
  refine ⟨fun _ => hRoom.1, fun _ => hRoom.2, trivial, trivial, fun _ file hFile => ?_, trivial⟩
  cases hFile
  have hOverwritten : true = true ∧ ∃ entry ∈ some fileY, entry.entryType.isDir = false :=
    ⟨rfl, fileY, rfl, rfl⟩
  exact hOverwritten

/-- A thread has read the dentry of a file `x`. Before it unlinks `x`, others have unlinked it and
made a directory `x`. Its name is then counted as a file. -/
theorem not_counters_exact :
    ¬ ∀ (dir : CountedDir) (is : List (CountedOutcomes × SubEntryCall)),
      (∀ i ∈ is, i.1.storeMetaData = true) → dir.Synced → dir.Exact →
      Run.Throughout step Exact dir is := by
  intro h
  have hRun := h new [(fine, .makeDirEntry 10 [] fileX), (fine, .unlinkDirEntry "x" none 3),
    (fine, .makeDirEntry 11 [] dirX), (fine, .unlinkDirEntry "x" (some fileX) 3)]
    (by decide) (fun _ => rfl) exact_new
  have hLast := (throughout_iff step).mp hRun 4
  exact absurd hLast.numSubdirs (by decide)

end CountedDir
end Fhgfs.Storage
