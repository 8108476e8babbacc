import Fhgfs.Chunks.ChunkStore
import Fhgfs.Lib.RWLock
import Fhgfs.Lib.Run

/-!
# Threads that make and remove chunk directories

`openChunkFile` with `mkdirChunkDirPath`, and `rmdirChunkDirPath`, as threads on one server. A
step is one system call, or one access to the store or to the lock of a directory. A thread that
waits for a lock does nothing. The chunk files that go away, and the asynchronous sweep of the
cache, are steps of their own.

A chunk is opened with `O_CREAT` by all callers. `STORAGETK_CHUNKDIR_VEC_UIDPOS` is 0, so the
locks begin with the first element of the path, and the first loop of `mkdirChunkDirPath` is
empty.
-/

namespace Fhgfs.Chunks

/-! ## The file system -/

/-- The result of a system call. -/
inductive SysRes
  | ok
  | EEXIST
  | ENOENT
  | ENOTEMPTY
deriving DecidableEq

/-- A directory below the one that is open as `targetFD`. -/
structure DirPath where
  targetFD : Nat
  elems : List String
deriving DecidableEq

def DirPath.take (path : DirPath) (n : Nat) : DirPath := ⟨path.targetFD, path.elems.take n⟩

def DirPath.dirID (path : DirPath) : String :=
  getUniqueDirID (path.elems.getLastD "") (path.elems.length - 1)

/-- The chunk directories and files. -/
structure ChunkTree where
  dirs : Finset DirPath
  files : Finset (DirPath × String)
deriving DecidableEq

namespace ChunkTree

variable (tree : ChunkTree)

variable (path : DirPath)

/-- The lookup of a path goes through all its elements. -/
def isDir : Prop :=
  ∀ n < path.elems.length, path.take (n + 1) ∈ tree.dirs

instance (tree : ChunkTree) (path : DirPath) : Decidable (tree.isDir path) :=
  inferInstanceAs (Decidable (∀ n < path.elems.length, path.take (n + 1) ∈ tree.dirs))

/-- No directory and no file is in the directory. -/
def isEmpty : Prop :=
  (∀ dir ∈ tree.dirs, dir.take (dir.elems.length - 1) = path → dir.elems = []) ∧
    ∀ file ∈ tree.files, file.1 ≠ path

instance (tree : ChunkTree) (path : DirPath) : Decidable (tree.isEmpty path) :=
  inferInstanceAs (Decidable ((∀ dir ∈ tree.dirs,
    dir.take (dir.elems.length - 1) = path → dir.elems = []) ∧ ∀ file ∈ tree.files, file.1 ≠ path))

def mkdirat : SysRes × ChunkTree :=
  if tree.isDir path then (.EEXIST, tree)
  else if tree.isDir (path.take (path.elems.length - 1)) then
    (.ok, { tree with dirs := insert path tree.dirs })
  else (.ENOENT, tree)

def rmdirat : SysRes × ChunkTree :=
  if ¬ tree.isDir path then (.ENOENT, tree)
  else if ¬ tree.isEmpty path then (.ENOTEMPTY, tree)
  else (.ok, { tree with dirs := tree.dirs.erase path })

def openat (fileName : String) : SysRes × ChunkTree :=
  if tree.isDir path then (.ok, { tree with files := insert (path, fileName) tree.files })
  else (.ENOENT, tree)

def unlinkat (fileName : String) : ChunkTree :=
  { tree with files := tree.files.erase (path, fileName) }

end ChunkTree

/-! ## Threads -/

/-- The arguments of `openChunkFile`. -/
structure OpenCall where
  chunkDirPath : DirPath
  fileName : String
  hasOrigFeature : Bool
deriving DecidableEq

/-- `depth` is the number of the path element that is made, `chunkDir` its directory object. -/
inductive OpenStage
  | openat
  | mkdirV2 (depth : Nat)
  | referenceDir (depth : Nat) (parentChunkDir : Option ChunkDirPtr)
  | readLock (depth : Nat) (parentChunkDir : Option ChunkDirPtr) (chunkDir : ChunkDirPtr)
  | mkdirat (depth : Nat) (parentChunkDir : Option ChunkDirPtr) (chunkDir : ChunkDirPtr)
  | unlockParent (depth : Nat) (parentChunkDir chunkDir : ChunkDirPtr) (mkdirRes : SysRes)
  | releaseParent (depth : Nat) (parentChunkDir chunkDir : ChunkDirPtr) (mkdirRes : SysRes)
  | unlockFailed (chunkDir : ChunkDirPtr)
  | releaseFailed (chunkDir : ChunkDirPtr)
  | openAgain (outChunkDir : Option ChunkDirPtr)
  | unlock (outChunkDir : ChunkDirPtr) (openRes : SysRes)
  | releaseDir (outChunkDir : ChunkDirPtr) (openRes : SysRes)
  | done (res : SysRes)
deriving DecidableEq

/-- `numPathElems` is what `popLastElem` has left of the path. -/
inductive RmdirStage
  | referenceDir (numPathElems : Nat)
  | writeLock (numPathElems : Nat) (chunkDir : ChunkDirPtr)
  | rmdirat (numPathElems : Nat) (chunkDir : ChunkDirPtr)
  | unlock (numPathElems : Nat) (chunkDir : ChunkDirPtr) (rmdirRes : SysRes)
  | releaseDir (numPathElems : Nat) (chunkDir : ChunkDirPtr) (rmdirRes : SysRes)
  | done
deriving DecidableEq

inductive Thread
  | openChunkFile (call : OpenCall) (stage : OpenStage)
  | rmdirChunkDirPath (chunkDirPath : DirPath) (stage : RmdirStage)
deriving DecidableEq

/-- The next access of a thread, and how the thread goes on after it. -/
inductive Next
  | referenceDir (dirID : String) (thread : ChunkDirPtr → Thread)
  | readLock (chunkDir : ChunkDirPtr) (thread : Thread)
  | writeLock (chunkDir : ChunkDirPtr) (thread : Thread)
  | unlock (chunkDir : ChunkDirPtr) (thread : Thread)
  | releaseDir (dirID : String) (thread : Thread)
  | mkdirat (path : DirPath) (thread : SysRes → Thread)
  | rmdirat (path : DirPath) (thread : SysRes → Thread)
  | openat (path : DirPath) (fileName : String) (thread : SysRes → Thread)
  | finished

namespace OpenCall

variable (call : OpenCall)

/-- The start of `mkdirChunkDirPath`. The old layout has no locks. Without any path elements
only the new layout fails, as it has no directory to hand back. -/
def mkdirChunkDirPath : OpenStage :=
  if call.chunkDirPath.elems = [] then
    if call.hasOrigFeature then .done .ENOENT else .openAgain none
  else if call.hasOrigFeature then .referenceDir 0 none
  else .mkdirV2 0

/-- The loop of `mkdirV2ChunkDirPath` after a `mkdirat`. -/
def afterMkdirV2 (depth : Nat) (mkdirRes : SysRes) : OpenStage :=
  if mkdirRes ≠ .ok ∧ mkdirRes ≠ .EEXIST then .done mkdirRes
  else if depth + 1 < call.chunkDirPath.elems.length then .mkdirV2 (depth + 1)
  else .openAgain none

/-- The loop of `mkdirChunkDirPath` after the lock of the parent is given up. -/
def afterMkdir (depth : Nat) (chunkDir : ChunkDirPtr) (mkdirRes : SysRes) : OpenStage :=
  if mkdirRes ≠ .ok ∧ mkdirRes ≠ .EEXIST then .unlockFailed chunkDir
  else if depth + 1 < call.chunkDirPath.elems.length then .referenceDir (depth + 1) (some chunkDir)
  else .openAgain (some chunkDir)

def next : OpenStage → Next
  | .openat => .openat call.chunkDirPath call.fileName fun openRes =>
      .openChunkFile call (if openRes = .ok then .done .ok else call.mkdirChunkDirPath)
  | .mkdirV2 depth => .mkdirat (call.chunkDirPath.take (depth + 1)) fun mkdirRes =>
      .openChunkFile call (call.afterMkdirV2 depth mkdirRes)
  | .referenceDir depth parentChunkDir =>
      .referenceDir (call.chunkDirPath.take (depth + 1)).dirID fun chunkDir =>
        .openChunkFile call (.readLock depth parentChunkDir chunkDir)
  | .readLock depth parentChunkDir chunkDir =>
      .readLock chunkDir (.openChunkFile call (.mkdirat depth parentChunkDir chunkDir))
  | .mkdirat depth parentChunkDir chunkDir =>
      .mkdirat (call.chunkDirPath.take (depth + 1)) fun mkdirRes =>
        .openChunkFile call (match parentChunkDir with
          | some parent => .unlockParent depth parent chunkDir mkdirRes
          | none => call.afterMkdir depth chunkDir mkdirRes)
  | .unlockParent depth parent chunkDir mkdirRes =>
      .unlock parent (.openChunkFile call (.releaseParent depth parent chunkDir mkdirRes))
  | .releaseParent depth parent chunkDir mkdirRes =>
      .releaseDir parent.id (.openChunkFile call (call.afterMkdir depth chunkDir mkdirRes))
  | .unlockFailed chunkDir => .unlock chunkDir (.openChunkFile call (.releaseFailed chunkDir))
  | .releaseFailed chunkDir => .releaseDir chunkDir.id (.openChunkFile call (.done .ENOENT))
  | .openAgain outChunkDir => .openat call.chunkDirPath call.fileName fun openRes =>
      .openChunkFile call (match outChunkDir with
        | some chunkDir => .unlock chunkDir openRes
        | none => .done openRes)
  | .unlock chunkDir openRes =>
    .unlock chunkDir (.openChunkFile call (.releaseDir chunkDir openRes))
  | .releaseDir chunkDir openRes => .releaseDir chunkDir.id (.openChunkFile call (.done openRes))
  | .done _ => .finished

end OpenCall

namespace DirPath

/-- The condition of the loop of `rmdirChunkDirPath`. -/
def rmdirFrom (numPathElems : Nat) : RmdirStage :=
  if numPathElems = 0 then .done else .referenceDir numPathElems

def next (chunkDirPath : DirPath) : RmdirStage → Next
  | .referenceDir num => .referenceDir (chunkDirPath.take num).dirID fun chunkDir =>
      .rmdirChunkDirPath chunkDirPath (.writeLock num chunkDir)
  | .writeLock num chunkDir =>
      .writeLock chunkDir (.rmdirChunkDirPath chunkDirPath (.rmdirat num chunkDir))
  | .rmdirat num chunkDir => .rmdirat (chunkDirPath.take num) fun rmdirRes =>
      .rmdirChunkDirPath chunkDirPath (.unlock num chunkDir rmdirRes)
  | .unlock num chunkDir rmdirRes =>
      .unlock chunkDir (.rmdirChunkDirPath chunkDirPath (.releaseDir num chunkDir rmdirRes))
  | .releaseDir num chunkDir rmdirRes => .releaseDir chunkDir.id (.rmdirChunkDirPath chunkDirPath
      (if rmdirRes = .ok then rmdirFrom (num - 1) else .done))
  | .done => .finished

end DirPath

namespace Thread

def next : Thread → Next
  | .openChunkFile call stage => call.next stage
  | .rmdirChunkDirPath chunkDirPath stage => chunkDirPath.next stage

def startOpen (call : OpenCall) : Thread := .openChunkFile call .openat

def startRmdir (chunkDirPath : DirPath) : Thread :=
  .rmdirChunkDirPath chunkDirPath (DirPath.rmdirFrom chunkDirPath.elems.length)

/-- A thread that has not done anything yet. -/
inductive Started : Thread → Prop
  | openChunkFile (call : OpenCall) : Started (startOpen call)
  | rmdirChunkDirPath (chunkDirPath : DirPath) : Started (startRmdir chunkDirPath)

def Finished : Thread → Prop
  | .openChunkFile _ (.done _) => True
  | .rmdirChunkDirPath _ .done => True
  | _ => False

/-- A `mkdirat` of the thread, or its second `openat`, has failed. -/
def Failed : Thread → Prop
  | .openChunkFile _ stage =>
    match stage with
    | .unlockParent _ _ _ mkdirRes => mkdirRes ≠ .ok ∧ mkdirRes ≠ .EEXIST
    | .releaseParent _ _ _ mkdirRes => mkdirRes ≠ .ok ∧ mkdirRes ≠ .EEXIST
    | .unlockFailed _ => True
    | .releaseFailed _ => True
    | .unlock _ openRes => openRes ≠ .ok
    | .releaseDir _ openRes => openRes ≠ .ok
    | .done res => res ≠ .ok
    | _ => False
  | _ => False

/-- The directory that `mkdirChunkDirPath` handed back, until it is unlocked. -/
def handedBack : Thread → Option DirPath
  | .openChunkFile call (.openAgain (some _)) => some call.chunkDirPath
  | .openChunkFile call (.unlock _ _) => some call.chunkDirPath
  | _ => none

/-- The references that the thread has to give back. -/
def refs : Thread → List ChunkDirPtr
  | .openChunkFile _ stage =>
    match stage with
    | .referenceDir _ parentChunkDir => parentChunkDir.toList
    | .readLock _ parentChunkDir chunkDir => chunkDir :: parentChunkDir.toList
    | .mkdirat _ parentChunkDir chunkDir => chunkDir :: parentChunkDir.toList
    | .unlockParent _ parent chunkDir _ => [chunkDir, parent]
    | .releaseParent _ parent chunkDir _ => [chunkDir, parent]
    | .unlockFailed chunkDir => [chunkDir]
    | .releaseFailed chunkDir => [chunkDir]
    | .openAgain outChunkDir => outChunkDir.toList
    | .unlock chunkDir _ => [chunkDir]
    | .releaseDir chunkDir _ => [chunkDir]
    | _ => []
  | .rmdirChunkDirPath _ stage =>
    match stage with
    | .writeLock _ chunkDir => [chunkDir]
    | .rmdirat _ chunkDir => [chunkDir]
    | .unlock _ chunkDir _ => [chunkDir]
    | .releaseDir _ chunkDir _ => [chunkDir]
    | _ => []

def readLocks : Thread → List ChunkDirPtr
  | .openChunkFile _ stage =>
    match stage with
    | .referenceDir _ parentChunkDir => parentChunkDir.toList
    | .readLock _ parentChunkDir _ => parentChunkDir.toList
    | .mkdirat _ parentChunkDir chunkDir => chunkDir :: parentChunkDir.toList
    | .unlockParent _ parent chunkDir _ => [parent, chunkDir]
    | .releaseParent _ _ chunkDir _ => [chunkDir]
    | .unlockFailed chunkDir => [chunkDir]
    | .openAgain outChunkDir => outChunkDir.toList
    | .unlock chunkDir _ => [chunkDir]
    | _ => []
  | _ => []

def writeLocks : Thread → List ChunkDirPtr
  | .rmdirChunkDirPath _ (.rmdirat _ chunkDir) => [chunkDir]
  | .rmdirChunkDirPath _ (.unlock _ chunkDir _) => [chunkDir]
  | _ => []

end Thread

/-! ## The server -/

/-- `locks` has the lock of the `ChunkDir` at each address. -/
structure ChunkServer (T : Type) where
  store : ChunkStore
  locks : Nat → RWLock
  tree : ChunkTree
  threads : T → Thread

/-- `rand` is for a sweep of the cache. `unlinkat` removes a chunk file. -/
inductive ServerStep (T : Type)
  | thread (t : T) (rand : Nat)
  | cacheSweepAsync (rand : Nat)
  | unlinkat (path : DirPath) (fileName : String)

namespace ChunkServer

open Function (update)

variable {T : Type} [DecidableEq T]

def threadStep (s : ChunkServer T) (t : T) (rand : Nat) : ChunkServer T :=
  match (s.threads t).next with
  | .referenceDir dirID thread =>
    let referenced := s.store.referenceDir rand dirID
    { s with store := referenced.2, threads := update s.threads t (thread referenced.1) }
  | .readLock chunkDir thread =>
    if (s.locks chunkDir.addr).mayRead then
      { s with
        locks := update s.locks chunkDir.addr (s.locks chunkDir.addr).readLock
        threads := update s.threads t thread }
    else s
  | .writeLock chunkDir thread =>
    if (s.locks chunkDir.addr).mayWrite then
      { s with
        locks := update s.locks chunkDir.addr (s.locks chunkDir.addr).writeLock
        threads := update s.threads t thread }
    else s
  | .unlock chunkDir thread =>
    { s with
      locks := update s.locks chunkDir.addr (s.locks chunkDir.addr).unlock
      threads := update s.threads t thread }
  | .releaseDir dirID thread =>
    { s with store := s.store.releaseDirUnlocked dirID, threads := update s.threads t thread }
  | .mkdirat path thread =>
    let made := s.tree.mkdirat path
    { s with tree := made.2, threads := update s.threads t (thread made.1) }
  | .rmdirat path thread =>
    let removed := s.tree.rmdirat path
    { s with tree := removed.2, threads := update s.threads t (thread removed.1) }
  | .openat path fileName thread =>
    let opened := s.tree.openat path fileName
    { s with tree := opened.2, threads := update s.threads t (thread opened.1) }
  | .finished => s

def step (s : ChunkServer T) : ServerStep T → ChunkServer T
  | .thread t rand => s.threadStep t rand
  | .cacheSweepAsync rand => { s with store := s.store.cacheSweepUnlocked false rand }
  | .unlinkat path fileName => { s with tree := s.tree.unlinkat path fileName }

end ChunkServer

end Fhgfs.Chunks
