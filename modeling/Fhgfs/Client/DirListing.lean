import Fhgfs.Common.StorageDefinitions
import Fhgfs.Lib.Run

/-!
# Listing a directory

The client lists a directory in batches. A batch is what the metadata server reads from its local
directory behind an offset, and the offset of its last entry is where the next one begins. Each
pass of `FhgfsOps_readdirIncremental` looks whether there is an entry left in the batch, fetches
the next batch if there is none, and emits one entry.

* `listing_exact`: what was emitted since the last seek is what is behind the position of the
  seek, in the order of the server, as far as entries have not been unlinked.
* `Inv`: the entries that were emitted, those in the batch, and those behind the offset of the
  batch are together the entries behind the position.
-/

namespace Fhgfs.Client

open Run List List.Sublist

/-! ## The local directory of the server -/

structure Dirent where
  d_name : String
  d_off : Int64
deriving DecidableEq

/-- A directory with the entries in the order of `readdir`, and what comes after a `seekdir`. The
offsets are unique, and 0 is the beginning. -/
structure LocalDir where
  dirents : List Dirent
  seekdir : Int64 → List Dirent
  unique : (dirents.map Dirent.d_off).Nodup
  nonzero : ∀ d ∈ dirents, d.d_off ≠ 0
  behind : ∀ before d rest, dirents = before ++ d :: rest → seekdir d.d_off = rest

def LocalDir.ofDirents (dirents : List Dirent) (unique : (dirents.map Dirent.d_off).Nodup)
    (nonzero : ∀ d ∈ dirents, d.d_off ≠ 0) : LocalDir where
  dirents := dirents
  seekdir pos := (dirents.dropWhile fun d => d.d_off ≠ pos).tail
  unique := unique
  nonzero := nonzero
  behind := by
    rintro before d rest rfl
    have hBefore : ∀ d' ∈ before, decide (d'.d_off ≠ d.d_off) = true := by
      intro d' hd'
      rw [List.map_append, List.map_cons, List.nodup_append] at unique
      exact decide_eq_true
        (unique.2.2 _ (List.mem_map_of_mem hd') _ List.mem_cons_self)
    rw [List.dropWhile_append_of_pos hBefore, List.dropWhile_cons_of_neg (by simp)]
    rfl

/-- What `readdir` gives after `opendir`, or after a `seekdir`. -/
def LocalDir.entriesFrom (dir : LocalDir) (pos : Int64) : List Dirent :=
  if pos = 0 then dir.dirents else dir.seekdir pos

/-- The metadata in a dentry file, if it can be loaded. -/
structure DentryMetadata where
  entryType : DirEntryType
  entryID : String
deriving DecidableEq

def META_DIRENTRYID_SUB_STR : String := "#fSiDs#"

/-- The next entry that is not filtered, and the rest. -/
def readdirFilteredEx (filterDots filterFSIDsDir : Bool) :
    List Dirent → Option (Dirent × List Dirent)
  | [] => none
  | dirEntry :: dirHandle =>
    if (!filterDots || dirEntry.d_name != ".") && (!filterDots || dirEntry.d_name != "..") &&
        (!filterFSIDsDir || dirEntry.d_name != META_DIRENTRYID_SUB_STR) then
      some (dirEntry, dirHandle)
    else readdirFilteredEx filterDots filterFSIDsDir dirHandle

structure ListIncExOutArgs where
  outNames : List String
  outEntryTypes : List DirEntryType
  outEntryIDs : List String
  outServerOffsets : List Int64
  outNewServerOffset : Int64

section Server

variable (loadFromFileName : String → Option DentryMetadata)

/-- The type and the ID of an entry in the response. -/
def entryOf (filterDots : Bool) (d_name : String) : DentryMetadata :=
  if !filterDots && d_name == "." then ⟨.DIRECTORY, "<.>"⟩
  else if !filterDots && d_name == ".." then ⟨.DIRECTORY, "<..>"⟩
  else (loadFromFileName d_name).getD ⟨.INVALID, "<invalid>"⟩

def ListIncExOutArgs.push (filterDots : Bool) (dirEntry : Dirent) (outArgs : ListIncExOutArgs) :
    ListIncExOutArgs :=
  let entry := entryOf loadFromFileName filterDots dirEntry.d_name
  { outNames := outArgs.outNames ++ [dirEntry.d_name]
    outEntryTypes := outArgs.outEntryTypes ++ [entry.entryType]
    outEntryIDs := outArgs.outEntryIDs ++ [entry.entryID]
    outServerOffsets := outArgs.outServerOffsets ++ [dirEntry.d_off]
    outNewServerOffset := dirEntry.d_off }

/-- The loop over the directory, with the number of names that are still allowed. -/
def listLoop (filterDots : Bool) :
    Nat → List Dirent → ListIncExOutArgs → ListIncExOutArgs
  | 0, _, outArgs => outArgs
  | numNames + 1, dirHandle, outArgs =>
    match readdirFilteredEx filterDots true dirHandle with
    | none => outArgs
    | some (dirEntry, dirHandle) =>
      listLoop filterDots numNames dirHandle (outArgs.push loadFromFileName filterDots dirEntry)

/-- The directory, without the entries that have been unlinked; these are given by their
offsets. -/
structure ServerDir where
  dir : LocalDir
  unlinked : List Int64

def ServerDir.dirHandle (s : ServerDir) (serverOffset : Int64) : List Dirent :=
  (s.dir.entriesFrom serverOffset).filter fun d => d.d_off ∉ s.unlinked

/-- The new offset is initialized with the one of the request. -/
def listIncrementalEx (s : ServerDir) (serverOffset : Int64) (maxOutNames : Nat)
    (filterDots : Bool) : ListIncExOutArgs :=
  listLoop loadFromFileName filterDots maxOutNames (s.dirHandle serverOffset)
    ⟨[], [], [], [], serverOffset⟩

end Server

/-! ## The open directory of the client -/

structure FsDirInfo where
  dirContents : List String
  dirContentsTypes : List DirEntryType
  entryIDs : List String
  serverOffsets : List Int64
  serverOffset : Int64
  currentContentsPos : Nat
  endOfDir : Bool

def FsDirInfo.new : FsDirInfo := ⟨[], [], [], [], 0, 0, false⟩

def DT_UNKNOWN : Nat := 0
def DT_FIFO : Nat := 1
def DT_CHR : Nat := 2
def DT_DIR : Nat := 4
def DT_BLK : Nat := 6
def DT_REG : Nat := 8
def DT_LNK : Nat := 10
def DT_SOCK : Nat := 12

def dirEntryTypeToOS : DirEntryType → Nat
  | .DIRECTORY => DT_DIR
  | .REGULARFILE => DT_REG
  | .SYMLINK => DT_LNK
  | .BLOCKDEV => DT_BLK
  | .CHARDEV => DT_CHR
  | .FIFO => DT_FIFO
  | .SOCKET => DT_SOCK
  | .INVALID => DT_UNKNOWN

/-- What the inode number of an entry is computed from. -/
inductive InodeNumber
  | self
  | parent
  | generated (entryID : String)
deriving DecidableEq

def inodeNumber (currentName currentEntryID : String) : InodeNumber :=
  if currentName = "." then .self
  else if currentName = ".." then .parent
  else .generated currentEntryID

/-- An entry as it is emitted, with the position after it. -/
structure EmittedEntry where
  name : String
  ino : InodeNumber
  osEntryType : Nat
  pos : Int64
deriving DecidableEq

namespace FsDirInfo

/-- The part of `FhgfsOpsRemoting_listdirFromOffset` after the request. The number of elements of
the four lists was checked before. -/
def listdirFromOffset (maxOutNames : Nat) (listDirResp : ListIncExOutArgs) : FsDirInfo where
  dirContents := listDirResp.outNames
  dirContentsTypes := listDirResp.outEntryTypes
  entryIDs := listDirResp.outEntryIDs
  serverOffsets := listDirResp.outServerOffsets
  serverOffset := listDirResp.outNewServerOffset
  currentContentsPos := 0
  endOfDir := decide (listDirResp.outNames.length < maxOutNames)

/-- `FhgfsOpsHelper_refreshDirInfoIncremental` without a forced update, with the error of the
request. `list` is the answer of the server for an offset. -/
def refresh (list : Int64 → Except FhgfsOpsErr ListIncExOutArgs) (maxNames : Nat)
    (dirInfo : FsDirInfo) : FsDirInfo × Option FhgfsOpsErr :=
  let dirContentsLen := dirInfo.dirContents.length
  if dirInfo.endOfDir && decide (dirContentsLen ≤ dirInfo.currentContentsPos) then
    ({ dirInfo with dirContents := [] }, none)
  else if dirInfo.currentContentsPos < dirContentsLen then (dirInfo, none)
  else
    match list dirInfo.serverOffset with
    | .ok listDirResp => (listdirFromOffset maxNames listDirResp, none)
    | .error e => ({ dirInfo with dirContents := [], currentContentsPos := 0 }, some e)

/-- The entry at the current position, if all four lists have it. -/
def current (dirInfo : FsDirInfo) : Option EmittedEntry := do
  let name ← dirInfo.dirContents[dirInfo.currentContentsPos]?
  let entryType ← dirInfo.dirContentsTypes[dirInfo.currentContentsPos]?
  let entryID ← dirInfo.entryIDs[dirInfo.currentContentsPos]?
  let offset ← dirInfo.serverOffsets[dirInfo.currentContentsPos]?
  pure ⟨name, inodeNumber name entryID, dirEntryTypeToOS entryType, offset⟩

end FsDirInfo

/-- The open file: `f_pos` and the private data. -/
structure OpenDir where
  pos : Int64
  dirInfo : FsDirInfo

inductive PassResult
  | failed (e : FhgfsOpsErr)
  | endOfDir
  | refused
  | emitted (entry : EmittedEntry)
  | outOfBounds
deriving DecidableEq

namespace OpenDir

/-- One pass of the loop in `FhgfsOps_readdirIncremental`; `accepted` is the result of
`dir_emit`. -/
def pass (list : Int64 → Except FhgfsOpsErr ListIncExOutArgs) (maxNames : Nat) (accepted : Bool)
    (file : OpenDir) : OpenDir × PassResult :=
  let refreshed := file.dirInfo.refresh list maxNames
  let dirInfo := refreshed.1
  match refreshed.2 with
  | some e => ({ file with dirInfo }, .failed e)
  | none =>
    if dirInfo.dirContents.length = 0 then ({ file with dirInfo }, .endOfDir)
    else
      match dirInfo.current with
      | none => ({ file with dirInfo }, .outOfBounds)
      | some entry =>
        if !accepted then ({ file with dirInfo }, .refused)
        else
          let contentsPos := dirInfo.currentContentsPos
          (⟨entry.pos, { dirInfo with currentContentsPos := contentsPos + 1 }⟩, .emitted entry)

def llseekdir (s_maxbytes offset : Int64) (file : OpenDir) : OpenDir × Bool :=
  if offset < 0 ∨ s_maxbytes < offset then (file, false)
  else
    (⟨offset, { file.dirInfo with
        dirContents := []
        currentContentsPos := 0
        serverOffset := offset
        endOfDir := false }⟩, true)

end OpenDir

/-! ## Runs -/

/-- The server's directory and the open directory of the client, with its history: the position
of the last seek, what was emitted since then, whether the end was reached, and the positions
that have been handed out. -/
structure DirListing where
  server : ServerDir
  file : OpenDir
  seekPos : Int64
  emitted : List EmittedEntry
  ended : Bool
  handedOut : List Int64

/-- A readdir call is a number of passes, of which all but the last one emit an entry. A request
may fail. -/
inductive DirCall
  | pass (accepted : Bool) (error : Option FhgfsOpsErr)
  | llseekdir (s_maxbytes offset : Int64)
  | unlink (offset : Int64)

namespace DirListing

def opened (dir : LocalDir) : DirListing := ⟨⟨dir, []⟩, ⟨0, .new⟩, 0, [], false, []⟩

variable (loadFromFileName : String → Option DentryMetadata) (maxNames : Nat)

/-- The result of a request. The client asks for the dot entries. -/
def list (error : Option FhgfsOpsErr) (s : DirListing) (serverOffset : Int64) :
    Except FhgfsOpsErr ListIncExOutArgs :=
  match error with
  | some e => .error e
  | none => .ok (listIncrementalEx loadFromFileName s.server serverOffset maxNames false)

def filePass (accepted : Bool) (error : Option FhgfsOpsErr) (s : DirListing) :
    OpenDir × PassResult :=
  s.file.pass (s.list loadFromFileName maxNames error) maxNames accepted

def pass (accepted : Bool) (error : Option FhgfsOpsErr) (s : DirListing) : DirListing :=
  let passed := s.filePass loadFromFileName maxNames accepted error
  match passed.2 with
  | .emitted entry =>
    { s with
      file := passed.1
      emitted := s.emitted ++ [entry]
      handedOut := entry.pos :: s.handedOut }
  | .endOfDir => { s with file := passed.1, ended := true }
  | _ => { s with file := passed.1 }

def llseekdir (s_maxbytes offset : Int64) (s : DirListing) : DirListing :=
  let seeked := s.file.llseekdir s_maxbytes offset
  if seeked.2 then { s with file := seeked.1, seekPos := offset, emitted := [], ended := false }
  else s

def unlink (offset : Int64) (s : DirListing) : DirListing :=
  { s with server := { s.server with unlinked := offset :: s.server.unlinked } }

def step (s : DirListing) : DirCall → DirListing
  | .pass accepted error => s.pass loadFromFileName maxNames accepted error
  | .llseekdir s_maxbytes offset => s.llseekdir s_maxbytes offset
  | .unlink offset => s.unlink offset

/-- A readdir call of a caller that has room for a number of entries. -/
def readdir : Nat → DirListing → DirListing
  | 0, s => s.pass loadFromFileName maxNames false none
  | room + 1, s =>
    match (s.filePass loadFromFileName maxNames true none).2 with
    | .emitted _ => readdir room (s.pass loadFromFileName maxNames true none)
    | _ => s.pass loadFromFileName maxNames true none

/-- Seeks go to the beginning or to a position that was handed out, and entries are unlinked after
they have been emitted. -/
def Allowed (s : DirListing) : DirCall → Prop
  | .pass _ _ => True
  | .llseekdir _ offset => offset = 0 ∨ offset ∈ s.handedOut
  | .unlink offset => offset ∈ s.handedOut

/-! ## What is to be listed -/

/-- The entries of the directory behind a position, with those that have been unlinked. -/
def entriesBehind (dir : LocalDir) (pos : Int64) : List Dirent :=
  (dir.entriesFrom pos).filter fun d => d.d_name ≠ META_DIRENTRYID_SUB_STR

def listed (d : Dirent) : EmittedEntry where
  name := d.d_name
  ino := if d.d_name = "." then .self else if d.d_name = ".." then .parent
    else .generated ((loadFromFileName d.d_name).elim "<invalid>" DentryMetadata.entryID)
  osEntryType := if d.d_name = "." ∨ d.d_name = ".." then DT_DIR
    else dirEntryTypeToOS ((loadFromFileName d.d_name).elim .INVALID DentryMetadata.entryType)
  pos := d.d_off

def Remains (s : DirListing) (entry : EmittedEntry) : Bool :=
  decide (entry.pos ∉ s.server.unlinked)

/-- What was emitted since the last seek: no entry twice and none before another one that comes
first, each with its own data, and of the entries that remain none is left out. -/
structure Listed (s : DirListing) : Prop where
  inOrder : s.emitted.Sublist
    ((entriesBehind s.server.dir s.seekPos).map (listed loadFromFileName))
  once : (s.emitted.map EmittedEntry.pos).Nodup
  complete : s.emitted.filter s.Remains <+:
    ((entriesBehind s.server.dir s.seekPos).map (listed loadFromFileName)).filter s.Remains
  ended : s.ended = true → s.emitted.filter s.Remains =
    ((entriesBehind s.server.dir s.seekPos).map (listed loadFromFileName)).filter s.Remains
  position : s.file.pos = s.emitted.getLast?.elim s.seekPos EmittedEntry.pos

/-- A pass does not read behind the end of the batch, and it emits an entry if it may, unless the
end was reached. -/
structure Proceeds (s : DirListing) : Prop where
  inBounds : ∀ accepted error,
    (s.filePass loadFromFileName maxNames accepted error).2 ≠ .outOfBounds
  emits : (s.filePass loadFromFileName maxNames true none).2 = .endOfDir ∨
    ∃ entry, (s.filePass loadFromFileName maxNames true none).2 = .emitted entry

end DirListing

/-! ## Positions in the directory -/

namespace LocalDir

variable {dir : LocalDir} {pos : Int64} {d : Dirent} {before rest : List Dirent}

/-- The position is the beginning, or behind an entry. -/
def Known (dir : LocalDir) (pos : Int64) : Prop := pos = 0 ∨ ∃ d ∈ dir.dirents, d.d_off = pos

theorem entriesFrom_suffix (h : dir.Known pos) : dir.entriesFrom pos <:+ dir.dirents := by
  unfold entriesFrom
  split
  · exact suffix_rfl
  rename_i hPos
  obtain ⟨d, hd, rfl⟩ := h.resolve_left hPos
  obtain ⟨before, rest, hSplit⟩ := append_of_mem hd
  rw [dir.behind before d rest hSplit, hSplit]
  exact ⟨before ++ [d], by simp⟩

theorem entriesFrom_behind (h : dir.Known pos)
    (hSplit : dir.entriesFrom pos = before ++ d :: rest) :
    dir.Known d.d_off ∧ dir.entriesFrom d.d_off = rest := by
  obtain ⟨skipped, hSkipped⟩ := entriesFrom_suffix h
  rw [hSplit, ← append_assoc] at hSkipped
  have hMem : d ∈ dir.dirents := by
    rw [← hSkipped]
    exact mem_append_right _ mem_cons_self
  refine ⟨Or.inr ⟨d, hMem, rfl⟩, ?_⟩
  rw [entriesFrom, if_neg (dir.nonzero d hMem)]
  exact dir.behind _ d rest hSkipped.symm

theorem nodup_entriesFrom (h : dir.Known pos) : ((dir.entriesFrom pos).map Dirent.d_off).Nodup :=
  dir.unique.sublist ((entriesFrom_suffix h).sublist.map _)

end LocalDir

/-! ## A batch -/

/-- The entry is not the directory for access by ID. -/
def Dirent.visible (d : Dirent) : Bool := d.d_name ≠ META_DIRENTRYID_SUB_STR

def Dirent.remains (unlinked : List Int64) (d : Dirent) : Bool := d.d_off ∉ unlinked

theorem readdirFilteredEx_none {dirHandle : List Dirent}
    (h : readdirFilteredEx false true dirHandle = none) : dirHandle.filter Dirent.visible = [] := by
  induction dirHandle with
  | nil => rfl
  | cons d dirHandle ih =>
    rw [readdirFilteredEx] at h
    split at h
    · cases h
    · rename_i hHidden
      rw [filter_cons_of_neg (by simpa [Dirent.visible] using hHidden)]
      exact ih h

theorem readdirFilteredEx_some {dirHandle rest : List Dirent} {d : Dirent}
    (h : readdirFilteredEx false true dirHandle = some (d, rest)) :
    dirHandle.filter Dirent.visible = d :: rest.filter Dirent.visible := by
  induction dirHandle with
  | nil => cases h
  | cons d' dirHandle ih =>
    rw [readdirFilteredEx] at h
    split at h
    · rename_i hVisible
      cases h
      exact filter_cons_of_pos (by simpa [Dirent.visible] using hVisible)
    · rename_i hHidden
      rw [filter_cons_of_neg (by simpa [Dirent.visible] using hHidden)]
      exact ih h

/-- The offset behind a batch that was requested for an offset. -/
def offsetBehind (offset : Int64) (batch : List Dirent) : Int64 :=
  batch.getLast?.elim offset Dirent.d_off

section Response

variable (loadFromFileName : String → Option DentryMetadata)

def response (offset : Int64) (batch : List Dirent) : ListIncExOutArgs where
  outNames := batch.map Dirent.d_name
  outEntryTypes := batch.map fun d => (entryOf loadFromFileName false d.d_name).entryType
  outEntryIDs := batch.map fun d => (entryOf loadFromFileName false d.d_name).entryID
  outServerOffsets := batch.map Dirent.d_off
  outNewServerOffset := offsetBehind offset batch

theorem push_response (offset : Int64) (batch : List Dirent) (d : Dirent) :
    (response loadFromFileName offset batch).push loadFromFileName false d =
      response loadFromFileName offset (batch ++ [d]) := by
  simp [response, ListIncExOutArgs.push, offsetBehind]

theorem listLoop_response (offset : Int64) (numNames : Nat) (dirHandle batch : List Dirent) :
    listLoop loadFromFileName false numNames dirHandle (response loadFromFileName offset batch) =
      response loadFromFileName offset
        (batch ++ (dirHandle.filter Dirent.visible).take numNames) := by
  induction numNames generalizing dirHandle batch with
  | zero => rw [take_zero, append_nil, listLoop]
  | succ numNames ih =>
    rw [listLoop]
    split
    next hNone => rw [readdirFilteredEx_none hNone, take_nil, append_nil]
    next d rest hSome =>
      rw [push_response, ih, readdirFilteredEx_some hSome, take_succ_cons, append_assoc]
      rfl

def remaining (s : ServerDir) (pos : Int64) : List Dirent :=
  (DirListing.entriesBehind s.dir pos).filter (Dirent.remains s.unlinked)

theorem listIncrementalEx_eq (s : ServerDir) (offset : Int64) (maxOutNames : Nat) :
    listIncrementalEx loadFromFileName s offset maxOutNames false =
      response loadFromFileName offset ((remaining s offset).take maxOutNames) := by
  have hShown : (s.dirHandle offset).filter Dirent.visible = remaining s offset := by
    rw [ServerDir.dirHandle, remaining, DirListing.entriesBehind, filter_filter, filter_filter]
    apply filter_congr
    intro d _
    exact Bool.and_comm _ _
  have hLoop := listLoop_response loadFromFileName offset maxOutNames (s.dirHandle offset) []
  rwa [hShown, nil_append] at hLoop

end Response

/-- What a batch of at most `maxNames` entries leaves behind its offset. -/
structure Cut (s : ServerDir) (maxNames : Nat) (offset offset' : Int64) (batch : List Dirent) :
    Prop where
  known : s.dir.Known offset'
  sublist : (batch ++ DirListing.entriesBehind s.dir offset').Sublist
    (DirListing.entriesBehind s.dir offset)
  remains : (batch ++ DirListing.entriesBehind s.dir offset').filter (Dirent.remains s.unlinked) =
    remaining s offset
  last : batch.length < maxNames → remaining s offset' = []

theorem cut_take {s : ServerDir} {offset : Int64} {maxNames : Nat} (hMax : 0 < maxNames)
    (hKnown : s.dir.Known offset) :
    Cut s maxNames offset (offsetBehind offset ((remaining s offset).take maxNames))
      ((remaining s offset).take maxNames) := by
  rcases eq_nil_or_concat ((remaining s offset).take maxNames) with hEmpty | ⟨batch, d, hBatch⟩
  · have hNone : remaining s offset = [] := by
      rcases take_eq_nil_iff.mp hEmpty with hZero | hNil
      · omega
      · exact hNil
    rw [hEmpty]
    exact ⟨hKnown, refl _, rfl, fun _ => hNone⟩
  have hOffset : offsetBehind offset ((remaining s offset).take maxNames) = d.d_off := by
    rw [hBatch, offsetBehind]
    simp
  have hAll : remaining s offset = batch ++ d :: (remaining s offset).drop maxNames := by
    have hSplit := take_append_drop maxNames (remaining s offset)
    rw [hBatch] at hSplit
    simpa using hSplit.symm
  have hMem : d ∈ s.dir.entriesFrom offset := by
    have hIn : d ∈ remaining s offset := by
      rw [hAll]
      exact mem_append_right _ mem_cons_self
    exact mem_of_mem_filter (mem_of_mem_filter hIn)
  obtain ⟨before, rest, hSplit⟩ := append_of_mem hMem
  obtain ⟨hKnown', hRest⟩ := LocalDir.entriesFrom_behind hKnown hSplit
  have hSelf : d.visible = true ∧ d.remains s.unlinked = true := by
    have hIn : d ∈ remaining s offset := by
      rw [hAll]
      exact mem_append_right _ mem_cons_self
    exact ⟨(mem_filter.mp (mem_filter.mp hIn).1).2, (mem_filter.mp hIn).2⟩
  have hBehind : DirListing.entriesBehind s.dir offset =
      before.filter Dirent.visible ++ d :: DirListing.entriesBehind s.dir d.d_off := by
    rw [DirListing.entriesBehind, DirListing.entriesBehind, hSplit, hRest]
    show (before ++ d :: rest).filter Dirent.visible = _ ++ d :: rest.filter Dirent.visible
    rw [filter_append, filter_cons_of_pos hSelf.1]
  have hRemaining : remaining s offset =
      (before.filter Dirent.visible).filter (Dirent.remains s.unlinked) ++
        d :: remaining s d.d_off := by
    rw [remaining, hBehind, filter_append, filter_cons_of_pos hSelf.2]
    rfl
  have hNodup := LocalDir.nodup_entriesFrom hKnown
  rw [hSplit, map_append, map_cons, perm_middle.nodup_iff, nodup_cons, ← map_append] at hNodup
  have hNotMem : d ∉ before ++ rest := fun hIn => hNodup.1 (mem_map_of_mem hIn)
  rw [mem_append, not_or] at hNotMem
  have hSame := hRemaining.symm.trans hAll
  rw [append_cons_inj_of_notMem] at hSame
  · obtain ⟨hBefore, -, hDrop⟩ := hSame
    have hTaken : (remaining s offset).take maxNames = batch ++ [d] := by
      rw [hBatch, concat_eq_append]
    have hFiltered : (batch ++ [d]).filter (Dirent.remains s.unlinked) = batch ++ [d] := by
      rw [filter_append, ← hBefore, filter_filter, filter_cons_of_pos hSelf.2]
      simp
    rw [hOffset, hTaken]
    constructor
    · exact hKnown'
    · rw [hBehind, ← hBefore, append_assoc]
      exact (filter_sublist).append (refl _)
    · rw [filter_append, hFiltered, hAll, ← hDrop, append_assoc]
      rfl
    · intro hLast
      rw [hDrop, drop_eq_nil_iff]
      rw [← hTaken, length_take] at hLast
      omega
  · exact fun hIn => hNotMem.1 (mem_of_mem_filter (mem_of_mem_filter hIn))
  · intro hIn
    apply hNotMem.2
    have hMemRest := mem_of_mem_filter (mem_of_mem_filter hIn)
    rwa [hRest] at hMemRest

/-! ## The invariant -/

section Invariant

variable {loadFromFileName : String → Option DentryMetadata} {maxNames : Nat}
  {before batch : List Dirent} {d : Dirent} {dirInfo : FsDirInfo} {s : DirListing}

/-- The lists of the client have the batch. When they are cleared, only the names are. -/
structure Holds (loadFromFileName : String → Option DentryMetadata) (batch : List Dirent)
    (dirInfo : FsDirInfo) : Prop where
  names : dirInfo.dirContents = batch.map Dirent.d_name
  lists : batch ≠ [] →
    dirInfo.dirContentsTypes =
      batch.map (fun d => (entryOf loadFromFileName false d.d_name).entryType) ∧
    dirInfo.entryIDs = batch.map (fun d => (entryOf loadFromFileName false d.d_name).entryID) ∧
    dirInfo.serverOffsets = batch.map Dirent.d_off

theorem listed_eq (d : Dirent) : DirListing.listed loadFromFileName d =
    ⟨d.d_name, inodeNumber d.d_name (entryOf loadFromFileName false d.d_name).entryID,
      dirEntryTypeToOS (entryOf loadFromFileName false d.d_name).entryType, d.d_off⟩ := by
  unfold DirListing.listed inodeNumber entryOf
  by_cases hSelf : d.d_name = "."
  · simp [hSelf, dirEntryTypeToOS]
  · by_cases hParent : d.d_name = ".."
    · simp [hParent, dirEntryTypeToOS]
    · cases loadFromFileName d.d_name <;> simp [hSelf, hParent]

theorem Holds.current (h : Holds loadFromFileName batch dirInfo)
    (hd : batch[dirInfo.currentContentsPos]? = some d) :
    dirInfo.current = some (DirListing.listed loadFromFileName d) := by
  have hNe : batch ≠ [] := by
    rintro rfl
    cases hd
  obtain ⟨hTypes, hIDs, hOffsets⟩ := h.lists hNe
  rw [FsDirInfo.current, h.names, hTypes, hIDs, hOffsets, listed_eq]
  simp only [getElem?_map, hd, Option.map_some, Option.bind_eq_bind, Option.bind_some,
    Option.pure_def]

/-- `before` was emitted since the last seek, and `batch` is the batch of the client. -/
structure HoldsBatch (loadFromFileName : String → Option DentryMetadata)
    (before batch : List Dirent) (s : DirListing) : Prop where
  emitted : s.emitted = before.map (DirListing.listed loadFromFileName)
  holds : Holds loadFromFileName batch s.file.dirInfo
  sublist : (before ++ (batch.drop s.file.dirInfo.currentContentsPos ++
    DirListing.entriesBehind s.server.dir s.file.dirInfo.serverOffset)).Sublist
      (DirListing.entriesBehind s.server.dir s.seekPos)
  remains : (before ++ (batch.drop s.file.dirInfo.currentContentsPos ++
    DirListing.entriesBehind s.server.dir s.file.dirInfo.serverOffset)).filter
      (Dirent.remains s.server.unlinked) = remaining s.server s.seekPos
  atEnd : s.file.dirInfo.endOfDir = true → remaining s.server s.file.dirInfo.serverOffset = []
  ended : s.ended = true → batch.drop s.file.dirInfo.currentContentsPos = [] ∧
    s.file.dirInfo.endOfDir = true
  position : s.file.pos = before.getLast?.elim s.seekPos Dirent.d_off

def DirListing.withInfo (s : DirListing) (dirInfo : FsDirInfo) : DirListing :=
  { s with file := { s.file with dirInfo } }

section

variable (h : HoldsBatch loadFromFileName before batch s)
include h

theorem HoldsBatch.clear
    (hRead : batch.length ≤ s.file.dirInfo.currentContentsPos) (currentContentsPos : Nat) :
    HoldsBatch loadFromFileName before []
      (s.withInfo { s.file.dirInfo with dirContents := [], currentContentsPos }) := by
  have hDrop := drop_eq_nil_of_le hRead
  have hSublist := h.sublist
  have hRemains := h.remains
  rw [hDrop] at hSublist hRemains
  refine ⟨h.emitted, ⟨rfl, (absurd rfl ·)⟩, ?_, ?_, h.atEnd, ?_, h.position⟩
  · rwa [drop_nil]
  · rwa [drop_nil]
  · exact fun hEnded => ⟨drop_nil, (h.ended hEnded).2⟩

theorem HoldsBatch.fetch (hMax : 0 < maxNames)
    (hKnown : s.server.dir.Known s.file.dirInfo.serverOffset)
    (hRead : batch.length ≤ s.file.dirInfo.currentContentsPos)
    (hOpen : s.file.dirInfo.endOfDir = false) :
    let taken := (remaining s.server s.file.dirInfo.serverOffset).take maxNames
    let dirInfo := FsDirInfo.listdirFromOffset maxNames
      (response loadFromFileName s.file.dirInfo.serverOffset taken)
    HoldsBatch loadFromFileName before taken (s.withInfo dirInfo) ∧
      s.server.dir.Known dirInfo.serverOffset ∧ (taken = [] → dirInfo.endOfDir = true) := by
  intro taken dirInfo
  obtain ⟨hKnown', hCut, hFilter, hLast⟩ := cut_take hMax hKnown
  have hDrop := drop_eq_nil_of_le hRead
  have hSublist := h.sublist
  have hRemains := h.remains
  rw [hDrop, nil_append] at hSublist hRemains
  refine ⟨⟨h.emitted, ⟨rfl, fun _ => ⟨rfl, rfl, rfl⟩⟩, ?_, ?_, ?_, ?_, h.position⟩, hKnown', ?_⟩
  · exact ((refl before).append hCut).trans hSublist
  · rw [filter_append] at hRemains ⊢
    exact (congrArg _ hFilter).trans hRemains
  · intro hEnd
    have hShort := of_decide_eq_true hEnd
    rw [response, length_map] at hShort
    exact hLast hShort
  · intro hEnded
    rw [(h.ended hEnded).2] at hOpen
    cases hOpen
  · intro hNone
    show decide (((response loadFromFileName _ taken).outNames).length < maxNames) = true
    rw [hNone]
    exact decide_eq_true hMax

end

/-- The positions are known, and the client holds a batch. -/
structure Inv (loadFromFileName : String → Option DentryMetadata) (s : DirListing) : Prop where
  seekKnown : s.server.dir.Known s.seekPos
  offsetKnown : s.server.dir.Known s.file.dirInfo.serverOffset
  handedOut : ∀ pos ∈ s.handedOut, s.server.dir.Known pos
  holding : ∃ before batch, HoldsBatch loadFromFileName before batch s

/-- After a refresh without an error, the batch has an entry at the current position, or the end
was reached. -/
theorem refresh_ready (h : Inv loadFromFileName s) (hMax : 0 < maxNames)
    (error : Option FhgfsOpsErr) :
    ∃ dirInfo result before batch,
      s.file.dirInfo.refresh (s.list loadFromFileName maxNames error) maxNames = (dirInfo, result) ∧
      Inv loadFromFileName (s.withInfo dirInfo) ∧
      HoldsBatch loadFromFileName before batch (s.withInfo dirInfo) ∧
      (result = none → batch = [] ∧ dirInfo.endOfDir = true ∨
        ∃ d, batch[dirInfo.currentContentsPos]? = some d) ∧
      (error = none → result = none) := by
  obtain ⟨before, batch, hHolding⟩ := h.holding
  have hLength : s.file.dirInfo.dirContents.length = batch.length := by
    rw [hHolding.holds.names, length_map]
  have hInv : ∀ {dirInfo batch'}, HoldsBatch loadFromFileName before batch' (s.withInfo dirInfo) →
      s.server.dir.Known dirInfo.serverOffset → Inv loadFromFileName (s.withInfo dirInfo) :=
    fun hHolds hKnown => ⟨h.seekKnown, hKnown, h.handedOut, before, _, hHolds⟩
  unfold FsDirInfo.refresh
  by_cases hInside : s.file.dirInfo.currentContentsPos < batch.length
  · have hNot : ¬ batch.length ≤ s.file.dirInfo.currentContentsPos := not_le.mpr hInside
    simp only [hLength, hNot, decide_false, Bool.and_false, Bool.false_eq_true, if_false, hInside,
      if_true]
    exact ⟨_, none, before, batch, rfl, h, hHolding,
      fun _ => Or.inr ⟨_, getElem?_eq_getElem hInside⟩, fun _ => rfl⟩
  have hRead := Nat.le_of_not_lt hInside
  simp only [hLength, hRead, decide_true, Bool.and_true, hInside, if_false]
  split
  next hEnd =>
    have hCleared := hHolding.clear hRead s.file.dirInfo.currentContentsPos
    exact ⟨_, none, before, [], rfl, hInv hCleared h.offsetKnown, hCleared,
      fun _ => Or.inl ⟨rfl, hEnd⟩, fun _ => rfl⟩
  next hOpen =>
    cases error with
    | some e =>
      have hCleared := hHolding.clear hRead 0
      exact ⟨_, some e, before, [], rfl, hInv hCleared h.offsetKnown, hCleared, nofun, nofun⟩
    | none =>
      obtain ⟨hFetched, hKnown, hLast⟩ := hHolding.fetch hMax h.offsetKnown hRead
        (eq_false_of_ne_true hOpen)
      simp only [DirListing.list, listIncrementalEx_eq]
      refine ⟨_, none, before, _, rfl, hInv hFetched hKnown, hFetched, fun _ => ?_, fun _ => rfl⟩
      cases hTaken : (remaining s.server s.file.dirInfo.serverOffset).take maxNames with
      | nil => exact Or.inl ⟨rfl, hTaken ▸ hLast hTaken⟩
      | cons d rest => exact Or.inr ⟨d, rfl⟩

section

variable (h : HoldsBatch loadFromFileName before batch s)
include h

theorem HoldsBatch.emit (hd : batch[s.file.dirInfo.currentContentsPos]? = some d) :
    HoldsBatch loadFromFileName (before ++ [d]) batch { s with
        file := ⟨d.d_off, { s.file.dirInfo with
          currentContentsPos := s.file.dirInfo.currentContentsPos + 1 }⟩
        emitted := s.emitted ++ [DirListing.listed loadFromFileName d]
        handedOut := d.d_off :: s.handedOut } := by
  obtain ⟨hInside, hGet⟩ := List.getElem?_eq_some_iff.mp hd
  have hDrop : batch.drop s.file.dirInfo.currentContentsPos =
      d :: batch.drop (s.file.dirInfo.currentContentsPos + 1) := by
    rw [List.drop_eq_getElem_cons hInside, hGet]
  have hSublist := h.sublist
  have hRemains := h.remains
  rw [hDrop] at hSublist hRemains
  constructor
  · show s.emitted ++ _ = _
    rw [h.emitted, List.map_append, List.map_singleton]
  · exact ⟨h.holds.names, h.holds.lists⟩
  · rwa [List.append_assoc]
  · rwa [List.append_assoc]
  · exact h.atEnd
  · intro hEnded
    have hNone := (h.ended hEnded).1
    rw [hDrop] at hNone
    cases hNone
  · show d.d_off = (before ++ [d]).getLast?.elim _ _
    rw [List.getLast?_append, List.getLast?_singleton]
    rfl

theorem HoldsBatch.known_current (hSeek : s.server.dir.Known s.seekPos)
    (hd : batch[s.file.dirInfo.currentContentsPos]? = some d) : s.server.dir.Known d.d_off := by
  have hIn : d ∈ batch.drop s.file.dirInfo.currentContentsPos := by
    obtain ⟨hInside, hGet⟩ := List.getElem?_eq_some_iff.mp hd
    rw [List.drop_eq_getElem_cons hInside, hGet]
    exact List.mem_cons_self
  have hBehind : d ∈ DirListing.entriesBehind s.server.dir s.seekPos :=
    h.sublist.subset (List.mem_append_right _ (List.mem_append_left _ hIn))
  have hDir := (LocalDir.entriesFrom_suffix hSeek).subset (List.mem_of_mem_filter hBehind)
  exact Or.inr ⟨d, hDir, rfl⟩

end

section

variable (h : Inv loadFromFileName s)
include h

theorem pass_spec (hMax : 0 < maxNames) (accepted : Bool) (error : Option FhgfsOpsErr) :
    Inv loadFromFileName (s.pass loadFromFileName maxNames accepted error) ∧
      (s.filePass loadFromFileName maxNames accepted error).2 ≠ .outOfBounds ∧
      (accepted = true → error = none →
        (s.filePass loadFromFileName maxNames accepted error).2 = .endOfDir ∨
        ∃ entry, (s.filePass loadFromFileName maxNames accepted error).2 = .emitted entry) := by
  obtain ⟨dirInfo, result, before, batch, hRefresh, hInv, hHolding, hReady, hNone⟩ :=
    refresh_ready h hMax error
  unfold DirListing.pass DirListing.filePass OpenDir.pass
  simp only [hRefresh]
  cases result with
  | some e => exact ⟨hInv, nofun, fun _ hError => absurd (hNone hError) (Option.some_ne_none e)⟩
  | none =>
    have hLength : dirInfo.dirContents.length = batch.length := by
      rw [show dirInfo.dirContents = _ from hHolding.holds.names, length_map]
    rcases hReady rfl with ⟨hEmpty, hEnd⟩ | ⟨d, hd⟩
    · simp only [hLength, hEmpty, length_nil, if_true]
      rw [hEmpty] at hHolding
      refine ⟨⟨hInv.seekKnown, hInv.offsetKnown, hInv.handedOut, before, [], ?_⟩, nofun,
        fun _ _ => Or.inl trivial⟩
      exact { hHolding with ended := fun _ => ⟨drop_nil, hEnd⟩ }
    have hCurrent : dirInfo.current = _ := hHolding.holds.current hd
    have hSome : ¬ batch.length = 0 := by
      rw [length_eq_zero_iff]
      rintro rfl
      cases hd
    simp only [hLength, hSome, if_false, hCurrent]
    cases accepted with
    | false => exact ⟨hInv, nofun, nofun⟩
    | true =>
      refine ⟨⟨hInv.seekKnown, hInv.offsetKnown, ?_, _, _, hHolding.emit hd⟩, nofun,
        fun _ _ => Or.inr ⟨_, rfl⟩⟩
      rintro pos (_ | ⟨_, hPos⟩)
      · exact hHolding.known_current hInv.seekKnown hd
      · exact hInv.handedOut pos hPos

theorem inv_llseekdir {s_maxbytes offset : Int64} (hAllowed : offset = 0 ∨ offset ∈ s.handedOut) :
    Inv loadFromFileName (s.llseekdir s_maxbytes offset) := by
  have hKnown : s.server.dir.Known offset := by
    rcases hAllowed with rfl | hOut
    · exact Or.inl rfl
    · exact h.handedOut offset hOut
  unfold DirListing.llseekdir OpenDir.llseekdir
  split
  next => exact h
  next =>
    refine ⟨hKnown, hKnown, h.handedOut, [], [], rfl, ⟨rfl, (absurd rfl ·)⟩, ?_, rfl,
      nofun, nofun, rfl⟩
    exact refl _

theorem inv_unlink (offset : Int64) : Inv loadFromFileName (s.unlink offset) := by
  obtain ⟨before, batch, hHolding⟩ := h.holding
  have hFewer : ∀ entries : List Dirent,
      entries.filter (Dirent.remains (offset :: s.server.unlinked)) =
      (entries.filter (Dirent.remains s.server.unlinked)).filter fun d => d.d_off ≠ offset := by
    intro entries
    rw [filter_filter]
    apply filter_congr
    intro d _
    simp [Dirent.remains]
  refine ⟨h.seekKnown, h.offsetKnown, h.handedOut, before, batch, hHolding.emitted, hHolding.holds,
    hHolding.sublist, ?_, ?_, hHolding.ended, hHolding.position⟩
  · show filter (Dirent.remains (offset :: s.server.unlinked)) _ =
      filter (Dirent.remains (offset :: s.server.unlinked)) _
    rw [hFewer, hFewer]
    exact congrArg _ hHolding.remains
  · intro hEnd
    show filter (Dirent.remains (offset :: s.server.unlinked)) _ = []
    rw [hFewer]
    exact congrArg (filter _) (hHolding.atEnd hEnd)

end

theorem inv_opened (dir : LocalDir) : Inv loadFromFileName (DirListing.opened dir) := by
  refine ⟨Or.inl rfl, Or.inl rfl, nofun, [], [], rfl, ⟨rfl, (absurd rfl ·)⟩, ?_, rfl,
    nofun, nofun, rfl⟩
  exact refl _

theorem step_inv (hMax : 0 < maxNames) (s : DirListing) (call : DirCall)
    (h : Inv loadFromFileName s) (hAllowed : s.Allowed call) :
    Inv loadFromFileName (s.step loadFromFileName maxNames call) := by
  cases call with
  | pass accepted error => exact (pass_spec h hMax accepted error).1
  | llseekdir s_maxbytes offset => exact inv_llseekdir h hAllowed
  | unlink offset => exact inv_unlink h offset

theorem listed_of_inv (h : Inv loadFromFileName s) : s.Listed loadFromFileName := by
  obtain ⟨before, batch, hHolding⟩ := h.holding
  have hBefore : before.Sublist (DirListing.entriesBehind s.server.dir s.seekPos) :=
    (sublist_append_left _ _).trans hHolding.sublist
  have hFilter : ∀ entries : List Dirent,
      (entries.map (DirListing.listed loadFromFileName)).filter s.Remains =
        (entries.filter (Dirent.remains s.server.unlinked)).map
          (DirListing.listed loadFromFileName) := fun _ => filter_map
  have hRemains := hHolding.remains
  rw [filter_append] at hRemains
  constructor
  · rw [hHolding.emitted]
    exact hBefore.map _
  · rw [hHolding.emitted, map_map]
    exact (LocalDir.nodup_entriesFrom h.seekKnown).sublist
      ((hBefore.trans filter_sublist).map _)
  · rw [hHolding.emitted, hFilter, hFilter]
    show _ <+: (remaining s.server s.seekPos).map _
    rw [← hRemains, map_append]
    exact prefix_append _ _
  · intro hEnded
    obtain ⟨hDrop, hEnd⟩ := hHolding.ended hEnded
    have hRest := hHolding.atEnd hEnd
    rw [hDrop, nil_append] at hRemains
    rw [hHolding.emitted, hFilter, hFilter]
    show _ = (remaining s.server s.seekPos).map _
    rw [← hRemains, show filter _ (DirListing.entriesBehind _ _) = [] from hRest, append_nil]
  · rw [hHolding.position, hHolding.emitted, getLast?_map]
    cases before.getLast? <;> rfl

theorem refused_emits_nothing (error : Option FhgfsOpsErr) (entry : EmittedEntry) :
    (s.filePass loadFromFileName maxNames false error).2 ≠ .emitted entry := by
  unfold DirListing.filePass OpenDir.pass
  simp only
  split
  · nofun
  split
  · nofun
  · split
    · nofun
    · exact nofun

theorem readdir_spec (h : Inv loadFromFileName s) (hMax : 0 < maxNames) (room : Nat) :
    Inv loadFromFileName (s.readdir loadFromFileName maxNames room) ∧
      ((s.readdir loadFromFileName maxNames room).ended = true ∨
        (s.readdir loadFromFileName maxNames room).emitted.length = s.emitted.length + room) := by
  induction room generalizing s with
  | zero =>
    obtain ⟨hInv, -, -⟩ := pass_spec h hMax false none
    refine ⟨hInv, ?_⟩
    rw [DirListing.readdir, DirListing.pass]
    split
    next entry hEmitted =>
      exact absurd hEmitted (refused_emits_nothing none entry)
    next => exact Or.inl rfl
    next => exact Or.inr rfl
  | succ room ih =>
    obtain ⟨hInv, -, hNext⟩ := pass_spec h hMax true none
    rw [DirListing.readdir]
    rcases hNext rfl rfl with hEnd | ⟨entry, hEmitted⟩
    · rw [hEnd]
      refine ⟨hInv, Or.inl ?_⟩
      show (s.pass loadFromFileName maxNames true none).ended = true
      rw [DirListing.pass, hEnd]
    rw [hEmitted]
    obtain ⟨hRest, hCount⟩ := ih hInv
    refine ⟨hRest, hCount.imp_right fun hLength => ?_⟩
    have hOne : (s.pass loadFromFileName maxNames true none).emitted.length =
        s.emitted.length + 1 := by
      rw [DirListing.pass, hEmitted]
      exact length_append
    rw [hOne] at hLength
    show _ = _
    rw [hLength]
    omega

/-- In every run, what was emitted is right, and the listing proceeds. -/
theorem listing_exact (hMax : 0 < maxNames) (dir : LocalDir) (calls : List DirCall)
    (hAllowed : EveryStep (DirListing.step loadFromFileName maxNames) DirListing.Allowed
      (DirListing.opened dir) calls) :
    let s := after (DirListing.step loadFromFileName maxNames) (DirListing.opened dir) calls
    s.Listed loadFromFileName ∧ s.Proceeds loadFromFileName maxNames ∧
      ∀ room, (s.readdir loadFromFileName maxNames room).Listed loadFromFileName ∧
        ((s.readdir loadFromFileName maxNames room).ended = true ∨
          (s.readdir loadFromFileName maxNames room).emitted.length =
            s.emitted.length + room) := by
  have hInv := after_invariant _ (step_inv hMax) (inv_opened dir) hAllowed
  refine ⟨listed_of_inv hInv, ⟨fun accepted error => (pass_spec hInv hMax accepted error).2.1,
    (pass_spec hInv hMax true none).2.2 rfl rfl⟩, fun room => ?_⟩
  obtain ⟨hRead, hCount⟩ := readdir_spec hInv hMax room
  exact ⟨listed_of_inv hRead, hCount⟩

/-- A directory with batches of one entry, of which the first is unlinked after it was emitted. -/
theorem listing_exact_batches :
    let dir := LocalDir.ofDirents [⟨".", 7⟩, ⟨"#fSiDs#", 3⟩, ⟨"file", 9⟩] (by decide) (by decide)
    let calls := [.pass true none, .unlink 7, .pass true none, .pass false none,
      .llseekdir 100 7, .pass true none]
    let s := after (DirListing.step (fun _ => some ⟨.REGULARFILE, "id"⟩) 1) (.opened dir) calls
    s.Listed (fun _ => some ⟨.REGULARFILE, "id"⟩) ∧
      s.emitted = [⟨"file", .generated "id", DT_REG, 9⟩] := by
  refine ⟨(listing_exact one_pos _ _ ?_).1, by decide⟩
  have hUnlinked : (7 : Int64) ∈ [(7 : Int64)] := by decide
  have hSought : (7 : Int64) ∈ [(9 : Int64), 7] := by decide
  exact ⟨trivial, hUnlinked, trivial, trivial, Or.inr hSought, trivial, trivial⟩

end Invariant

end Fhgfs.Client
