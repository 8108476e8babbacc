import Fhgfs.Common.StatData

/-!
# Serialization of file attributes

On disk, the attributes of directories have fewer fields than those of files, and those of old
inodes have no flags. The numbers of blocks of the chunk files are only stored for sparse files.
`reads_statData` has what a reader makes of the object it reads into.
-/

namespace Fhgfs

open Wire Serialization

namespace ChunksBlocksVec

def serialize (v : ChunksBlocksVec) : Encoding := serializeUInt64Vector v.chunkBlocksVec

/-- The numbers are added to those of the object. -/
def deserialize (v : ChunksBlocksVec) : Reader ChunksBlocksVec := do
  let chunkBlocksVec ← deserializeUInt64Vector
  pure ⟨v.chunkBlocksVec ++ chunkBlocksVec⟩

end ChunksBlocksVec

namespace StatData

def serializeNumBlocks (isNet : Bool) (s : StatData) : Encoding :=
  if isNet then serializeUInt64 s.getNumBlocks
  else if s.getIsSparseFile then s.chunkBlocksVec.serialize else []

def serializeFlags (hasFlags isNet : Bool) (s : StatData) : Encoding :=
  if hasFlags || isNet then
    serializeUInt s.flags ++ (serializeInt s.settableFileAttribs.mode ++ s.serializeNumBlocks isNet)
  else []

def serializeTimes (s : StatData) : Encoding :=
  serializeInt64 s.creationTimeSecs ++
    (serializeInt64 s.settableFileAttribs.lastAccessTimeSecs ++
      (serializeInt64 s.settableFileAttribs.modificationTimeSecs ++
        serializeInt64 s.attribChangeTimeSecs))

def serializeFileFields (isDiskDirInode : Bool) (s : StatData) : Encoding :=
  if isDiskDirInode then []
  else serializeInt64 s.fileSize ++ (serializeUInt s.nlink ++ serializeUInt s.contentsVersion)

def serializeOwner (hasFlags : Bool) (s : StatData) : Encoding :=
  serializeUInt s.settableFileAttribs.userID ++ (serializeUInt s.settableFileAttribs.groupID ++
    if hasFlags then [] else serializeInt s.settableFileAttribs.mode)

variable (isDiskDirInode hasFlags isNet : Bool)

def serialize (s : StatData) : Encoding :=
  s.serializeFlags hasFlags isNet ++
    (s.serializeTimes ++ (s.serializeFileFields isDiskDirInode ++ s.serializeOwner hasFlags))

/-- The number of blocks from the network is skipped. -/
def deserializeNumBlocks (isNet : Bool) (s : StatData) : Reader StatData :=
  if isNet then do
    skip 8
    pure s
  else if s.getIsSparseFile then do
    let chunkBlocksVec ← s.chunkBlocksVec.deserialize
    pure { s with chunkBlocksVec := chunkBlocksVec }
  else pure s

def deserializeFlags (hasFlags isNet : Bool) (s : StatData) : Reader StatData :=
  if hasFlags || isNet then do
    let flags ← deserializeUInt
    let mode ← deserializeInt
    deserializeNumBlocks isNet { s with flags := flags, settableFileAttribs.mode := mode }
  else pure { s with flags := 0 }

def deserializeTimes (s : StatData) : Reader StatData := do
  let creationTimeSecs ← deserializeInt64
  let lastAccessTimeSecs ← deserializeInt64
  let modificationTimeSecs ← deserializeInt64
  let attribChangeTimeSecs ← deserializeInt64
  pure { s with
    creationTimeSecs := creationTimeSecs
    settableFileAttribs.lastAccessTimeSecs := lastAccessTimeSecs
    settableFileAttribs.modificationTimeSecs := modificationTimeSecs
    attribChangeTimeSecs := attribChangeTimeSecs }

def deserializeFileFields (isDiskDirInode : Bool) (s : StatData) : Reader StatData :=
  if isDiskDirInode then pure s
  else do
    let fileSize ← deserializeInt64
    let nlink ← deserializeUInt
    let contentsVersion ← deserializeUInt
    pure { s with fileSize := fileSize, nlink := nlink, contentsVersion := contentsVersion }

def deserializeOwner (hasFlags : Bool) (s : StatData) : Reader StatData := do
  let userID ← deserializeUInt
  let groupID ← deserializeUInt
  let s := { s with
    settableFileAttribs.userID := userID
    settableFileAttribs.groupID := groupID }
  if hasFlags then pure s
  else do
    let mode ← deserializeInt
    pure { s with settableFileAttribs.mode := mode }

def deserialize (s : StatData) : Reader StatData := do
  let s ← s.deserializeFlags hasFlags isNet
  let s ← s.deserializeTimes
  let s ← s.deserializeFileFields isDiskDirInode
  s.deserializeOwner hasFlags

/-! ## Round trip -/

/-- `s₀` after the attributes of `s` were read into it. -/
def readInto (s s₀ : StatData) : StatData where
  flags := if hasFlags || isNet then s.flags else 0
  fileSize := if isDiskDirInode then s₀.fileSize else s.fileSize
  creationTimeSecs := s.creationTimeSecs
  attribChangeTimeSecs := s.attribChangeTimeSecs
  nlink := if isDiskDirInode then s₀.nlink else s.nlink
  settableFileAttribs := s.settableFileAttribs
  contentsVersion := if isDiskDirInode then s₀.contentsVersion else s.contentsVersion
  chunkBlocksVec :=
    if hasFlags && !isNet && s.getIsSparseFile then
      ⟨s₀.chunkBlocksVec.chunkBlocksVec ++ s.chunkBlocksVec.chunkBlocksVec⟩
    else s₀.chunkBlocksVec

variable {s s₀ : StatData}

theorem reads_chunkBlocks {v : ChunksBlocksVec} (hFits : v.serialize.length < 2 ^ 32)
    (v₀ : ChunksBlocksVec) :
    Reads v₀.deserialize v.serialize ⟨v₀.chunkBlocksVec ++ v.chunkBlocksVec⟩ := by
  rw [ChunksBlocksVec.serialize, length_serializeUInt64Vector] at hFits
  apply (reads_uint64Vector hFits).bind_of_nil
  exact .pure _

theorem reads_numBlocks {isNet : Bool} (hFlags : s₀.flags = s.flags)
    (hFits : (s.serializeNumBlocks isNet).length < 2 ^ 32) :
    Reads (s₀.deserializeNumBlocks isNet) (s.serializeNumBlocks isNet) { s₀ with
        chunkBlocksVec :=
          if !isNet && s.getIsSparseFile then
            ⟨s₀.chunkBlocksVec.chunkBlocksVec ++ s.chunkBlocksVec.chunkBlocksVec⟩
          else s₀.chunkBlocksVec } := by
  have hSparse : s₀.getIsSparseFile = s.getIsSparseFile := by
    unfold getIsSparseFile
    rw [hFlags]
  unfold serializeNumBlocks at hFits ⊢
  unfold deserializeNumBlocks
  rw [hSparse]
  cases isNet with
  | true =>
    apply (Reads.skip_of_length (length_serializeUInt64 _)).bind_of_nil
    exact .pure _
  | false =>
    cases hStored : s.getIsSparseFile with
    | false => exact .pure _
    | true =>
      rw [hStored] at hFits
      apply (reads_chunkBlocks hFits _).bind_of_nil
      exact .pure _

theorem reads_flags {hasFlags isNet : Bool}
    (hFits : (s.serializeFlags hasFlags isNet).length < 2 ^ 32) (s₀ : StatData) :
    Reads (s₀.deserializeFlags hasFlags isNet) (s.serializeFlags hasFlags isNet)
      (if hasFlags || isNet then
        { s₀ with
          flags := s.flags
          settableFileAttribs.mode := s.settableFileAttribs.mode
          chunkBlocksVec :=
            if !isNet && s.getIsSparseFile then
              ⟨s₀.chunkBlocksVec.chunkBlocksVec ++ s.chunkBlocksVec.chunkBlocksVec⟩
            else s₀.chunkBlocksVec }
      else { s₀ with flags := 0 }) := by
  unfold serializeFlags at hFits ⊢
  unfold deserializeFlags
  split
  · next hStored =>
    rw [if_pos hStored, List.length_append, List.length_append] at hFits
    apply (reads_uint _).bind
    apply (reads_int _).bind
    exact reads_numBlocks rfl (by omega)
  · exact .pure _

theorem reads_times (s s₀ : StatData) :
    Reads s₀.deserializeTimes s.serializeTimes { s₀ with
        creationTimeSecs := s.creationTimeSecs
        settableFileAttribs.lastAccessTimeSecs := s.settableFileAttribs.lastAccessTimeSecs
        settableFileAttribs.modificationTimeSecs := s.settableFileAttribs.modificationTimeSecs
        attribChangeTimeSecs := s.attribChangeTimeSecs } := by
  apply (reads_int64 _).bind
  apply (reads_int64 _).bind
  apply (reads_int64 _).bind
  apply (reads_int64 _).bind_of_nil
  exact .pure _

theorem reads_fileFields (isDiskDirInode : Bool) (s s₀ : StatData) :
    Reads (s₀.deserializeFileFields isDiskDirInode) (s.serializeFileFields isDiskDirInode)
      (if isDiskDirInode then s₀
      else { s₀ with
        fileSize := s.fileSize, nlink := s.nlink, contentsVersion := s.contentsVersion }) := by
  cases isDiskDirInode with
  | true => exact .pure _
  | false =>
    apply (reads_int64 _).bind
    apply (reads_uint _).bind
    apply (reads_uint _).bind_of_nil
    exact .pure _

theorem reads_owner (hasFlags : Bool) (s s₀ : StatData) :
    Reads (s₀.deserializeOwner hasFlags) (s.serializeOwner hasFlags) { s₀ with
        settableFileAttribs.userID := s.settableFileAttribs.userID
        settableFileAttribs.groupID := s.settableFileAttribs.groupID
        settableFileAttribs.mode :=
          if hasFlags then s₀.settableFileAttribs.mode else s.settableFileAttribs.mode } := by
  apply (reads_uint _).bind
  apply (reads_uint _).bind
  cases hasFlags with
  | true => exact .pure _
  | false =>
    apply (reads_int _).bind_of_nil
    exact .pure _

theorem reads_statData {isDiskDirInode hasFlags isNet : Bool}
    (hFits : (s.serialize isDiskDirInode hasFlags isNet).length < 2 ^ 32) (s₀ : StatData) :
    Reads (s₀.deserialize isDiskDirInode hasFlags isNet) (s.serialize isDiskDirInode hasFlags isNet)
      (s.readInto isDiskDirInode hasFlags isNet s₀) := by
  have hFlags : (s.serializeFlags hasFlags isNet).length < 2 ^ 32 := by
    rw [serialize, List.length_append] at hFits
    omega
  apply Reads.of_eq
  · apply (reads_flags hFlags s₀).bind
    apply (reads_times s _).bind
    apply (reads_fileFields isDiskDirInode s _).bind
    exact reads_owner hasFlags s _
  · cases isDiskDirInode <;> cases hasFlags <;> cases isNet <;> rfl

end StatData

end Fhgfs
