import Fhgfs.Fsck.Database

/-!
# Checks of the fsck database for missing partners and duplicate IDs

Six checks keep the rows of one table that have no partner in another one. The dangling dentries
are two such checks merged, and the duplicate IDs are groups over the inodes of directories and
of files, each with the nodes that store it. Rows whose ID has a modification event are left out
of every left input.
-/

namespace Fhgfs.Fsck

open List DirEntry Query Union Prod.Lex Group OrderedSet
open Cursor (Reads)

/-! ## Join keys and filters -/

def FsID.joinOrphanedFsIDs (f : FsID) : EntryID ×ₗ EntryID ×ₗ ℕ :=
  toLex (f.id, toLex (f.parentDirID, f.saveNodeID.toNat))

def DirEntry.joinOrphanedFsIDs (d : DirEntry) : EntryID ×ₗ EntryID ×ₗ ℕ :=
  toLex (d.id, toLex (d.parentDirID, d.saveNodeID.toNat))

def DirEntry.dentryIsDirectory (d : DirEntry) : Bool := d.entryType == .DIRECTORY

def DirEntry.dentryIsNotDirectory (d : DirEntry) : Bool := d.entryType != .DIRECTORY

def DirInode.isNotDisposal (inode : DirInode) : Bool := inode.id != .disposal

abbrev NodeIDSet := OrderedSet fun node : ℕ => node

/-- `lastTarget` has no value before the first row; it is 0 once it is in the group. -/
structure DuplicateIDGroup where
  hasTarget : Bool
  lastTarget : ℕ
  group : NodeIDSet

namespace DuplicateIDGroup

def step (s : DuplicateIDGroup) (pair : EntryID × ℕ) : DuplicateIDGroup :=
  if ¬ s.hasTarget then
    { s with lastTarget := pair.2, hasTarget := true }
  else
    let s := if s.lastTarget ≠ 0 then
        { s with group := s.group.insert s.lastTarget, lastTarget := 0 }
      else
        s
    { s with group := s.group.insert pair.2 }

def finish (s : DuplicateIDGroup) : NodeIDSet × DuplicateIDGroup :=
  (s.group, { s with hasTarget := false, group := .empty })

end DuplicateIDGroup

def duplicateIDGroup : GroupOps (EntryID × ℕ) EntryID EntryID NodeIDSet where
  State := DuplicateIDGroup
  initial := ⟨false, 0, .empty⟩
  key := Prod.fst
  project := Prod.fst
  step := DuplicateIDGroup.step
  finish := DuplicateIDGroup.finish
  finish_asNew _ rows := by cases rows <;> rfl

/-! ## The checks -/

namespace FsckDB

variable (db : FsckDB)

def findDuplicateInodeIDs : Query (EntryID × NodeIDSet) :=
  .whereBy
    (.groupBy
      (.unionBy (fun pair => toLex pair)
        (.selectBy
          ((db.dirInodesTable.get.whereBy DirInode.isNotDisposal).ignoreByID DirInode.id
            db.modificationEventsTable)
          fun file => (file.id, file.saveNodeID.toNat))
        (.selectBy
          ((getInodes db.fileInodesTable).ignoreByID FileInode.id db.modificationEventsTable)
          fun file => (file.id, file.saveNodeID.toNat)))
      duplicateIDGroup)
    fun pair => !pair.2.elems.isEmpty

def findDanglingDirEntries : Query DirEntry :=
  .distinctBy
    (.unionBy DirEntry.id
      (.unmatched DirEntry.id FileInode.id (fun _ => true)
        ((db.dentryTable.get.ignoreByID DirEntry.id db.modificationEventsTable).whereBy
          DirEntry.dentryIsNotDirectory)
        (getInodes db.fileInodesTable))
      (.unmatched DirEntry.id DirInode.id (fun _ => true)
        ((db.dentryTable.get.ignoreByID DirEntry.id db.modificationEventsTable).whereBy
          DirEntry.dentryIsDirectory)
        db.dirInodesTable.get))
    DirEntry.id

def findOrphanedFsIDFiles : Query FsID :=
  .unmatched FsID.joinOrphanedFsIDs DirEntry.joinOrphanedFsIDs (fun _ => true)
    (db.fsIDsTable.get.ignoreByID FsID.id db.modificationEventsTable) db.dentryTable.get

def findOrphanedDirInodes : Query DirInode :=
  .unmatched DirInode.id DirEntry.id (fun inode => inode.id != .root && inode.id != .disposal)
    (db.dirInodesTable.get.ignoreByID DirInode.id db.modificationEventsTable) db.dentryTable.get

def findOrphanedFileInodes : Query FileInode :=
  .unmatched FileInode.id DirEntry.id (fun _ => true)
    ((getInodes db.fileInodesTable).ignoreByID FileInode.id db.modificationEventsTable)
    db.dentryTable.get

def findOrphanedChunks : Query Chunk :=
  .unmatched Chunk.id FileInode.id (fun _ => true)
    (db.chunksTable.get.ignoreByID Chunk.id db.modificationEventsTable)
    (getInodes db.fileInodesTable)

def findInodesWithoutContDir : Query DirInode :=
  .unmatched DirInode.id ContDir.id (fun _ => true)
    (db.dirInodesTable.get.ignoreByID DirInode.id db.modificationEventsTable)
    db.contDirsTable.get

def findOrphanedContDirs : Query ContDir :=
  .unmatched ContDir.id DirInode.id (fun _ => true)
    (db.contDirsTable.get.ignoreByID ContDir.id db.modificationEventsTable)
    db.dirInodesTable.get

end FsckDB

/-! ## The groups of the duplicate IDs -/

namespace DuplicateIDGroup

theorem foldl_step (g : NodeIDSet) (rows : List (EntryID × ℕ)) :
    rows.foldl step ⟨true, 0, g⟩ = ⟨true, 0, (rows.map Prod.snd).foldl insert g⟩ := by
  induction rows generalizing g with
  | nil => rfl
  | cons pair rows ih =>
    exact ih (g.insert pair.2)

def firstNode (node : ℕ) : NodeIDSet := if node ≠ 0 then OrderedSet.empty.insert node else .empty

theorem mem_firstNode {node n : ℕ} : n ∈ firstNode node ↔ n = node ∧ node ≠ 0 := by
  unfold firstNode
  split_ifs with hNode
  · rw [mem_insert_id]
    simp [hNode]
  · simp [hNode]

theorem value_cons_cons (x y : EntryID × ℕ) (rows : List (EntryID × ℕ)) :
    duplicateIDGroup.value (x :: y :: rows) =
      ((y :: rows).map Prod.snd).foldl OrderedSet.insert (firstNode x.2) := by
  have hSecond : step (step ⟨false, 0, .empty⟩ x) y = ⟨true, 0, (firstNode x.2).insert y.2⟩ := by
    by_cases hZero : x.2 = 0
    · simp [step, firstNode, hZero]
    · simp [step, firstNode, hZero]
  show (finish ((x :: y :: rows).foldl step ⟨false, 0, .empty⟩)).1 = _
  rw [foldl_cons, foldl_cons, hSecond, foldl_step]
  rfl

variable {rows : List (EntryID × ℕ)}

theorem mem_value_cons_cons {x y : EntryID × ℕ} {n : ℕ} :
    n ∈ duplicateIDGroup.value (x :: y :: rows) ↔
      (n = x.2 ∧ x.2 ≠ 0) ∨ n ∈ (y :: rows).map Prod.snd := by
  rw [value_cons_cons, mem_foldl_insert_id, mem_firstNode, or_comm]

theorem exists_mem_value : (∃ n, n ∈ duplicateIDGroup.value rows) ↔ 1 < rows.length := by
  rcases rows with _ | ⟨x, _ | ⟨y, rows⟩⟩
  · simp [GroupOps.value, duplicateIDGroup, finish]
  · simp [GroupOps.value, duplicateIDGroup, finish, step]
  · have hSecond : y.2 ∈ duplicateIDGroup.value (x :: y :: rows) :=
      mem_value_cons_cons.mpr (Or.inr mem_cons_self)
    simp only [length_cons]
    exact ⟨fun _ => by omega, fun _ => ⟨y.2, hSecond⟩⟩

theorem mem_value {n : ℕ} (hMany : 1 < rows.length) :
    (n ∈ duplicateIDGroup.value rows → n ∈ rows.map Prod.snd) ∧
      (n ≠ 0 → n ∈ rows.map Prod.snd → n ∈ duplicateIDGroup.value rows) := by
  rcases rows with _ | ⟨x, _ | ⟨y, rows⟩⟩
  · cases hMany
  · simp at hMany
  have hRows : n ∈ (x :: y :: rows).map Prod.snd ↔ n = x.2 ∨ n ∈ (y :: rows).map Prod.snd := by
    rw [map_cons, mem_cons]
  rw [mem_value_cons_cons, hRows]
  constructor
  · rintro (⟨rfl, -⟩ | hIn)
    · exact Or.inl rfl
    · exact Or.inr hIn
  · rintro hn (rfl | hIn)
    · exact Or.inl ⟨rfl, hn⟩
    · exact Or.inr hIn

end DuplicateIDGroup

/-! ## What the checks give -/

namespace FsckDB

variable (db : FsckDB)

def unmodified {α : Type} (objectID : α → EntryID) (rows : List α) : List α :=
  rows.filter fun x => decide (¬ db.modificationEventsTable.Has (objectID x))

/-- The inodes whose IDs are to be unique, each with its node. -/
def inodeRows : List (EntryID × ℕ) :=
  ((db.dirInodesTable.rows.filter DirInode.isNotDisposal).map fun file =>
      (file.id, file.saveNodeID.toNat)) ++
    (getInodes db.fileInodesTable).rows.map fun file => (file.id, file.saveNodeID.toNat)

/-- The kind of inode that a dentry names is there. -/
def HasInode (d : DirEntry) : Prop :=
  if d.entryType = .DIRECTORY then
    d.id ∈ db.dirInodesTable.rows.map DirInode.id
  else
    d.id ∈ db.fileInodesTable.rows.map FileInode.id

instance (d : DirEntry) : Decidable (db.HasInode d) :=
  inferInstanceAs (Decidable (ite _ _ _))

end FsckDB

/-! ## The keys of the tables and of the joins -/

section Keys

theorem toLex_le_imp {α β γ : Type} [LinearOrder α] [LinearOrder β] [LinearOrder γ] {a a' : α}
    {b b' : β} {c c' : γ} (h : toLex (a, b) ≤ toLex (a', b')) (hImp : b ≤ b' → c ≤ c') :
    toLex (a, c) ≤ toLex (a', c') := by
  rcases (toLex_le_toLex).mp h with hLt | ⟨hEq, hLe⟩
  · exact (toLex_le_toLex).mpr (Or.inl hLt)
  · exact (toLex_le_toLex).mpr (Or.inr ⟨hEq, hImp hLe⟩)

variable {a b : DirEntry} {x y : FsID}

theorem DirEntry.id_le (h : a.pkey ≤ b.pkey) : a.id ≤ b.id := Prod.Lex.monotone_fst _ _ h

theorem DirEntry.joinOrphanedFsIDs_le (h : a.pkey ≤ b.pkey) :
    a.joinOrphanedFsIDs ≤ b.joinOrphanedFsIDs :=
  toLex_le_imp h fun hParent => toLex_le_imp hParent (Prod.Lex.monotone_fst _ _)

theorem FsID.id_le (h : x.pkey ≤ y.pkey) : x.id ≤ y.id := Prod.Lex.monotone_fst _ _ h

theorem FsID.joinOrphanedFsIDs_le (h : x.pkey ≤ y.pkey) :
    x.joinOrphanedFsIDs ≤ y.joinOrphanedFsIDs :=
  toLex_le_imp h fun hParent => toLex_le_imp hParent (Prod.Lex.monotone_fst _ _)

theorem Chunk.id_le {c d : Chunk} (h : c.pkey ≤ d.pkey) : c.id ≤ d.id := Prod.Lex.monotone_fst _ _ h

end Keys

namespace FsckDB

variable (db : FsckDB)

theorem dentries_ordered : db.dentryTable.get.Ordered DirEntry.id :=
  db.dentryTable.get_ordered.weaken fun _ _ => DirEntry.id_le

theorem fsIDs_ordered : db.fsIDsTable.get.Ordered FsID.id :=
  db.fsIDsTable.get_ordered.weaken fun _ _ => FsID.id_le

theorem chunks_ordered : db.chunksTable.get.Ordered Chunk.id :=
  db.chunksTable.get_ordered.weaken fun _ _ => Chunk.id_le

section MissingPartner

variable {α β κ : Type} [LinearOrder κ] {leftKey : α → κ} {rightKey : β → κ}
  {objectID : α → EntryID} {source : Query α} {right : Query β}

theorem decide_iff_true_and {P : Prop} [Decidable P] : decide P = true ↔ true = true ∧ P := by
  rw [decide_eq_true_iff, eq_self_iff_true, true_and]

theorem missingPartner_yieldsAll {keep p : α → Bool} (hID : source.Ordered objectID)
    (hKey : (db.unmodified objectID source.rows).Pairwise fun a b => leftKey a ≤ leftKey b)
    (hRight : right.Ordered rightKey) (hLast : right.EndsOnLast)
    (hp : ∀ x, p x = true ↔ keep x = true ∧ leftKey x ∉ right.rows.map rightKey) :
    (unmatched leftKey rightKey keep (source.ignoreByID objectID db.modificationEventsTable)
        right).cursor.YieldsAll ((db.unmodified objectID source.rows).filter p) := by
  have hByID := ignoreByID_ordered db.modificationEventsTable hID hID
  have hLeft : (source.ignoreByID objectID db.modificationEventsTable).Ordered leftKey :=
    ⟨hByID.inputs, hByID.guarded, ignoreByID_rows ▸ hKey⟩
  have hYields := unmatched_yieldsAll keep hLeft hRight hLast
  have hSame : p = fun x => keep x && decide (leftKey x ∉ right.rows.map rightKey) := by
    funext x
    rw [Bool.eq_iff_iff, hp, Bool.and_eq_true, decide_eq_true_iff]
  rwa [ignoreByID_rows, ← hSame] at hYields

end MissingPartner

/-! ## Dangling dentries -/

theorem mem_unmatched_dentries {β : Type} {rightKey : β → EntryID} {kind : DirEntry → Bool}
    {right : Query β} {d : DirEntry} :
    d ∈ (Query.unmatched DirEntry.id rightKey (fun _ => true)
        ((db.dentryTable.get.ignoreByID DirEntry.id db.modificationEventsTable).whereBy kind)
        right).rows ↔
      d ∈ db.unmodified DirEntry.id db.dentryTable.rows ∧ kind d = true ∧
        d.id ∉ right.rows.map rightKey := by
  have hRows : ((db.dentryTable.get.ignoreByID DirEntry.id db.modificationEventsTable).whereBy
      kind).rows = (db.unmodified DirEntry.id db.dentryTable.rows).filter kind :=
    congrArg (List.filter kind) ignoreByID_rows
  rw [Query.unmatched_rows, hRows, mem_filter, mem_filter, Bool.true_and,
    decide_eq_true_iff, and_assoc]

theorem not_hasInode_iff {d : DirEntry} : ¬ db.HasInode d ↔
    d.dentryIsNotDirectory = true ∧ d.id ∉ (getInodes db.fileInodesTable).rows.map FileInode.id ∨
      d.dentryIsDirectory = true ∧ d.id ∉ db.dirInodesTable.get.rows.map DirInode.id := by
  rw [mem_getInodes_ids]
  unfold HasInode dentryIsDirectory dentryIsNotDirectory
  split_ifs with hKind
  · rw [hKind]
    simp only [bne_self_eq_false, Bool.false_eq_true, false_and, false_or, beq_self_eq_true,
      true_and]
    rfl
  · rw [bne_iff_ne, beq_iff_eq]
    simp only [ne_eq, hKind, not_false_eq_true, true_and, false_and, or_false]

/-- Two such checks, merged. The cursor over them is never marked, so their right inputs need
not restore marks. -/
theorem distinctUnion_yieldsAll {α β γ κ : Type} [LinearOrder κ] {key : α → κ} {rightKey : β → κ}
    {rightKey' : γ → κ} {left left' : Query α} {right : Query β} {right' : Query γ}
    (keep keep' : α → Bool) (hLeft : left.Ordered key) (hRight : right.Ordered rightKey)
    (hLast : right.EndsOnLast) (hLeft' : left'.Ordered key) (hRight' : right'.Ordered rightKey')
    (hLast' : right'.EndsOnLast) :
    (distinctBy (.unionBy key (.unmatched key rightKey keep left right)
        (.unmatched key rightKey' keep' left' right')) key).cursor.YieldsAll
      (Distinct.rowsFrom key none (mergeRows key (unmatched key rightKey keep left right).rows
        (unmatched key rightKey' keep' left' right').rows)) := by
  obtain ⟨R, hReads⟩ := unmatched_reads keep hLeft hRight hLast
  obtain ⟨R', hReads'⟩ := unmatched_reads keep' hLeft' hRight' hLast'
  obtain ⟨f, m, hSame⟩ := unmatchedCursor_simulates key rightKey keep left right
  obtain ⟨f', m', hSame'⟩ := unmatchedCursor_simulates key rightKey' keep' left' right'
  have hMerged : (distinct (union (unmatchedCursor key rightKey keep left right)
      (unmatchedCursor key rightKey' keep' left' right') key) key).YieldsAll _ :=
    (Distinct.reads (reads hReads hReads')).yieldsAll
  exact (Distinct.simulates (simulates hSame hSame')).yieldsAll hMerged

theorem danglingDirEntries_yield :
    ∃ out, db.findDanglingDirEntries.cursor.YieldsAll out ∧ (out.map DirEntry.id).Nodup ∧
      ∀ id, id ∈ out.map DirEntry.id ↔
        ∃ d ∈ db.unmodified DirEntry.id db.dentryTable.rows, d.id = id ∧ ¬ db.HasInode d := by
  have hLeft (kind : DirEntry → Bool) :
      ((db.dentryTable.get.ignoreByID DirEntry.id db.modificationEventsTable).whereBy
        kind).Ordered DirEntry.id :=
    (ignoreByID_ordered _ db.dentries_ordered db.dentries_ordered).whereBy kind
  have hFiles := Query.unmatched_ascending DirEntry.id FileInode.id (fun _ => true)
    (getInodes db.fileInodesTable) (hLeft DirEntry.dentryIsNotDirectory).rows_ascending
  have hDirs := Query.unmatched_ascending DirEntry.id DirInode.id (fun _ => true)
    db.dirInodesTable.get (hLeft DirEntry.dentryIsDirectory).rows_ascending
  have hOut := distinctUnion_yieldsAll (fun _ => true) (fun _ => true)
    (hLeft DirEntry.dentryIsNotDirectory) (getInodes_ordered db.fileInodesTable)
    (getInodes_endsOnLast db.fileInodesTable) (hLeft DirEntry.dentryIsDirectory)
    db.dirInodesTable.get_ordered db.dirInodesTable.get_endsOnLast
  obtain ⟨hKeys, hMem⟩ := Distinct.distinctRows_keys (Union.mergeRows_ascending hFiles hDirs)
  refine ⟨_, hOut, hKeys.imp ne_of_lt, fun id => ?_⟩
  rw [hMem, mem_map]
  constructor
  · rintro ⟨d, hIn, rfl⟩
    rw [Union.mem_mergeRows, mem_unmatched_dentries, mem_unmatched_dentries, ← and_or_left,
      ← not_hasInode_iff] at hIn
    exact ⟨d, hIn.1, rfl, hIn.2⟩
  · rintro ⟨d, hRow, rfl, hNone⟩
    refine ⟨d, ?_, rfl⟩
    rw [Union.mem_mergeRows, mem_unmatched_dentries, mem_unmatched_dentries, ← and_or_left,
      ← not_hasInode_iff]
    exact ⟨hRow, hNone⟩

/-! ## Duplicate IDs -/

/-- Inodes without a modification event, as the pairs that are grouped. -/
def inodePairs {α : Type} (objectID : α → EntryID) (saveNodeID : α → UInt16) (rows : List α) :
    List (EntryID × ℕ) :=
  (db.unmodified objectID rows).map fun file => (objectID file, (saveNodeID file).toNat)

section

variable {α : Type} {objectID : α → EntryID} {saveNodeID : α → UInt16} {rows : List α}

theorem inodePairs_ascending (hAsc : rows.Pairwise fun a b => objectID a ≤ objectID b) :
    (db.inodePairs objectID saveNodeID rows).Pairwise fun a b => a.1 ≤ b.1 :=
  pairwise_map.mpr (hAsc.filter _)

theorem inodePairs_eq : db.inodePairs objectID saveNodeID rows =
      (rows.map fun file => (objectID file, (saveNodeID file).toNat)).filter fun pair =>
        decide (¬ db.modificationEventsTable.Has pair.1) := by
  rw [filter_map]
  rfl

end

/-- What the groups are made of: a merge that ascends by the IDs only. -/
def duplicateSource : List (EntryID × ℕ) :=
  Union.mergeRows (fun pair => toLex pair)
    (db.inodePairs DirInode.id DirInode.saveNodeID
      (db.dirInodesTable.rows.filter DirInode.isNotDisposal))
    (db.inodePairs FileInode.id FileInode.saveNodeID (getInodes db.fileInodesTable).rows)

theorem duplicateSource_perm : db.duplicateSource.Perm
    (db.inodeRows.filter fun pair => decide (¬ db.modificationEventsTable.Has pair.1)) := by
  unfold duplicateSource inodeRows
  rw [inodePairs_eq, inodePairs_eq, filter_append]
  exact mergeRows_perm _ _

theorem duplicateSource_ascending : db.duplicateSource.Pairwise fun a b => a.1 ≤ b.1 :=
  mergeRows_ascending_of Prod.Lex.monotone_fst
    (db.inodePairs_ascending (db.dirInodesTable.rows_ascending.filter _))
    (db.inodePairs_ascending (getInodes_ordered db.fileInodesTable).rows_ascending)

theorem duplicateInodeIDs_yieldsAll : db.findDuplicateInodeIDs.cursor.YieldsAll
    ((groupRows duplicateIDGroup db.duplicateSource).filter fun pair => !pair.2.elems.isEmpty) := by
  have hDirs := ignoreByID_ordered db.modificationEventsTable
    (db.dirInodesTable.get_ordered.whereBy DirInode.isNotDisposal)
    (db.dirInodesTable.get_ordered.whereBy DirInode.isNotDisposal)
  have hFiles := ignoreByID_ordered db.modificationEventsTable
    (getInodes_ordered db.fileInodesTable) (getInodes_ordered db.fileInodesTable)
  obtain ⟨D, hD⟩ := reads _ hDirs.inputs hDirs.guarded
  obtain ⟨F, hF⟩ := reads _ hFiles.inputs hFiles.guarded
  have hOut : db.findDuplicateInodeIDs.cursor.YieldsAll db.findDuplicateInodeIDs.rows :=
    (Filter.reads (reads (reads (Select.reads hD) (Select.reads hF)))).yieldsAll
  have hRows : db.findDuplicateInodeIDs.rows =
      (groupRows duplicateIDGroup db.duplicateSource).filter fun pair =>
        !pair.2.elems.isEmpty := by
    show (groupRows duplicateIDGroup (mergeRows (fun pair => toLex pair)
      (((db.dirInodesTable.get.whereBy DirInode.isNotDisposal).ignoreByID DirInode.id
        db.modificationEventsTable).rows.map fun file => (file.id, file.saveNodeID.toNat))
      (((getInodes db.fileInodesTable).ignoreByID FileInode.id
        db.modificationEventsTable).rows.map fun file =>
          (file.id, file.saveNodeID.toNat)))).filter _ = _
    rw [ignoreByID_rows, ignoreByID_rows]
    rfl
  rwa [hRows] at hOut

variable {id : EntryID}

theorem mem_duplicateGroups {nodes : NodeIDSet} :
    (id, nodes) ∈ groupRows duplicateIDGroup db.duplicateSource ↔
      id ∈ db.duplicateSource.map Prod.fst ∧
        nodes = duplicateIDGroup.value (db.duplicateSource.filter fun pair => pair.1 = id) := by
  have hAsc := db.duplicateSource_ascending
  rw [groupRows_eq hAsc, mem_map, ← (Distinct.distinctRows_keys hAsc).2]
  constructor
  · rintro ⟨x, hx, hEq⟩
    cases hEq
    exact ⟨mem_map_of_mem hx, rfl⟩
  · rintro ⟨hIn, rfl⟩
    obtain ⟨x, hx, rfl⟩ := mem_map.mp hIn
    exact ⟨x, hx, rfl⟩

theorem duplicateGroups_nodup :
    ((groupRows duplicateIDGroup db.duplicateSource).map Prod.fst).Nodup := by
  have hAsc := db.duplicateSource_ascending
  rw [groupRows_eq hAsc, map_map]
  exact (Distinct.distinctRows_keys hAsc).1.imp ne_of_lt

theorem duplicateSource_filter_perm (hID : ¬ db.modificationEventsTable.Has id) :
    (db.duplicateSource.filter fun pair => pair.1 = id).Perm
      (db.inodeRows.filter fun pair => pair.1 = id) := by
  have hPerm := db.duplicateSource_perm.filter fun pair => decide (pair.1 = id)
  have hSame : (db.inodeRows.filter fun pair =>
      decide (pair.1 = id) && decide (¬ db.modificationEventsTable.Has pair.1)) =
      db.inodeRows.filter fun pair => pair.1 = id := by
    apply filter_congr
    intro pair _
    by_cases hEq : pair.1 = id
    · simp [hEq, hID]
    · simp [hEq]
  rwa [filter_filter, hSame] at hPerm

theorem mem_inodeRows_iff (hID : ¬ db.modificationEventsTable.Has id) (node : ℕ) :
    (id, node) ∈ db.inodeRows ↔
      node ∈ (db.duplicateSource.filter fun pair => pair.1 = id).map Prod.snd := by
  rw [((db.duplicateSource_filter_perm hID).map Prod.snd).mem_iff, mem_map]
  constructor
  · intro hIn
    exact ⟨(id, node), mem_filter.mpr ⟨hIn, decide_eq_true rfl⟩, rfl⟩
  · rintro ⟨⟨id', node'⟩, hIn, rfl⟩
    obtain ⟨hRow, hSame⟩ := mem_filter.mp hIn
    obtain rfl : id' = id := of_decide_eq_true hSame
    exact hRow

theorem not_has_of_duplicateSource (hIn : id ∈ db.duplicateSource.map Prod.fst) :
    ¬ db.modificationEventsTable.Has id := by
  obtain ⟨pair, hPair, rfl⟩ := mem_map.mp hIn
  exact of_decide_eq_true (mem_filter.mp (db.duplicateSource_perm.subset hPair)).2

theorem mem_duplicates {nodes : NodeIDSet} :
    ((id, nodes) ∈ (groupRows duplicateIDGroup db.duplicateSource).filter fun pair =>
        !pair.2.elems.isEmpty) ↔
      nodes = duplicateIDGroup.value (db.duplicateSource.filter fun pair => pair.1 = id) ∧
        1 < (db.duplicateSource.filter fun pair => pair.1 = id).length := by
  have hSome : (!nodes.elems.isEmpty) = true ↔ ∃ n, n ∈ nodes := by
    rw [Bool.not_eq_true', isEmpty_eq_false_iff_exists_mem]
    rfl
  rw [mem_filter, mem_duplicateGroups, hSome]
  constructor
  · rintro ⟨⟨-, rfl⟩, hMem⟩
    exact ⟨rfl, DuplicateIDGroup.exists_mem_value.mp hMem⟩
  · rintro ⟨rfl, hMany⟩
    obtain ⟨pair, hPair⟩ := exists_mem_of_length_pos (Nat.zero_lt_of_lt hMany)
    obtain ⟨hIn, hID⟩ := mem_filter.mp hPair
    exact ⟨⟨mem_map.mpr ⟨pair, hIn, of_decide_eq_true hID⟩, rfl⟩,
      DuplicateIDGroup.exists_mem_value.mpr hMany⟩

theorem duplicateInodeIDs_yield :
    ∃ out, db.findDuplicateInodeIDs.cursor.YieldsAll out ∧ (out.map Prod.fst).Nodup ∧
      (∀ id, id ∈ out.map Prod.fst ↔ ¬ db.modificationEventsTable.Has id ∧
        1 < (db.inodeRows.filter fun pair => pair.1 = id).length) ∧
      ∀ id nodes, (id, nodes) ∈ out →
        (∀ node ∈ nodes, (id, node) ∈ db.inodeRows) ∧
          ∀ node, node ≠ 0 → (id, node) ∈ db.inodeRows → node ∈ nodes := by
  refine ⟨_, db.duplicateInodeIDs_yieldsAll,
    db.duplicateGroups_nodup.sublist (filter_sublist.map Prod.fst), fun id => ?_, ?_⟩
  · constructor
    · intro hIn
      obtain ⟨⟨id, nodes⟩, hOut, rfl⟩ := mem_map.mp hIn
      have hSource := (db.mem_duplicateGroups.mp (mem_filter.mp hOut).1).1
      have hID := db.not_has_of_duplicateSource hSource
      rw [← (db.duplicateSource_filter_perm hID).length_eq]
      exact ⟨hID, (db.mem_duplicates.mp hOut).2⟩
    · rintro ⟨hID, hMany⟩
      rw [← (db.duplicateSource_filter_perm hID).length_eq] at hMany
      exact mem_map.mpr ⟨(id, _), db.mem_duplicates.mpr ⟨rfl, hMany⟩, rfl⟩
  · intro id nodes hOut
    have hSource := (db.mem_duplicateGroups.mp (mem_filter.mp hOut).1).1
    have hRows := db.mem_inodeRows_iff (db.not_has_of_duplicateSource hSource)
    obtain ⟨rfl, hMany⟩ := db.mem_duplicates.mp hOut
    refine ⟨fun node hNode => ?_, fun node hZero hRow => ?_⟩
    · rw [hRows]
      exact (DuplicateIDGroup.mem_value hMany).1 hNode
    · rw [hRows] at hRow
      exact (DuplicateIDGroup.mem_value hMany).2 hZero hRow

/-! ## All eight checks -/

/-- The checks give the rows they are named after. -/
theorem checks_yield :
    db.findOrphanedDirInodes.cursor.YieldsAll
      ((db.unmodified DirInode.id db.dirInodesTable.rows).filter fun inode =>
        (inode.id != .root && inode.id != .disposal) &&
          decide (inode.id ∉ db.dentryTable.rows.map DirEntry.id)) ∧
    db.findOrphanedFileInodes.cursor.YieldsAll
      ((db.unmodified FileInode.id (getInodes db.fileInodesTable).rows).filter fun inode =>
        decide (inode.id ∉ db.dentryTable.rows.map DirEntry.id)) ∧
    db.findOrphanedChunks.cursor.YieldsAll
      ((db.unmodified Chunk.id db.chunksTable.rows).filter fun chunk =>
        decide (chunk.id ∉ db.fileInodesTable.rows.map FileInode.id)) ∧
    db.findInodesWithoutContDir.cursor.YieldsAll
      ((db.unmodified DirInode.id db.dirInodesTable.rows).filter fun inode =>
        decide (inode.id ∉ db.contDirsTable.rows.map ContDir.id)) ∧
    db.findOrphanedContDirs.cursor.YieldsAll
      ((db.unmodified ContDir.id db.contDirsTable.rows).filter fun contDir =>
        decide (contDir.id ∉ db.dirInodesTable.rows.map DirInode.id)) ∧
    db.findOrphanedFsIDFiles.cursor.YieldsAll
      ((db.unmodified FsID.id db.fsIDsTable.rows).filter fun fsID =>
        decide (fsID.joinOrphanedFsIDs ∉ db.dentryTable.rows.map DirEntry.joinOrphanedFsIDs)) ∧
    (∃ out, db.findDanglingDirEntries.cursor.YieldsAll out ∧ (out.map DirEntry.id).Nodup ∧
      ∀ id, id ∈ out.map DirEntry.id ↔
        ∃ d ∈ db.unmodified DirEntry.id db.dentryTable.rows, d.id = id ∧ ¬ db.HasInode d) ∧
    ∃ out, db.findDuplicateInodeIDs.cursor.YieldsAll out ∧ (out.map Prod.fst).Nodup ∧
      (∀ id, id ∈ out.map Prod.fst ↔ ¬ db.modificationEventsTable.Has id ∧
        1 < (db.inodeRows.filter fun pair => pair.1 = id).length) ∧
      ∀ id nodes, (id, nodes) ∈ out →
        (∀ node ∈ nodes, (id, node) ∈ db.inodeRows) ∧
          ∀ node, node ≠ 0 → (id, node) ∈ db.inodeRows → node ∈ nodes := by
  have hDentries := db.dentryTable.get_endsOnLast
  have hDirInodes := db.dirInodesTable.get_ordered
  have hFileInodes := getInodes_ordered db.fileInodesTable
  have hDirRows := hDirInodes.rows_ascending.filter fun x =>
    decide (¬ db.modificationEventsTable.Has x.id)
  have hFileRows := hFileInodes.rows_ascending.filter fun x =>
    decide (¬ db.modificationEventsTable.Has x.id)
  refine ⟨?_, ?_, ?_, ?_, ?_, ?_, db.danglingDirEntries_yield, db.duplicateInodeIDs_yield⟩
  · exact db.missingPartner_yieldsAll hDirInodes hDirRows db.dentries_ordered hDentries
      fun x => by rw [Bool.and_eq_true, decide_eq_true_iff]; rfl
  · exact db.missingPartner_yieldsAll hFileInodes hFileRows db.dentries_ordered hDentries
      fun _ => decide_iff_true_and
  · apply db.missingPartner_yieldsAll db.chunks_ordered
      (db.chunks_ordered.rows_ascending.filter _) hFileInodes
      (getInodes_endsOnLast db.fileInodesTable)
    intro chunk
    rw [mem_getInodes_ids]
    exact decide_iff_true_and
  · exact db.missingPartner_yieldsAll hDirInodes hDirRows db.contDirsTable.get_ordered
      db.contDirsTable.get_endsOnLast fun _ => decide_iff_true_and
  · exact db.missingPartner_yieldsAll db.contDirsTable.get_ordered
      (db.contDirsTable.rows_ascending.filter _) hDirInodes db.dirInodesTable.get_endsOnLast
      fun _ => decide_iff_true_and
  · exact db.missingPartner_yieldsAll db.fsIDs_ordered
      ((db.fsIDsTable.rows_ascending.imp FsID.joinOrphanedFsIDs_le).filter _)
      (db.dentryTable.get_ordered.weaken fun _ _ => joinOrphanedFsIDs_le) hDentries
      fun _ => decide_iff_true_and

/-- The inode of the disposal directory, which every metadata node has. -/
def disposalInode (saveNodeID : UInt16) : DirInode := ⟨.disposal, saveNodeID, 0, 2⟩

def disposalOnTwoNodes : FsckDB where
  dentryTable := .ofBase [] .nil TableRows.nil_size
  fileInodesTable := .ofBase [] .nil TableRows.nil_size
  dirInodesTable := .ofBase [disposalInode 1, disposalInode 2] (by simp [disposalInode]) (by simp)
  chunksTable := .ofBase [] .nil TableRows.nil_size
  contDirsTable := .ofBase [] .nil TableRows.nil_size
  fsIDsTable := .ofBase [] .nil TableRows.nil_size
  modificationEventsTable := ⟨[], .nil, TableRows.nil_size⟩

/-- The disposal directory is on two nodes, and its ID is not among the duplicates. -/
theorem not_checks_yield :
    disposalOnTwoNodes.findDuplicateInodeIDs.cursor.YieldsAll [] ∧
      ¬ disposalOnTwoNodes.modificationEventsTable.Has .disposal ∧
      (disposalOnTwoNodes.dirInodesTable.rows.filter fun inode => inode.id = .disposal).length =
        2 := by
  have hRows : disposalOnTwoNodes.dirInodesTable.rows = [disposalInode 1, disposalInode 2] :=
    TableRows.rows_ofBase _ _
  have hNoFiles : disposalOnTwoNodes.fileInodesTable.rows = [] := TableRows.rows_ofBase _ _
  have hFiles : (getInodes disposalOnTwoNodes.fileInodesTable).rows = [] :=
    sublist_nil.mp (hNoFiles ▸ getInodes_sublist disposalOnTwoNodes.fileInodesTable)
  refine ⟨?_, not_mem_nil, ?_⟩
  · have hSource : disposalOnTwoNodes.duplicateSource = [] := by
      unfold duplicateSource
      rw [mergeRows_eq_nil, hRows, hFiles]
      exact ⟨rfl, rfl⟩
    have hOut := disposalOnTwoNodes.duplicateInodeIDs_yieldsAll
    rwa [hSource, groupRows_nil] at hOut
  · rw [hRows]
    rfl

end FsckDB

end Fhgfs.Fsck

/-!
## Dentries without a dentry-by-ID file

The join is by ID, parent, device, node and inode number. Both tables ascend by their primary
keys, which have the node in front of the device and only the lower half of the inode number. The
check is exact as long as the walk of the join comes to a row of every dentry that has one.
-/

namespace Fhgfs.Fsck

abbrev ByIDFileKey : Type := EntryID ×ₗ EntryID ×ₗ ℤ ×ₗ ℕ ×ₗ ℕ

def DirEntry.joinByIDFile (d : DirEntry) : ByIDFileKey :=
  toLex (d.id, toLex (d.parentDirID, toLex (d.saveDevice.toInt, toLex (d.saveNodeID.toNat,
    d.saveInode.toNat))))

def FsID.joinByIDFile (f : FsID) : ByIDFileKey :=
  toLex (f.id, toLex (f.parentDirID, toLex (f.saveDevice.toInt, toLex (f.saveNodeID.toNat,
    f.saveInode.toNat))))

theorem joinByIDFile_eq_iff {d : DirEntry} {f : FsID} : f.joinByIDFile = d.joinByIDFile ↔
    f.id = d.id ∧ f.parentDirID = d.parentDirID ∧ f.saveDevice = d.saveDevice ∧
      f.saveNodeID = d.saveNodeID ∧ f.saveInode = d.saveInode := by
  rw [← Int32.toInt_inj, ← UInt16.toNat_inj, ← UInt64.toNat_inj]
  simp only [FsID.joinByIDFile, DirEntry.joinByIDFile, EmbeddingLike.apply_eq_iff_eq, Prod.mk.injEq]

namespace FsckDB

variable (db : FsckDB)

def findDirEntriesWithBrokenByIDFile : Query DirEntry :=
  .unmatched DirEntry.joinByIDFile FsID.joinByIDFile
    (fun dentry => dentry.hasInlinedInode && dentry.parentDirID != .disposal)
    (db.dentryTable.get.ignoreByID DirEntry.id db.modificationEventsTable) db.fsIDsTable.get

/-- No row of the fsID table has the dentry's ID, parent, device, node and inode number. -/
def ByIDFileMissing (dentry : DirEntry) : Prop :=
  ∀ fsID ∈ db.fsIDsTable.rows, ¬ (fsID.id = dentry.id ∧ fsID.parentDirID = dentry.parentDirID ∧
    fsID.saveDevice = dentry.saveDevice ∧ fsID.saveNodeID = dentry.saveNodeID ∧
    fsID.saveInode = dentry.saveInode)

instance (dentry : DirEntry) : Decidable (db.ByIDFileMissing dentry) :=
  inferInstanceAs (Decidable (∀ _ ∈ _, _))

def brokenDirEntries : List DirEntry :=
  (db.unmodified DirEntry.id db.dentryTable.rows).filter fun dentry =>
    dentry.hasInlinedInode && dentry.parentDirID != .disposal && decide (db.ByIDFileMissing dentry)

theorem byIDFileMissing_iff {dentry : DirEntry} : db.ByIDFileMissing dentry ↔
    dentry.joinByIDFile ∉ db.fsIDsTable.rows.map FsID.joinByIDFile := by
  rw [List.mem_map, not_exists]
  constructor
  · rintro hNone fsID ⟨hIn, hKey⟩
    exact hNone fsID hIn (joinByIDFile_eq_iff.mp hKey)
  · intro hNone fsID hIn hSame
    exact hNone fsID ⟨hIn, joinByIDFile_eq_iff.mpr hSame⟩

/-- Every unmodified dentry with an inlined inode, outside of the disposal directory, that has a
row in the fsID table comes to one. -/
def MeetsByIDFiles : Prop :=
  LeftJoinEq.Meets DirEntry.joinByIDFile FsID.joinByIDFile
    (fun dentry => (dentry.hasInlinedInode && dentry.parentDirID != .disposal) = true ∧
      dentry.joinByIDFile ∈ db.fsIDsTable.rows.map FsID.joinByIDFile)
    none db.fsIDsTable.rows (db.unmodified DirEntry.id db.dentryTable.rows)

def fileID : EntryID := ⟨7, 1, 1, by decide⟩

/-- A dentry-by-ID file of the file in the root directory. -/
def fileByID (saveNodeID : UInt16) (saveDevice : Int32) : FsID :=
  ⟨fileID, .root, saveNodeID, saveDevice, 9⟩

def fileDentry : DirEntry := ⟨fileID, .root, 2, 3, 9, 1, .REGULARFILE, true⟩

/-- A database with this dentry and two dentry-by-ID files. -/
def fileOnNodes (device1 device2 : Int32) : FsckDB where
  dentryTable := .ofBase [fileDentry] (List.pairwise_singleton _ _) (by simp)
  fileInodesTable := .ofBase [] .nil TableRows.nil_size
  dirInodesTable := .ofBase [] .nil TableRows.nil_size
  chunksTable := .ofBase [] .nil TableRows.nil_size
  contDirsTable := .ofBase [] .nil TableRows.nil_size
  fsIDsTable := .ofBase [fileByID 1 device1, fileByID 2 device2]
    (by simp [FsID.pkey, fileByID, Prod.Lex.toLex_le_toLex]) (by simp)
  modificationEventsTable := ⟨[], .nil, TableRows.nil_size⟩

end FsckDB

end Fhgfs.Fsck
