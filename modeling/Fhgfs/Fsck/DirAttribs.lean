import Fhgfs.Fsck.DentryTable
import Fhgfs.Fsck.BrokenByIDFiles

/-!
# Wrong attributes of directories

`findWrongInodeDirAttribs` counts the rows of the index for each directory, and compares the
counts with the attributes in its inode. What it compares them with are the dentries as long as
the index follows the table of the dentries.
-/

namespace Fhgfs.Fsck

open LeftJoinEq List ByParent Bool
open Cursor (Reads)

structure InodeAttribs where
  size : UInt64
  nlinks : UInt64
deriving DecidableEq

namespace WrongDirInodeGrouper

def step (state : InodeAttribs) (row : DirInode × Option ByParent) : InodeAttribs :=
  match row.2 with
  | none => state
  | some dentry =>
    { size := state.size + 1
      nlinks := if dentry.entryType = .DIRECTORY then state.nlinks + 1 else state.nlinks }

def finish (state : InodeAttribs) : InodeAttribs × InodeAttribs :=
  ({ state with nlinks := state.nlinks + 2 }, ⟨0, 0⟩)

end WrongDirInodeGrouper

def wrongDirInodeGrouper : GroupOps (DirInode × Option ByParent) EntryID DirInode InodeAttribs where
  State := InodeAttribs
  initial := ⟨0, 0⟩
  key row := row.1.id
  project row := row.1
  step := WrongDirInodeGrouper.step
  finish := WrongDirInodeGrouper.finish
  finish_asNew _ _ := rfl

namespace FsckDB

variable (db : FsckDB)

/-- The check over the index that has these rows. -/
def findWrongInodeDirAttribs (byParent : TableRows ByParent.pkey) :
    Query (DirInode × InodeAttribs) :=
  .whereBy
    (.groupBy
      (.leftJoinBy DirInode.id ByParent.parent
        ((db.dirInodesTable.get.ignoreByID DirInode.id db.modificationEventsTable).whereBy
          DirInode.isNotDisposal)
        byParent.get)
      wrongDirInodeGrouper)
    fun row => row.1.size != row.2.size || row.1.numHardlinks != row.2.nlinks

def checkedDirInodes : List DirInode :=
  (db.unmodified DirInode.id db.dirInodesTable.rows).filter DirInode.isNotDisposal

/-- What the attributes of a directory ought to be. -/
def dirAttribs (id : EntryID) : InodeAttribs where
  size := .ofNat (db.dentryTable.rows.countP fun dentry => dentry.parentDirID = id)
  nlinks := .ofNat (db.dentryTable.rows.countP fun dentry =>
    decide (dentry.parentDirID = id) && decide (dentry.entryType = .DIRECTORY)) + 2

end FsckDB

/-! ## The groups -/

section Join

variable {α β κ : Type} [LinearOrder κ] {leftKey : α → κ} {rightKey : β → κ}

theorem fst_of_mem_joinRow {r : List β} {x : α} {row : α × Option β}
    (h : row ∈ joinRow leftKey rightKey r x) : row.1 = x := by
  unfold joinRow at h
  split at h
  · rw [mem_singleton.mp h]
  · obtain ⟨y, -, rfl⟩ := mem_map.mp h
    rfl

theorem filter_joinRows (p : α → Bool) (l : List α) (r : List β) :
    ((joinRows leftKey rightKey l r).filter fun row => p row.1) =
      joinRows leftKey rightKey (l.filter p) r := by
  induction l with
  | nil => rfl
  | cons x l ih =>
    rw [joinRows_cons, filter_append, ih]
    cases hp : p x with
    | true =>
      have hAll : (joinRow leftKey rightKey r x).filter (fun row => p row.1) =
          joinRow leftKey rightKey r x := by
        rw [filter_eq_self]
        exact fun row hIn => (fst_of_mem_joinRow hIn).symm ▸ hp
      rw [hAll, filter_cons_of_pos hp, joinRows_cons]
    | false =>
      have hNone : (joinRow leftKey rightKey r x).filter (fun row => p row.1) = [] := by
        rw [filter_eq_nil_iff]
        exact fun row hIn => by rw [fst_of_mem_joinRow hIn, hp]; exact false_ne_true
      rw [hNone, nil_append, filter_cons_of_neg (by rw [hp]; exact false_ne_true)]

theorem fst_of_mem_joinRows {l : List α} {r : List β} {row : α × Option β}
    (h : row ∈ joinRows leftKey rightKey l r) : row.1 ∈ l := by
  obtain ⟨x, hx, hRow⟩ := mem_flatMap.mp h
  rwa [fst_of_mem_joinRow hRow]

theorem exists_mem_joinRows {l : List α} (r : List β) {x : α} (hx : x ∈ l) :
    ∃ row ∈ joinRows leftKey rightKey l r, row.1 = x := by
  have hNe : joinRow leftKey rightKey r x ≠ [] := joinRow_ne_nil r x
  obtain ⟨row, hRow⟩ := exists_mem_of_ne_nil _ hNe
  exact ⟨row, mem_flatMap.mpr ⟨x, hx, hRow⟩, fst_of_mem_joinRow hRow⟩

theorem joinRows_ascending {key : α → κ} {l : List α} (r : List β)
    (hAsc : l.Pairwise fun a b => key a ≤ key b) :
    (joinRows leftKey rightKey l r).Pairwise fun a b => key a.1 ≤ key b.1 := by
  induction l with
  | nil => exact List.Pairwise.nil
  | cons x l ih =>
    obtain ⟨hx, hl⟩ := pairwise_cons.mp hAsc
    rw [joinRows_cons, pairwise_append]
    refine ⟨?_, ih hl, fun a ha b hb => ?_⟩
    · apply pairwise_of_forall_mem_list
      intro a ha b hb
      rw [fst_of_mem_joinRow ha, fst_of_mem_joinRow hb]
    · rw [fst_of_mem_joinRow ha]
      exact hx _ (fst_of_mem_joinRows hb)

theorem countP_joinRow (q : β → Bool) (r : List β) (x : α) :
    (joinRow leftKey rightKey r x).countP (fun row => row.2.any q) =
      (r.filter fun y => rightKey y = leftKey x).countP q := by
  unfold joinRow
  split
  · rename_i hNil
    rw [hNil]
    rfl
  · rw [countP_map]
    rfl

end Join

namespace WrongDirInodeGrouper

def isPartner (row : DirInode × Option ByParent) : Bool := row.2.any fun _ => true

def isSubdir (row : DirInode × Option ByParent) : Bool :=
  row.2.any fun dentry => decide (dentry.entryType = .DIRECTORY)

section

variable (rows : List (DirInode × Option ByParent))

theorem foldl_step (state : InodeAttribs) :
    rows.foldl step state = { size := state.size + .ofNat (rows.countP isPartner)
                              nlinks := state.nlinks + .ofNat (rows.countP isSubdir) } := by
  induction rows generalizing state with
  | nil => simp
  | cons row rows ih =>
    rw [foldl_cons, ih]
    obtain ⟨inode, _ | dentry⟩ := row
    · rw [countP_cons_of_neg Bool.false_ne_true, countP_cons_of_neg Bool.false_ne_true]
      rfl
    have hPartner : ((inode, some dentry) :: rows).countP isPartner =
        rows.countP isPartner + 1 := countP_cons_of_pos rfl
    rw [hPartner, UInt64.ofNat_add, UInt64.add_comm (UInt64.ofNat _), ← UInt64.add_assoc]
    by_cases hDir : dentry.entryType = .DIRECTORY
    · have hSubdir : ((inode, some dentry) :: rows).countP isSubdir =
          rows.countP isSubdir + 1 := countP_cons_of_pos (decide_eq_true hDir)
      rw [hSubdir, UInt64.ofNat_add, UInt64.add_comm (UInt64.ofNat _), ← UInt64.add_assoc]
      simp only [step, hDir, if_true]
      rfl
    · have hOther : ((inode, some dentry) :: rows).countP isSubdir = rows.countP isSubdir :=
        countP_cons_of_neg fun h => hDir (of_decide_eq_true h)
      rw [hOther]
      simp only [step, hDir, if_false]
      rfl

theorem value_eq : wrongDirInodeGrouper.value rows =
    { size := .ofNat (rows.countP isPartner), nlinks := .ofNat (rows.countP isSubdir) + 2 } := by
  show (finish (rows.foldl step ⟨0, 0⟩)).1 = _
  rw [foldl_step]
  simp [finish]

end

end WrongDirInodeGrouper

/-! ## The check -/

namespace FsckDB

variable (db : FsckDB)

theorem byParent_ordered (byParent : TableRows pkey) : byParent.get.Ordered parent :=
  byParent.get_ordered.weaken fun _ _ => Prod.Lex.monotone_fst _ _

theorem wrongInodeDirAttribs_yieldsAll (byParent : TableRows pkey) :
    (db.findWrongInodeDirAttribs byParent).cursor.YieldsAll
      ((Group.groupRows wrongDirInodeGrouper (joinRows DirInode.id parent
        db.checkedDirInodes byParent.rows)).filter fun row =>
          row.1.size != row.2.size || row.1.numHardlinks != row.2.nlinks) := by
  have hLeft := (ignoreByID_ordered db.modificationEventsTable db.dirInodesTable.get_ordered
    db.dirInodesTable.get_ordered).whereBy DirInode.isNotDisposal
  have hRight := byParent_ordered byParent
  obtain ⟨R, hReads⟩ := Query.reads (db.findWrongInodeDirAttribs byParent)
    ⟨hLeft.inputs, hRight.inputs, hLeft.rows_ascending, hRight.rows_ascending⟩
    ⟨hLeft.guarded, hRight.guarded, noStale_of_getLast byParent.get_endsOnLast,
      fun _ => trivial⟩
  have hRows : (db.findWrongInodeDirAttribs byParent).rows =
      (Group.groupRows wrongDirInodeGrouper (joinRows DirInode.id parent
        db.checkedDirInodes byParent.rows)).filter fun row =>
          row.1.size != row.2.size || row.1.numHardlinks != row.2.nlinks := by
    have hChecked : ((db.dirInodesTable.get.ignoreByID DirInode.id
        db.modificationEventsTable).rows.filter DirInode.isNotDisposal) = db.checkedDirInodes := by
      rw [ignoreByID_rows]
      rfl
    rw [← hChecked]
    rfl
  rw [← hRows]
  exact hReads.yieldsAll

theorem joinRows_of_alone {inode : DirInode}
    (hAlone : (db.checkedDirInodes.filter fun i => i.id = inode.id) = [inode]) (r : List ByParent) :
    ((joinRows DirInode.id parent db.checkedDirInodes r).filter
      fun row => row.1.id = inode.id) = joinRow DirInode.id parent r inode := by
  rw [filter_joinRows fun i : DirInode => decide (i.id = inode.id), hAlone,
    joinRows_cons, joinRows_nil, append_nil]

theorem countP_byParent {links : List ByParent}
    (hLinks : (links : Multiset ByParent) = (db.dentryTable.rows.map DirEntry.link : List _))
    (id : EntryID) (q : ByParent → Bool) : (links.filter fun link => link.parent = id).countP q =
      db.dentryTable.rows.countP fun dentry =>
        decide (dentry.parentDirID = id) && q dentry.link := by
  have hPerm := (Multiset.coe_eq_coe.mp hLinks).filter fun link => decide (link.parent = id)
  rw [hPerm.countP_eq, filter_map, countP_map, countP_filter]
  apply countP_congr
  intro dentry _
  rw [Bool.and_comm]
  rfl

theorem value_of_alone {inode : DirInode}
    (hAlone : (db.checkedDirInodes.filter fun i => i.id = inode.id) = [inode])
    {links : List ByParent}
    (hLinks : (links : Multiset ByParent) = (db.dentryTable.rows.map DirEntry.link : List _)) :
    wrongDirInodeGrouper.value ((joinRows DirInode.id parent db.checkedDirInodes links).filter
        fun row => row.1.id = inode.id) = db.dirAttribs inode.id := by
  rw [db.joinRows_of_alone hAlone, WrongDirInodeGrouper.value_eq]
  unfold WrongDirInodeGrouper.isPartner WrongDirInodeGrouper.isSubdir dirAttribs
  rw [countP_joinRow, countP_joinRow, db.countP_byParent hLinks, db.countP_byParent hLinks]
  simp only [Bool.and_true]
  rfl

theorem wrongInodeDirAttribs_yield {byParent : TableRows pkey}
    (hLinks : (byParent.rows : Multiset ByParent) =
      (db.dentryTable.rows : Multiset DirEntry).map DirEntry.link) :
    ∃ out, (db.findWrongInodeDirAttribs byParent).cursor.YieldsAll out ∧
      (out.map fun row => row.1.id).Nodup ∧ (∀ row ∈ out, row.1 ∈ db.checkedDirInodes) ∧
      ∀ inode, (db.checkedDirInodes.filter fun i => i.id = inode.id) = [inode] →
        ∀ attribs, (inode, attribs) ∈ out ↔ attribs = db.dirAttribs inode.id ∧
          (inode.size ≠ attribs.size ∨ inode.numHardlinks ≠ attribs.nlinks) := by
  have hAsc : (joinRows DirInode.id parent db.checkedDirInodes
      byParent.rows).Pairwise fun a b => a.1.id ≤ b.1.id :=
    joinRows_ascending byParent.rows ((db.dirInodesTable.rows_ascending.filter _).filter _)
  obtain ⟨hKeys, hMem⟩ := Distinct.distinctRows_keys hAsc
  have hGroups : Group.groupRows wrongDirInodeGrouper _ = _ := groupRows_eq hAsc
  refine ⟨_, db.wrongInodeDirAttribs_yieldsAll byParent, ?_, ?_, ?_⟩
  · rw [hGroups]
    apply List.Nodup.sublist (filter_sublist.map _)
    rw [map_map]
    exact hKeys.imp ne_of_lt
  · intro row hRow
    rw [hGroups] at hRow
    obtain ⟨x, hx, rfl⟩ := mem_map.mp (mem_filter.mp hRow).1
    exact fst_of_mem_joinRows ((Distinct.rowsFrom_sublist none _).subset hx)
  · intro inode hAlone attribs
    have hIn : inode ∈ db.checkedDirInodes := (mem_filter.mp (hAlone ▸ mem_singleton_self inode)).1
    rw [mem_filter, hGroups, mem_map, or_eq_true, bne_iff_ne, bne_iff_ne]
    apply and_congr_left
    intro _
    constructor
    · rintro ⟨x, -, hRow⟩
      cases hRow
      exact db.value_of_alone hAlone hLinks
    · rintro rfl
      obtain ⟨row, hRow, rfl⟩ :=
        @exists_mem_joinRows _ _ _ _ DirInode.id parent _ byParent.rows _ hIn
      obtain ⟨x, hx, hID⟩ := mem_map.mp ((hMem row.1.id).mpr (mem_map_of_mem hRow))
      have hSame : x.1 = row.1 := by
        have hChecked := fst_of_mem_joinRows ((Distinct.rowsFrom_sublist none _).subset hx)
        have hMember : x.1 ∈ db.checkedDirInodes.filter fun i => i.id = row.1.id :=
          mem_filter.mpr ⟨hChecked, decide_eq_true hID⟩
        rw [hAlone] at hMember
        exact mem_singleton.mp hMember
      refine ⟨x, hx, Prod.ext hSame ?_⟩
      have hValue := db.value_of_alone hAlone hLinks
      rw [← hSame] at hValue ⊢
      exact hValue

end FsckDB

namespace FsckDBDentryTable

/-- The index has one row for each dentry in all states of a run of calls if and only if every
operation keeps it, and the check then compares the directories with the dentries. -/
theorem indexFollows_throughout_iff {T : DentryTableType} {calls : List DentryCall}
    {t : FsckDBDentryTable} (hRun : calls.foldlM (call T) create = .ok t)
    (hLen : 2 * (calls.flatMap DentryCall.ops).length < 2 ^ 64) :
    (Run.Throughout history (IndexFollows T) [] (calls.flatMap DentryCall.ops) ↔
      Run.EveryStep history (KeepsIndex T) [] (calls.flatMap DentryCall.ops)) ∧
    ∀ (db : FsckDB) (byParent : TableRows ByParent.pkey),
      (byParent.rows : Multiset ByParent) =
        (db.dentryTable.rows : Multiset DirEntry).map DirEntry.link →
      ∃ out, (db.findWrongInodeDirAttribs byParent).cursor.YieldsAll out ∧
        (out.map fun row => row.1.id).Nodup ∧ (∀ row ∈ out, row.1 ∈ db.checkedDirInodes) ∧
        ∀ inode, (db.checkedDirInodes.filter fun i => i.id = inode.id) = [inode] →
          ∀ attribs, (inode, attribs) ∈ out ↔ attribs = db.dirAttribs inode.id ∧
            (inode.size ≠ attribs.size ∨ inode.numHardlinks ≠ attribs.nlinks) :=
  ⟨indexFollows_throughout_iff_of_run ((run_calls T calls).symm.trans hRun) hLen,
    fun db _ hLinks => db.wrongInodeDirAttribs_yield hLinks⟩

/-! ## A dentry that is removed -/

def rowItems {Data κ : Type} [LinearOrder κ] (pkey : Data → κ) : ItemType Data κ where
  pkey := pkey
  size := 80
  BUFFER_SIZE := 4 * 1024 * 1024
  size_pos := by simp
  two_le := by simp
  stdSort := List.insertionSort fun a b => pkey a ≤ pkey b
  stdSort_perm := List.perm_insertionSort _
  stdSort_ascending l := by
    have : Std.Total fun a b : Data => pkey a ≤ pkey b := ⟨fun a b => le_total (pkey a) (pkey b)⟩
    have : IsTrans Data fun a b => pkey a ≤ pkey b := ⟨fun _ _ _ => le_trans⟩
    exact List.pairwise_insertionSort _ l

def rowTable {Data κ : Type} [LinearOrder κ] (pkey : Data → κ) : TableType Data κ where
  item := rowItems pkey
  key := rowItems id
  key_pkey _ := rfl
  AllowDuplicateKeys := false
  fragmentSize := 1024 * 1024

def rowTables : DentryTableType := ⟨rowTable DirEntry.pkey, rowTable ByParent.pkey, rfl, rfl⟩

theorem file_known : (1 : UInt32) = 0 → (1 : UInt32) = 0 ∧ (7 : UInt32).toNat ≤ 2 := nofun

def file (seqNo : UInt64) : DirEntry :=
  ⟨⟨7, 1, 1, file_known⟩, .root, 1, 3, 9, seqNo, .REGULARFILE, true⟩

/-- The remove leaves the row of the file in the index, and its directory would get one entry
too many. -/
theorem not_indexFollows :
    (run rowTables [.insert (file 1), .remove (file 1)] >>= get rowTables) = .ok [] ∧
      (run rowTables [.insert (file 1), .remove (file 1)] >>= getByParent rowTables) =
        .ok [(file 1).link] ∧
      ¬ IndexFollows rowTables [.insert (file 1), .remove (file 1)] := by
  have hGet : (run rowTables [.insert (file 1), .remove (file 1)] >>= get rowTables) = .ok [] := rfl
  have hGetByParent : (run rowTables [.insert (file 1), .remove (file 1)] >>=
      getByParent rowTables) = .ok [(file 1).link] := rfl
  refine ⟨hGet, hGetByParent, ?_⟩
  rintro ⟨t, dentries, links, hRun, hDentries, hLinks, hSame⟩
  rw [hRun] at hGet hGetByParent
  rw [Except.ok.inj (hDentries.symm.trans hGet),
    Except.ok.inj (hLinks.symm.trans hGetByParent)] at hSame
  exact Multiset.singleton_ne_zero _ hSame

/-- The remove of a dentry that is not in the table. -/
theorem indexFollows_throughout_absent : Run.Throughout history (IndexFollows rowTables) []
    [.insert (file 1), .remove (file 2)] := by
  have hCalls : [DentryCall.insert [file 1], .remove [file 2]].flatMap DentryCall.ops =
      [.insert (file 1), .remove (file 2)] := rfl
  rw [← hCalls]
  refine (indexFollows_throughout_iff rfl (by rw [hCalls]; simp)).1.mpr
    ⟨trivial, fun t hRun => ?_, trivial⟩
  obtain rfl := Except.ok.inj hRun
  rfl

end FsckDBDentryTable

end Fhgfs.Fsck
