import Fhgfs.Fsck.TableQuery
import Mathlib.Data.Prod.Lex

/-!
# The tables of the fsck database

The rows that the checks read, with the keys that keep the tables ascending, and the pieces that
most checks are made of: `ignoreByID` leaves out the rows whose ID has a modification event, and
`getInodes` merges neighbouring rows of one inlined inode. Fields that no check here reads are
left out. The node IDs are `uint32_t` in the rows, and each comes from a `uint16_t`.
-/

namespace Fhgfs.Fsck

open LeftJoinEq
open Cursor (Reads Position)

/-- The constructor throws for a special ID that is none of the three. -/
structure EntryID where
  sequence : UInt32
  timestamp : UInt32
  nodeID : UInt32
  known : nodeID = 0 → timestamp = 0 ∧ sequence.toNat ≤ 2

namespace EntryID

def toTuple (e : EntryID) : ℕ ×ₗ ℕ ×ₗ ℕ :=
  toLex (e.sequence.toNat, toLex (e.timestamp.toNat, e.nodeID.toNat))

theorem toTuple_injective : Function.Injective toTuple := by
  rintro ⟨a, b, c, _⟩ ⟨a', b', c', _⟩ h
  have hTuple : (a.toNat, b.toNat, c.toNat) = (a'.toNat, b'.toNat, c'.toNat) := h
  rw [Prod.mk.injEq, Prod.mk.injEq, UInt32.toNat_inj, UInt32.toNat_inj, UInt32.toNat_inj] at hTuple
  obtain ⟨rfl, rfl, rfl⟩ := hTuple
  rfl

instance : LinearOrder EntryID := LinearOrder.lift' toTuple toTuple_injective

def root : EntryID := ⟨1, 0, 0, by decide⟩

def disposal : EntryID := ⟨2, 0, 0, by decide⟩

end EntryID

inductive FsckDirEntryType
  | INVALID
  | DIRECTORY
  | REGULARFILE
  | SYMLINK
  | SPECIAL
deriving DecidableEq

/-! ## Rows -/

structure DirEntry where
  id : EntryID
  parentDirID : EntryID
  saveNodeID : UInt16
  saveDevice : Int32
  saveInode : UInt64
  seqNo : UInt64
  entryType : FsckDirEntryType
  hasInlinedInode : Bool
deriving DecidableEq

/-- The key has the lower half of the inode number only. -/
def DirEntry.pkey (d : DirEntry) : EntryID ×ₗ EntryID ×ₗ ℕ ×ₗ ℤ ×ₗ ℕ ×ₗ ℕ :=
  toLex (d.id, toLex (d.parentDirID, toLex (d.saveNodeID.toNat, toLex (d.saveDevice.toInt,
    toLex (d.saveInode.toUInt32.toNat, d.seqNo.toNat)))))

structure FsID where
  id : EntryID
  parentDirID : EntryID
  saveNodeID : UInt16
  saveDevice : Int32
  saveInode : UInt64
deriving DecidableEq

def FsID.pkey (f : FsID) : EntryID ×ₗ EntryID ×ₗ ℕ ×ₗ ℤ ×ₗ ℕ :=
  toLex (f.id, toLex (f.parentDirID, toLex (f.saveNodeID.toNat, toLex (f.saveDevice.toInt,
    f.saveInode.toUInt32.toNat))))

structure FileInode where
  id : EntryID
  saveNodeID : UInt16
  fileSize : UInt64
  numHardlinks : UInt64
  saveInode : UInt64
  saveDevice : Int32
  chunkSize : UInt32
  targets : Vector UInt16 6
  stripePatternSize : Nat
deriving DecidableEq

structure DirInode where
  id : EntryID
  saveNodeID : UInt16
  size : UInt64
  numHardlinks : UInt64
deriving DecidableEq

structure Chunk where
  id : EntryID
  targetID : UInt16
  buddyGroupID : UInt16
  fileSize : Int64
  usedBlocks : Int64
deriving DecidableEq

def Chunk.pkey (c : Chunk) : EntryID ×ₗ ℕ ×ₗ ℕ :=
  toLex (c.id, toLex (c.targetID.toNat, c.buddyGroupID.toNat))

structure ContDir where
  id : EntryID
  saveNodeID : UInt16
deriving DecidableEq

structure ModificationEvent where
  id : EntryID
deriving DecidableEq

/-- `FsckUniqueTable::get` makes its set unique before it gives the cursor of its one fragment. -/
structure ModificationEvents where
  events : List ModificationEvent
  ascending : events.Pairwise fun a b => a.id < b.id
  size : events.length < 2 ^ 64

def ModificationEvents.get (m : ModificationEvents) : Query ModificationEvent :=
  .fragment m.events m.size

def ModificationEvents.Has (m : ModificationEvents) (id : EntryID) : Prop :=
  id ∈ m.events.map ModificationEvent.id

instance (m : ModificationEvents) (id : EntryID) : Decidable (m.Has id) :=
  inferInstanceAs (Decidable (id ∈ _))

/-! ## Parts of the checks -/

/-- `leftJoinBy(..) | where(keep and secondIsNull) | select(first)` -/
def Query.unmatched {α β κ : Type} [LinearOrder κ] (leftKey : α → κ) (rightKey : β → κ)
    (keep : α → Bool) (left : Query α) (right : Query β) : Query α :=
  .selectBy (.whereBy (.leftJoinBy leftKey rightKey left right) fun row =>
    keep row.1 && row.2.isNone) Prod.fst

def Query.ignoreByID {α : Type} (objectID : α → EntryID) (source : Query α)
    (modified : ModificationEvents) : Query α :=
  .unmatched objectID ModificationEvent.id (fun _ => true) source modified.get

def uniqueInlinedInode : GroupOps FileInode (EntryID × UInt64 × UInt16 × Int32) FileInode Nat where
  State := Unit
  initial := ()
  key fi := (fi.id, fi.saveInode, fi.saveNodeID, fi.saveDevice)
  project fi := fi
  step _ _ := ()
  finish _ := (0, ())
  finish_asNew _ _ := rfl

def getInodes (inodes : TableRows FileInode.id) : Query FileInode :=
  .selectBy (.groupBy inodes.get uniqueInlinedInode) Prod.fst

/-- The tables that the checks read. -/
structure FsckDB where
  dentryTable : TableRows DirEntry.pkey
  fileInodesTable : TableRows FileInode.id
  dirInodesTable : TableRows DirInode.id
  chunksTable : TableRows Chunk.pkey
  contDirsTable : TableRows ContDir.id
  fsIDsTable : TableRows FsID.pkey
  modificationEventsTable : ModificationEvents

/-! ## What the parts give -/

namespace Query

/-- A query that can be the left input of a join by `key`. -/
structure Ordered {α κ : Type} [LinearOrder κ] (q : Query α) (key : α → κ) : Prop where
  inputs : q.Ascending
  guarded : q.Guarded
  rows_ascending : q.rows.Pairwise fun a b => key a ≤ key b

/-- Behind its last row the query has nothing else. -/
def EndsOnLast {α : Type} (q : Query α) : Prop := q.spec.residual = q.rows.getLast?

section Unmatched

variable {α β κ κ' : Type} [LinearOrder κ] [LinearOrder κ'] {leftKey : α → κ} {rightKey : β → κ}
  {keep : α → Bool} {left : Query α} {right : Query β}

variable {key : α → κ'}

theorem Ordered.weaken {q : Query α} (h : q.Ordered leftKey)
    (hLe : ∀ a b, leftKey a ≤ leftKey b → key a ≤ key b) : q.Ordered key :=
  ⟨h.inputs, h.guarded, h.rows_ascending.imp fun hab => hLe _ _ hab⟩

theorem Ordered.whereBy {q : Query α} (h : q.Ordered leftKey) (pred : α → Bool) :
    (q.whereBy pred).Ordered leftKey :=
  ⟨h.inputs, h.guarded, h.rows_ascending.filter pred⟩

theorem unmatched_rows : (unmatched leftKey rightKey keep left right).rows =
    left.rows.filter fun x => keep x && decide (leftKey x ∉ right.rows.map rightKey) := by
  have hFilter : ((joinRows leftKey rightKey left.rows right.rows).filter fun row =>
      keep row.1 && row.2.isNone).map Prod.fst =
      (((joinRows leftKey rightKey left.rows right.rows).filter fun row =>
        row.2.isNone).map Prod.fst).filter keep := by
    rw [List.filter_map, List.filter_filter]
    rfl
  show ((joinRows leftKey rightKey left.rows right.rows).filter fun row =>
      keep row.1 && row.2.isNone).map Prod.fst = _
  rw [hFilter, unmatched_joinRows, List.filter_filter]

theorem unmatched_ascending (leftKey : α → κ) (rightKey : β → κ) (keep : α → Bool) (right : Query β)
    (hLeft : left.rows.Pairwise fun a b => key a ≤ key b) :
    (unmatched leftKey rightKey keep left right).rows.Pairwise fun a b => key a ≤ key b := by
  rw [unmatched_rows]
  exact hLeft.filter _

theorem unmatched_ordered (hLeft : left.Ordered leftKey)
    (hKey : left.Ordered key) (hRight : right.Ordered rightKey) (hLast : right.EndsOnLast)
    (hRestorable : right.spec.Restorable) :
    (unmatched leftKey rightKey keep left right).Ordered key where
  inputs := ⟨hLeft.inputs, hRight.inputs, hLeft.rows_ascending, hRight.rows_ascending⟩
  guarded := ⟨hLeft.guarded, hRight.guarded, noStale_of_getLast hLast, fun _ => hRestorable⟩
  rows_ascending := unmatched_ascending leftKey rightKey keep right hKey.rows_ascending

/-- The cursor of such a check, with snapshots as the marks of its join. -/
def unmatchedCursor (leftKey : α → κ) (rightKey : β → κ) (keep : α → Bool) (left : Query α)
    (right : Query β) : Cursor α :=
  select (filter (leftJoinEq left.cursor right.cursor leftKey rightKey).withSnapshots fun row =>
    keep row.1 && row.2.isNone) Prod.fst

theorem unmatched_reads (keep : α → Bool) (hLeft : left.Ordered leftKey)
    (hRight : right.Ordered rightKey) (hLast : right.EndsOnLast) :
    ∃ R, Reads (unmatchedCursor leftKey rightKey keep left right)
      (unmatched leftKey rightKey keep left right).spec R := by
  obtain ⟨L, hL⟩ := left.reads hLeft.inputs hLeft.guarded
  obtain ⟨R, hR⟩ := right.reads hRight.inputs hRight.guarded
  have hReads := Inputs.reads_withSnapshots
    (J := ⟨leftKey, rightKey, left.spec, right.spec, L, R, hL, hR⟩)
    (Inputs.keeps ⟨hLeft.rows_ascending, hRight.rows_ascending⟩ (noStale_of_getLast hLast).noGhost)
  rw [Inputs.spec_eq ⟨hLeft.rows_ascending, hRight.rows_ascending⟩
    (noStale_of_getLast hLast).noGhost] at hReads
  exact ⟨_, Select.reads (Filter.reads hReads)⟩

theorem unmatchedCursor_simulates (leftKey : α → κ) (rightKey : β → κ) (keep : α → Bool)
    (left : Query α) (right : Query β) : ∃ f m, Cursor.Simulates
    (unmatchedCursor leftKey rightKey keep left right)
    (unmatched leftKey rightKey keep left right).cursor f m :=
  ⟨_, _, Select.simulates (Filter.simulates (Cursor.withSnapshots_simulates _))⟩

theorem unmatched_yieldsAll (keep : α → Bool) (hLeft : left.Ordered leftKey)
    (hRight : right.Ordered rightKey) (hLast : right.EndsOnLast) :
    (unmatched leftKey rightKey keep left right).cursor.YieldsAll
      (left.rows.filter fun x => keep x && decide (leftKey x ∉ right.rows.map rightKey)) := by
  obtain ⟨R, hReads⟩ := unmatched_reads keep hLeft hRight hLast
  obtain ⟨f, m, hSame⟩ := unmatchedCursor_simulates leftKey rightKey keep left right
  rw [← unmatched_rows]
  exact hSame.yieldsAll hReads.yieldsAll

variable (leftKey rightKey) in
/-- For inputs in any order, if the right one no longer changes once it has ended. -/
theorem unmatched_yieldsAll_iff (keep : α → Bool) {L : left.cursor.State → Position α → Prop}
    {R : right.cursor.State → Position β → Prop} (hLeft : Reads left.cursor left.spec L)
    (hRight : Reads right.cursor right.spec R) (hLast : right.EndsOnLast)
    (hSettled : ∀ r, R r .ended → right.cursor.Settled r) :
    (unmatched leftKey rightKey keep left right).cursor.YieldsAll
        (left.rows.filter fun x => keep x && decide (leftKey x ∉ right.rows.map rightKey)) ↔
      Meets leftKey rightKey (fun x => keep x = true ∧ leftKey x ∈ right.rows.map rightKey) none
        right.rows left.rows := by
  let J : Inputs left.cursor right.cursor κ :=
    ⟨leftKey, rightKey, left.spec, right.spec, L, R, hLeft, hRight⟩
  have hKeeps : J.Keeps fun _ _ _ => True := ⟨trivial, fun _ => ⟨fun _ _ _ => hSettled, trivial⟩⟩
  obtain ⟨f, m, hSame⟩ := unmatchedCursor_simulates leftKey rightKey keep left right
  have hOut : (unmatched leftKey rightKey keep left right).cursor.YieldsAll (alone keep J.rows) :=
    hSame.yieldsAll (Select.reads (Filter.reads (Inputs.reads_withSnapshots hKeeps))).yieldsAll
  have hElems : J.initial.elems = right.rows := Front.elems_ofList_gone _
  have hIff := (alone_spec leftKey rightKey keep (k := none) (f := J.initial) (l := left.rows)
    (by rw [hElems])).2
  have hRows : walkFrom leftKey rightKey right.rows.getLast? none J.initial left.rows = J.rows := by
    rw [← hLast]
    rfl
  rw [hRows, hElems] at hIff
  rw [← hIff]
  exact ⟨fun h => hOut.functional h, fun h => h ▸ hOut⟩

end Unmatched

end Query

namespace TableRows

variable {Data κ κ' : Type} [LinearOrder κ] [LinearOrder κ'] {pkey : Data → κ}
  (t : TableRows pkey)

theorem get_ordered : t.get.Ordered pkey := ⟨t.get_ascending, t.get_guarded, t.rows_ascending⟩

theorem get_endsOnLast : t.get.EndsOnLast := t.get_residual

theorem get_reads : ∃ R, Reads t.get.cursor t.get.spec R ∧
    ∀ r, R r .ended → t.get.cursor.Settled r := by
  obtain ⟨L, hL⟩ := Query.reads _ t.get_ascending.1 t.get_guarded.1
  obtain ⟨R, hR⟩ := Query.reads _ t.get_ascending.2.1 t.get_guarded.2
  exact ⟨_, Union.reads hL hR, fun r hr => Union.settled hr⟩

end TableRows

theorem ModificationEvents.get_ordered (m : ModificationEvents) :
    m.get.Ordered ModificationEvent.id := ⟨trivial, trivial, m.ascending.imp le_of_lt⟩

section IgnoreByID

variable {α κ : Type} [LinearOrder κ] {objectID : α → EntryID} {source : Query α}
  {modified : ModificationEvents}

theorem ignoreByID_rows : (source.ignoreByID objectID modified).rows =
    source.rows.filter fun x => decide (¬ modified.Has (objectID x)) := by
  unfold Query.ignoreByID
  rw [Query.unmatched_rows]
  refine List.filter_congr fun x _ => ?_
  rw [Bool.true_and, decide_eq_decide]
  rfl

theorem ignoreByID_ordered {key : α → κ} (modified : ModificationEvents)
    (hID : source.Ordered objectID) (hKey : source.Ordered key) :
    (source.ignoreByID objectID modified).Ordered key :=
  Query.unmatched_ordered hID hKey modified.get_ordered rfl trivial

end IgnoreByID

/-! ## The inodes of files -/

section Inodes

variable (inodes : TableRows FileInode.id)

theorem getInodes_sublist : (getInodes inodes).rows.Sublist inodes.rows := by
  have hFirsts := Group.groupRows_firsts_sublist uniqueInlinedInode inodes.rows
  rwa [show inodes.rows.map uniqueInlinedInode.project = inodes.rows from List.map_id _] at hFirsts

theorem mem_getInodes_ids {id : EntryID} :
    id ∈ (getInodes inodes).rows.map FileInode.id ↔ id ∈ inodes.rows.map FileInode.id := by
  constructor
  · intro hIn
    exact ((getInodes_sublist inodes).map FileInode.id).subset hIn
  · intro hIn
    obtain ⟨fi, hfi, rfl⟩ := List.mem_map.mp hIn
    obtain ⟨fi', -, hKey, hProject⟩ := Group.exists_groupRows uniqueInlinedInode hfi
    exact List.mem_map.mpr ⟨fi', hProject, (Prod.mk.inj hKey).1⟩

theorem getInodes_ordered : (getInodes inodes).Ordered FileInode.id :=
  ⟨inodes.get_ascending, inodes.get_guarded,
    inodes.rows_ascending.sublist (getInodes_sublist inodes)⟩

theorem getInodes_endsOnLast : (getInodes inodes).EndsOnLast := rfl

end Inodes

end Fhgfs.Fsck
