import Fhgfs.Fsck.FragmentSet
import Fhgfs.Fsck.LeftJoinEq

/-!
# Table

A table keeps its items in three sets: `base`, the `inserts` of later, and the keys of the
`deletes`, which hide the items of `base`. Changes go through buffers into two pending sets.
`collapseChanges` applies them, first the deletes to the older inserts and then the inserts;
`insert` and `remove` throw for an order of calls for which this would not be right. The bulk
inserters of a table are not modelled beyond the test that none is alive.
-/

namespace Fhgfs.Fsck

/-- The template and constructor parameters of a table, and what its fragments know of the
items and of their keys (`Table::Key`). -/
structure TableType (Data κ : Type) [LinearOrder κ] where
  item : ItemType Data κ
  key : ItemType κ κ
  key_pkey (k : κ) : key.pkey k = k
  AllowDuplicateKeys : Bool
  fragmentSize : Nat

/-! ## Buffer -/

structure Buffer where
  currentFragment : Option (List Nat)
  deriving DecidableEq

namespace Buffer

variable {Data κ : Type} [LinearOrder κ] (T : ItemType Data κ)

def flush (b : Buffer) (set : FragmentSet Data κ) : FragmentSet Data κ :=
  match b.currentFragment with
  | none => set
  | some file => set.updateFragment T file SetFragment.flush

/-- `if(!currentFragment) currentFragment = set->newFragment();` -/
def ensureFragment (b : Buffer) (set : FragmentSet Data κ) : List Nat × FragmentSet Data κ :=
  match b.currentFragment with
  | none => set.newFragment T
  | some file => (file, set)

def append (fragmentSize : Nat) (data : Data) (b : Buffer) (set : FragmentSet Data κ) :
    Buffer × FragmentSet Data κ :=
  let (file, set) := b.ensureFragment T set
  let set := set.updateFragment T file fun fragment => fragment.append T data
  if (set.getFragment T file).itemCount * T.size ≥ fragmentSize then
    (⟨none⟩, flush T ⟨some file⟩ set)
  else
    (⟨some file⟩, set)

end Buffer

/-! ## Table -/

inductive ModificationState
  | ms_none
  | ms_ordered_only_insert
  | ms_ordered_only_delete
  | ms_ordered_at_insert
  | ms_ordered_at_delete
  | ms_unordered_insert
  | ms_unordered_delete
  | ms_bulk_insert
  deriving DecidableEq

/-- What a call throws; `stuck` stands for a loop that does not end or reads a row that is not
there. -/
inductive TableError
  | unorderedOperation
  | bulkInsertStillRunning
  | stuck
  deriving DecidableEq

/-- The set that `insertBuffer` has been made for. -/
inductive InsertTarget
  | base
  | insertsPending
  deriving DecidableEq

structure Table (Data κ : Type) where
  base : FragmentSet Data κ
  inserts : FragmentSet Data κ
  deletes : FragmentSet κ κ
  /-- Not set by the constructor. -/
  lastChangeKey : Option κ
  insertsPending : FragmentSet Data κ
  deletesPending : FragmentSet κ κ
  insertBuffer : Option (InsertTarget × Buffer)
  deleteBuffer : Option Buffer
  modificationState : ModificationState
  insertsIntoBase : Bool
  /-- The weak pointers; false is one that has expired. -/
  bulkInserters : List Bool

inductive TableCall (Data κ : Type)
  | insert (data : Data)
  | remove (key : κ)
  | commitChanges
  | clear

def returns {α : Type} : Option α → Except TableError α
  | none => .error .stuck
  | some a => .ok a

namespace Table

variable {Data κ : Type} [LinearOrder κ] (T : TableType Data κ)

variable (t : Table Data κ)

def setupBaseBuffer : Table Data κ :=
  { t with insertBuffer := some (.base, ⟨none⟩), insertsIntoBase := true }

def create : Table Data κ :=
  setupBaseBuffer {
    base := FragmentSet.create
    inserts := FragmentSet.create
    deletes := FragmentSet.create
    lastChangeKey := none
    insertsPending := FragmentSet.create
    deletesPending := FragmentSet.create
    insertBuffer := none
    deleteBuffer := none
    modificationState := .ms_none
    insertsIntoBase := false
    bulkInserters := [] }

/-- `insertBuffer.reset()`, which flushes the buffer. -/
def resetInsertBuffer : Table Data κ :=
  match t.insertBuffer with
  | none => t
  | some (.base, b) => { t with base := b.flush T.item t.base, insertBuffer := none }
  | some (.insertsPending, b) =>
    { t with insertsPending := b.flush T.item t.insertsPending, insertBuffer := none }

def resetDeleteBuffer : Table Data κ :=
  match t.deleteBuffer with
  | none => t
  | some b => { t with deletesPending := b.flush T.key t.deletesPending, deleteBuffer := none }

def assertNoBulkInsert : Except TableError (Table Data κ) :=
  if t.bulkInserters.any id then
    .error .bulkInsertStillRunning
  else
    .ok { t with bulkInserters := [] }

def orderInsert (key : κ) (t : Table Data κ) : Except TableError (Table Data κ) :=
  match t.modificationState with
  | .ms_bulk_insert => do
    let t ← t.assertNoBulkInsert
    .ok { t with modificationState := .ms_ordered_only_insert }
  | .ms_none => .ok { t with modificationState := .ms_ordered_only_insert }
  | .ms_ordered_only_insert =>
    if t.lastChangeKey.any fun last => last ≥ key then
      .ok { t with modificationState := .ms_unordered_insert }
    else
      .ok t
  | .ms_unordered_delete => .error .unorderedOperation
  | .ms_unordered_insert => .ok t
  | .ms_ordered_at_delete | .ms_ordered_only_delete =>
    if t.lastChangeKey.any fun last => last ≤ key then
      .ok { t with modificationState := .ms_ordered_at_insert }
    else
      .error .unorderedOperation
  | .ms_ordered_at_insert =>
    if t.lastChangeKey.any fun last => last < key ∨ (¬ T.AllowDuplicateKeys ∧ last = key) then
      .error .unorderedOperation
    else
      .ok t

/-- `insertBuffer->append`, on a new buffer for `insertsPending` if there is none. -/
def appendInsert (data : Data) (t : Table Data κ) : Table Data κ :=
  match t.insertBuffer.getD (.insertsPending, ⟨none⟩) with
  | (.base, b) =>
    let (b, base) := b.append T.item T.fragmentSize data t.base
    { t with base := base, insertBuffer := some (.base, b) }
  | (.insertsPending, b) =>
    let (b, insertsPending) := b.append T.item T.fragmentSize data t.insertsPending
    { t with insertsPending := insertsPending, insertBuffer := some (.insertsPending, b) }

def insert (data : Data) (t : Table Data κ) : Except TableError (Table Data κ) := do
  let t ← t.orderInsert T (T.item.pkey data)
  .ok ({ t with lastChangeKey := some (T.item.pkey data) }.appendInsert T data)

/-- If deletes happen during the initial insert, complete the base set. -/
def completeBase : Table Data κ :=
  if t.insertsIntoBase then
    { t.resetInsertBuffer T with insertsIntoBase := false, modificationState := .ms_none }
  else
    t

def orderRemove (key : κ) (t : Table Data κ) : Except TableError (Table Data κ) :=
  match t.modificationState with
  | .ms_none | .ms_bulk_insert => .ok { t with modificationState := .ms_ordered_only_delete }
  | .ms_ordered_only_delete =>
    if t.lastChangeKey.any fun last => last ≥ key then
      .ok { t with modificationState := .ms_unordered_delete }
    else
      .ok t
  | .ms_unordered_delete => .ok t
  | .ms_unordered_insert => .error .unorderedOperation
  | .ms_ordered_at_delete | .ms_ordered_at_insert | .ms_ordered_only_insert =>
    if t.lastChangeKey.any fun last => key ≤ last then
      .error .unorderedOperation
    else
      .ok { t with modificationState := .ms_ordered_at_delete }

def appendDelete (key : κ) (t : Table Data κ) : Table Data κ :=
  let (b, deletesPending) := (t.deleteBuffer.getD ⟨none⟩).append T.key T.fragmentSize key
    t.deletesPending
  { t with deletesPending := deletesPending, deleteBuffer := some b }

/-- `if(modificationState == ms_bulk_insert) assertNoBulkInsert();` -/
def checkBulkInsert : Except TableError (Table Data κ) :=
  if t.modificationState = .ms_bulk_insert then t.assertNoBulkInsert else .ok t

def remove (key : κ) (t : Table Data κ) : Except TableError (Table Data κ) := do
  let t ← t.checkBulkInsert
  let t ← (t.completeBase T).orderRemove key
  .ok ({ t with lastChangeKey := some key }.appendDelete T key)

/-- The part of `collapseChanges` for pending deletes: the inserts without their keys, and
the keys in `deletes`. -/
def applyDeletes : Except TableError (Table Data κ) := do
  let (_, inserts, _) ← returns (t.inserts.cursorFragment T.item)
  let (file, pending, deletesPending) ← returns (t.deletesPending.cursorFragment T.key)
  let (rows, cleanedInserts) ← returns (leftJoinEq (inserts.cursor T.item)
    (pending.cursor T.key) T.item.pkey T.key.pkey).drainAll
  let cleaned := (rows.filter fun row => row.2.isNone).map Prod.fst
  let new := (FragmentSet.create : FragmentSet Data κ).newFragment T.item
  let insertsTemp := new.2.updateFragment T.item new.1 fun fragment =>
    fragment.appendAll T.item cleaned
  -- the fragment of the pending deletes, as the cursor over it has left it
  let deletesPending := deletesPending.updateFragment T.key file fun _ =>
    cleanedInserts.right.1
  let (deletesPending, deletes) := deletesPending.mergeInto t.deletes
  let deletes ← returns (deletes.makeUnique T.key)
  .ok { t with inserts := (insertsTemp.mergeInto FragmentSet.clear).2, deletes, deletesPending }

def collapseDeletes : Except TableError (Table Data κ) :=
  if t.deletesPending.size ≠ 0 then t.applyDeletes T else .ok t

/-- `if(insertsPending.size() ) insertsPending.mergeInto(inserts);` -/
def collapseInserts : Table Data κ :=
  if t.insertsPending.size ≠ 0 then
    let (insertsPending, inserts) := t.insertsPending.mergeInto t.inserts
    { t with inserts, insertsPending }
  else
    t

def collapseChanges : Except TableError (Table Data κ) := do
  let t := { (t.resetDeleteBuffer T).resetInsertBuffer T with insertsIntoBase := false }
  let t ← t.collapseDeletes T
  .ok { t.collapseInserts with modificationState := .ms_none }

def commitChanges : Except TableError (Table Data κ) := do
  let t ← t.collapseChanges T
  let base ← returns (t.base.sort T.item)
  let inserts ← returns (t.inserts.sort T.item)
  let deletes ← returns (t.deletes.sort T.key)
  .ok { t with base, inserts, deletes }

def clear (t : Table Data κ) : Table Data κ :=
  let t := (t.resetInsertBuffer T).resetDeleteBuffer T
  setupBaseBuffer { t with
    base := FragmentSet.clear
    inserts := FragmentSet.clear
    deletes := FragmentSet.clear
    insertsPending := FragmentSet.clear
    deletesPending := FragmentSet.clear }

/-- `QueryType` over the fragments of the three sets. -/
def queryCursor (base : SetFragment Data κ) (deletes : SetFragment κ κ)
    (inserts : SetFragment Data κ) : Cursor Data :=
  union
    (select
      (filter (leftJoinEq (base.cursor T.item) (deletes.cursor T.key) T.item.pkey T.key.pkey)
        fun row => row.2.isNone)
      Prod.fst)
    (inserts.cursor T.item) T.item.pkey

def rows : Except TableError (List Data) := do
  let (_, base, _) ← returns (t.base.cursorFragment T.item)
  let (_, deletes, _) ← returns (t.deletes.cursorFragment T.key)
  let (_, inserts, _) ← returns (t.inserts.cursorFragment T.item)
  returns (queryCursor T base deletes inserts).readAll

def step : TableCall Data κ → Except TableError (Table Data κ)
  | .insert data => t.insert T data
  | .remove key => t.remove T key
  | .commitChanges => t.commitChanges T
  | .clear => .ok (t.clear T)

end Table

end Fhgfs.Fsck
