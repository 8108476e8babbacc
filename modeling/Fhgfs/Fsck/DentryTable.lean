import Fhgfs.Fsck.Database
import Fhgfs.Fsck.TableRuns

/-!
# The table of the dentries and its index by parents

`FsckDBDentryTable` keeps the dentries in one table and a row for each in a second one, `byParent`,
which the check of the directory attributes reads. `insert` and `clear` change both tables,
`updateFieldsExceptParent` and `remove` only the first. So the index follows the dentries as long
as a remove finds nothing to remove, and an update replaces one dentry of the same type.

The calls take the rows that `fsckDirEntryToDbDirEntry` makes. The buffers and the cache of the
names are left out: neither table reads them.
-/

namespace Fhgfs.Fsck

open Table DirEntry Multiset List
open FragmentSet (elements)
open Table (Original content older)

abbrev DirEntry.KeyType : Type := EntryID ×ₗ EntryID ×ₗ ℕ ×ₗ ℤ ×ₗ ℕ ×ₗ ℕ

structure ByParent where
  parent : EntryID
  target : EntryID
  entryType : FsckDirEntryType
deriving DecidableEq

abbrev ByParent.KeyType : Type := EntryID ×ₗ EntryID

def ByParent.pkey (row : ByParent) : ByParent.KeyType := toLex (row.parent, row.target)

def DirEntry.link (dentry : DirEntry) : ByParent :=
  { parent := dentry.parentDirID, target := dentry.id, entryType := dentry.entryType }

/-- The types of the two tables. -/
structure DentryTableType where
  table : TableType DirEntry DirEntry.KeyType
  byParent : TableType ByParent ByParent.KeyType
  table_pkey : table.item.pkey = DirEntry.pkey
  byParent_pkey : byParent.item.pkey = ByParent.pkey

structure FsckDBDentryTable where
  table : Table DirEntry DirEntry.KeyType
  byParent : Table ByParent ByParent.KeyType

/-- The calls on whole lists. -/
inductive DentryCall
  | insert (dentries : List DirEntry)
  | updateFieldsExceptParent (dentries : List DirEntry)
  | remove (dentries : List DirEntry)
  | clear

/-- What the loop of a call does for one of its dentries. -/
inductive DentryOp
  | insert (dentry : DirEntry)
  | update (dentry : DirEntry)
  | remove (dentry : DirEntry)
  | clear

def DentryCall.ops : DentryCall → List DentryOp
  | .insert dentries => dentries.map .insert
  | .updateFieldsExceptParent dentries => dentries.map .update
  | .remove dentries => dentries.map .remove
  | .clear => [.clear]

namespace FsckDBDentryTable

variable (T : DentryTableType)

def create : FsckDBDentryTable := ⟨Table.create, Table.create⟩

def step (t : FsckDBDentryTable) : DentryOp → Except TableError FsckDBDentryTable
  | .insert dentry => do
    let table ← t.table.insert T.table dentry
    let byParent ← t.byParent.insert T.byParent dentry.link
    .ok ⟨table, byParent⟩
  | .update dentry => do
    let table ← t.table.remove T.table dentry.pkey
    let table ← table.insert T.table dentry
    .ok { t with table }
  | .remove dentry => do
    let table ← t.table.remove T.table dentry.pkey
    .ok { t with table }
  | .clear => .ok ⟨t.table.clear T.table, t.byParent.clear T.byParent⟩

def call (t : FsckDBDentryTable) (c : DentryCall) : Except TableError FsckDBDentryTable :=
  c.ops.foldlM (step T) t

/-- The rows that `get()` gives, after its commit. -/
def get (t : FsckDBDentryTable) : Except TableError (List DirEntry) := do
  let table ← t.table.commitChanges T.table
  table.rows T.table

/-- The rows that `getByParent()` gives, after its commit. -/
def getByParent (t : FsckDBDentryTable) : Except TableError (List ByParent) := do
  let byParent ← t.byParent.commitChanges T.byParent
  byParent.rows T.byParent

def run (ops : List DentryOp) : Except TableError FsckDBDentryTable := ops.foldlM (step T) create

theorem run_calls (calls : List DentryCall) :
    calls.foldlM (call T) create = run T (calls.flatMap DentryCall.ops) := by
  unfold run
  generalize create = t
  induction calls generalizing t with
  | nil => rfl
  | cons c calls ih =>
    rw [foldlM_cons, flatMap_cons, foldlM_append]
    exact congrArg (call T t c >>= ·) (funext ih)

def history (ops : List DentryOp) (op : DentryOp) : List DentryOp := ops ++ [op]

/-- Both tables can be read, and the index has one row for each dentry. -/
def IndexFollows (ops : List DentryOp) : Prop :=
  ∃ (t : FsckDBDentryTable) (dentries : TableRows DirEntry.pkey) (links : TableRows ByParent.pkey),
    run T ops = .ok t ∧ t.get T = .ok dentries.rows ∧ t.getByParent T = .ok links.rows ∧
      (links.rows : Multiset ByParent) = (dentries.rows : Multiset DirEntry).map DirEntry.link

/-- The dentries that a remove of the key takes out of the table. -/
def reached (t : FsckDBDentryTable) (key : DirEntry.KeyType) : Multiset DirEntry :=
  (older T.table t.table).filter fun x => x.pkey = key

/-- The operation after `ops` does not change which rows the index ought to have. -/
def KeepsIndex (ops : List DentryOp) : DentryOp → Prop
  | .remove dentry => ∀ t, run T ops = .ok t → t.reached T dentry.pkey = 0
  | .update dentry => ∀ t, run T ops = .ok t →
      (t.reached T dentry.pkey).map DirEntry.link = {dentry.link}
  | _ => True

/-! ## One operation -/

/-- The dentries that a remove of the key leaves in the table. -/
def kept (t : FsckDBDentryTable) (key : DirEntry.KeyType) : Multiset DirEntry :=
  (older T.table t.table).filter (fun x => x.pkey ≠ key) + elements T.table.item
    t.table.insertsPending

def dentriesAfter (t : FsckDBDentryTable) : DentryOp → Multiset DirEntry
  | .insert dentry => dentry ::ₘ content T.table t.table
  | .update dentry => dentry ::ₘ t.kept T dentry.pkey
  | .remove dentry => t.kept T dentry.pkey
  | .clear => 0

def linksAfter (t : FsckDBDentryTable) : DentryOp → Multiset ByParent
  | .insert dentry => dentry.link ::ₘ content T.byParent t.byParent
  | .update _ | .remove _ => content T.byParent t.byParent
  | .clear => 0

/-- Both tables are sound, with a bound on their sizes. -/
structure SoundTables (n : Nat) (t : FsckDBDentryTable) : Prop where
  table : Original T.table n t.table
  byParent : Original T.byParent n t.byParent

def Agrees (t : FsckDBDentryTable) : Prop :=
  content T.byParent t.byParent = (content T.table t.table).map DirEntry.link

variable {T} {n : Nat} {t t' : FsckDBDentryTable}

theorem content_eq (key : KeyType) : content T.table t.table = t.reached T key + t.kept T key := by
  unfold reached kept content
  rw [← add_assoc, filter_add_not]

theorem remove_spec {m : Nat} {table table' : Table DirEntry DirEntry.KeyType} {dentry : DirEntry}
    (h : Original T.table m table) (hRemove : table.remove T.table dentry.pkey = .ok table') :
    Original T.table (m + 1) table' ∧ content T.table table' =
      (older T.table table).filter (fun x => x.pkey ≠ dentry.pkey) +
        elements T.table.item table.insertsPending := by
  have hContent := (Table.remove_spec h.toSound hRemove).2
  rw [T.table_pkey] at hContent
  exact ⟨h.remove hRemove, hContent⟩

variable {op : DentryOp}

section

variable (h : SoundTables T n t) (hStep : t.step T op = .ok t')
include h hStep

theorem step_spec : SoundTables T (n + 2) t' ∧ content T.table t'.table = t.dentriesAfter T op ∧
      content T.byParent t'.byParent = t.linksAfter T op := by
  cases op with
  | insert dentry =>
    obtain ⟨table, hTable, hRest⟩ := ok_of_bind hStep
    obtain ⟨byParent, hLinks, hNew⟩ := ok_of_bind hRest
    obtain rfl := Except.ok.inj hNew
    obtain ⟨hSound, hDentries⟩ := h.table.insert hTable
    obtain ⟨hSound', hRows⟩ := h.byParent.insert hLinks
    exact ⟨⟨hSound.mono (Nat.le_succ _), hSound'.mono (Nat.le_succ _)⟩, hDentries, hRows⟩
  | update dentry =>
    obtain ⟨removed, hRemove, hRest⟩ := ok_of_bind hStep
    obtain ⟨table, hInsert, hNew⟩ := ok_of_bind hRest
    obtain rfl := Except.ok.inj hNew
    obtain ⟨hRemoved, hKept⟩ := remove_spec h.table hRemove
    obtain ⟨hSound, hDentries⟩ := hRemoved.insert hInsert
    exact ⟨⟨hSound, h.byParent.mono (Nat.le_add_right n 2)⟩,
      hDentries.trans (congrArg (dentry ::ₘ ·) hKept), rfl⟩
  | remove dentry =>
    obtain ⟨removed, hRemove, hNew⟩ := ok_of_bind hStep
    obtain rfl := Except.ok.inj hNew
    obtain ⟨hRemoved, hKept⟩ := remove_spec h.table hRemove
    exact ⟨⟨hRemoved.mono (Nat.le_succ _), h.byParent.mono (Nat.le_add_right n 2)⟩, hKept, rfl⟩
  | clear =>
    obtain rfl := Except.ok.inj hStep
    exact ⟨⟨Original.clear.mono (Nat.zero_le _), Original.clear.mono (Nat.zero_le _)⟩,
      clear_spec.2, clear_spec.2⟩

/-- An operation keeps the index if and only if the dentries that it takes out have the links of
those that it puts in. -/
theorem agrees_iff : t'.Agrees T ↔ t.linksAfter T op = (t.dentriesAfter T op).map link := by
  obtain ⟨-, hDentries, hLinks⟩ := step_spec h hStep
  unfold Agrees
  rw [hDentries, hLinks]

end

theorem agrees_remove_iff (hAgrees : t.Agrees T) (dentry : DirEntry) :
    t.linksAfter T (.remove dentry) = (t.dentriesAfter T (.remove dentry)).map link ↔
      t.reached T dentry.pkey = 0 := by
  show content T.byParent t.byParent = (t.kept T dentry.pkey).map link ↔ _
  rw [hAgrees, content_eq dentry.pkey, map_add, add_eq_right, map_eq_zero]

theorem agrees_update_iff (hAgrees : t.Agrees T) (dentry : DirEntry) :
    t.linksAfter T (.update dentry) = (t.dentriesAfter T (.update dentry)).map DirEntry.link ↔
      (t.reached T dentry.pkey).map DirEntry.link = {dentry.link} := by
  show content T.byParent t.byParent = (dentry ::ₘ t.kept T dentry.pkey).map DirEntry.link ↔ _
  rw [hAgrees, content_eq dentry.pkey, Multiset.map_add, Multiset.map_cons,
    ← Multiset.singleton_add, add_left_inj]

/-! ## Runs -/

variable {ops : List DentryOp}

/-- What holds after operations that all kept the index. -/
def Follows (T : DentryTableType) (ops : List DentryOp) : Prop :=
  2 * ops.length < 2 ^ 64 ∧ ∃ t, run T ops = .ok t ∧ SoundTables T (2 * ops.length) t ∧ t.Agrees T

def Admitted (T : DentryTableType) (ops : List DentryOp) (op : DentryOp) : Prop :=
  (∃ t, run T (history ops op) = .ok t) ∧ 2 * (ops.length + 1) < 2 ^ 64

theorem run_append (ops rest : List DentryOp) :
    run T (ops ++ rest) = run T ops >>= fun t => rest.foldlM (step T) t := foldlM_append

theorem admitted_of_run {rest : List DentryOp} (hRun : run T (ops ++ rest) = .ok t)
    (hLen : 2 * (ops ++ rest).length < 2 ^ 64) :
    Run.EveryStep history (Admitted T) ops rest := by
  induction rest generalizing ops with
  | nil => trivial
  | cons op rest ih =>
    have hSplit : ops ++ op :: rest = history ops op ++ rest := by simp [history]
    rw [hSplit] at hRun hLen
    refine ⟨⟨?_, ?_⟩, ih hRun hLen⟩
    · rw [run_append] at hRun
      obtain ⟨t₁, hOk, -⟩ := ok_of_bind hRun
      exact ⟨t₁, hOk⟩
    · simp only [history, length_append, length_singleton] at hLen
      omega

theorem follows_nil : Follows T [] :=
  ⟨Nat.two_pow_pos 64, create, rfl, ⟨.create, .create⟩, by
    unfold Agrees create
    rw [create_spec.2, create_spec.2, map_zero]⟩

theorem indexFollows_iff (hLen : 2 * ops.length < 2 ^ 64) (hRun : run T ops = .ok t)
    (h : SoundTables T (2 * ops.length) t) : IndexFollows T ops ↔ t.Agrees T := by
  obtain ⟨table, dentries, hTable, hDentries, hSame⟩ :=
    exists_rows T.table_pkey h.table.toSound hLen
  obtain ⟨byParent, links, hByParent, hLinks, hSame'⟩ :=
    exists_rows T.byParent_pkey h.byParent.toSound hLen
  have hGet : t.get T = .ok dentries.rows := by
    rwa [get, hTable]
  have hGetByParent : t.getByParent T = .ok links.rows := by
    rwa [getByParent, hByParent]
  constructor
  · rintro ⟨t₁, dentries₁, links₁, hRun₁, hGet₁, hGetByParent₁, hFollows⟩
    obtain rfl := Except.ok.inj (hRun.symm.trans hRun₁)
    rw [← Except.ok.inj (hGet.symm.trans hGet₁),
      ← Except.ok.inj (hGetByParent.symm.trans hGetByParent₁), hSame, hSame'] at hFollows
    exact hFollows
  · intro hAgrees
    refine ⟨t, dentries, links, hRun, hGet, hGetByParent, ?_⟩
    rwa [hSame, hSame']

theorem agrees_iff_keepsIndex (h : SoundTables T n t) (hAgrees : t.Agrees T)
    (hRun : run T ops = .ok t) (hStep : t.step T op = .ok t') :
    t'.Agrees T ↔ KeepsIndex T ops op := by
  rw [agrees_iff h hStep]
  cases op with
  | insert dentry =>
    refine iff_of_true ?_ trivial
    show dentry.link ::ₘ content T.byParent t.byParent = (dentry ::ₘ content T.table t.table).map _
    rw [Multiset.map_cons, hAgrees]
  | update dentry =>
    rw [agrees_update_iff hAgrees]
    constructor
    · intro hOne t₁ hRun₁
      obtain rfl := Except.ok.inj (hRun.symm.trans hRun₁)
      exact hOne
    · exact fun hKeeps => hKeeps t hRun
  | remove dentry =>
    rw [agrees_remove_iff hAgrees]
    constructor
    · intro hNone t₁ hRun₁
      obtain rfl := Except.ok.inj (hRun.symm.trans hRun₁)
      exact hNone
    · exact fun hKeeps => hKeeps t hRun
  | clear => exact iff_of_true rfl trivial

theorem run_history (hFollows : Follows T ops) (hAdmitted : Admitted T ops op) :
    ∃ t', run T (history ops op) = .ok t' ∧ SoundTables T (2 * (history ops op).length) t' ∧
      (t'.Agrees T ↔ KeepsIndex T ops op) := by
  obtain ⟨-, t, hRun, hSound, hAgrees⟩ := hFollows
  obtain ⟨⟨t', hRun'⟩, -⟩ := hAdmitted
  have hStep : t.step T op = .ok t' := by
    rw [history, run_append, hRun] at hRun'
    obtain ⟨t₁, hOk, hEnd⟩ := ok_of_bind (x := t.step T op) hRun'
    obtain rfl := Except.ok.inj hEnd
    exact hOk
  refine ⟨t', hRun', ?_, agrees_iff_keepsIndex hSound hAgrees hRun hStep⟩
  have hLen : 2 * (history ops op).length = 2 * ops.length + 2 := by
    rw [history, length_append, length_singleton, mul_add]
  rw [hLen]
  exact (step_spec hSound hStep).1

theorem length_history (hAdmitted : Admitted T ops op) : 2 * (history ops op).length < 2 ^ 64 := by
  rw [history, length_append, length_singleton]
  exact hAdmitted.2

/-- The index follows the dentries throughout a run if and only if all its operations keep it. -/
theorem indexFollows_throughout_iff_of_run (hRun : run T ops = .ok t)
    (hLen : 2 * ops.length < 2 ^ 64) :
    Run.Throughout history (IndexFollows T) [] ops ↔
      Run.EveryStep history (KeepsIndex T) [] ops := by
  apply Run.throughout_iff_everyStep history (J := Follows T) (A := Admitted T) ?_ ?_ ?_
    follows_nil (admitted_of_run hRun hLen)
  · rintro ops ⟨hLen, t, hRun, hSound, hAgrees⟩
    exact (indexFollows_iff hLen hRun hSound).mpr hAgrees
  · intro ops op hFollows hAdmitted hKeeps
    obtain ⟨t', hRun', hSound', hAgrees⟩ := run_history hFollows hAdmitted
    exact ⟨length_history hAdmitted, t', hRun', hSound', hAgrees.mpr hKeeps⟩
  · intro ops op hFollows hAdmitted hBreaks hNext
    obtain ⟨t', hRun', hSound', hAgrees⟩ := run_history hFollows hAdmitted
    exact hBreaks (hAgrees.mp
      ((indexFollows_iff (length_history hAdmitted) hRun' hSound').mp hNext))

end FsckDBDentryTable

end Fhgfs.Fsck
