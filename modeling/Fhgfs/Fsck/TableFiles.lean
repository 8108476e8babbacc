import Fhgfs.Fsck.FragmentSetFiles
import Fhgfs.Fsck.TableCommit

/-!
# The files of a table

The bulk buffers, the destructor and the constructor of a table. All calls of a table commute
with `forgetWindows`, which takes away the windows that no cursor reads, up to such windows
(`SameResult`), and keep its files in a state that can be opened again (`Restorable`).
-/

namespace Fhgfs.Fsck

open SetFragment Option LeftJoinEq Buffer Table
open FragmentSet (Usable elements)

/-- What the destructor leaves on disk. -/
structure TableFiles (Data κ : Type) where
  base : SetFiles Data
  inserts : SetFiles Data
  deletes : SetFiles κ

def TableFiles.Legible {Data κ : Type} [LinearOrder κ] (T : TableType Data κ)
    (files : TableFiles Data κ) : Prop :=
  files.base.Legible T.item ∧ files.inserts.Legible T.item ∧ files.deletes.Legible T.key

namespace Table

variable {Data κ : Type} [LinearOrder κ] (T : TableType Data κ)

/-- `bulkInsert`, with the buffer that it returns filled and released. -/
def bulkInsert (data : List Data) (t : Table Data κ) : Except TableError (Table Data κ) :=
  if t.inserts.size ≠ 0 ∨ t.deletes.size ≠ 0 ∨ t.insertsPending.size ≠ 0 ∨
      t.deletesPending.size ≠ 0 then
    .error .unorderedOperation
  else
    match t.modificationState with
    | .ms_none | .ms_ordered_only_insert | .ms_bulk_insert =>
      let (buffer, base) := data.foldl (fun (p : Buffer × FragmentSet Data κ) data =>
        p.1.append T.item T.fragmentSize data p.2) (⟨none⟩, t.base)
      .ok { t with
        base := buffer.flush T.item base
        modificationState := .ms_bulk_insert
        bulkInserters := t.bulkInserters ++ [false] }
    | _ => .error .unorderedOperation

/-- The destructor, which drops the pending sets. -/
def close (t : Table Data κ) : Except TableError (TableFiles Data κ) := do
  let t ← t.collapseChanges T
  .ok ⟨t.base.close, t.inserts.close, t.deletes.close⟩

def ofSets (base inserts : FragmentSet Data κ) (deletes : FragmentSet κ κ) : Table Data κ :=
  let t : Table Data κ := {
    base, inserts, deletes
    lastChangeKey := none
    insertsPending := FragmentSet.create
    deletesPending := FragmentSet.create
    insertBuffer := none
    deleteBuffer := none
    modificationState := .ms_none
    insertsIntoBase := false
    bulkInserters := [] }
  if base.size = 0 then setupBaseBuffer t else t

/-- The constructor, on the files of the three sets. -/
def openFiles (files : TableFiles Data κ) : Option (Table Data κ) := do
  let base ← files.base.loadConfig T.item
  let inserts ← files.inserts.loadConfig T.item
  let deletes ← files.deletes.loadConfig T.key
  some (ofSets base inserts deletes)

def reopen (t : Table Data κ) : Except TableError (Table Data κ) := do
  let files ← t.close T
  returns (openFiles T files)

end Table

/-! ## Buffers -/

namespace Buffer

open FragmentSet (Restorable Named)

variable {Data κ : Type} [LinearOrder κ] {T : ItemType Data κ} {s : FragmentSet Data κ}
  {b : Buffer}

/-- The fragment of the buffer has no window to forget, and no flag in its file. -/
def Fresh (b : Buffer) (s : FragmentSet Data κ) : Prop :=
  ∀ file ∈ b.currentFragment, ∃ f, s.openFragments.find file = some f ∧
    f.fileSorted = false ∧ (f.firstDirtyItem ≠ none ∨ f.buffer = [])

omit [LinearOrder κ] in
theorem fresh_none : Fresh ⟨none⟩ s := by simp [Fresh]

theorem flush_forgetWindows : (b.flush T s).forgetWindows = b.flush T s.forgetWindows := by
  unfold flush
  cases b.currentFragment with
  | none => rfl
  | some file => exact FragmentSet.updateFragment_forgetWindows forgetWindow_flush

section

variable (h : Restorable s) (hFresh : b.Fresh s)
include h hFresh

theorem flush_restorable : Restorable (b.flush T s) := by
  unfold flush
  cases hFile : b.currentFragment with
  | none => exact h
  | some file =>
    obtain ⟨f, hFind, hFlag, -⟩ := hFresh file hFile
    exact FragmentSet.updateFragment_restorable h hFind
      (flush_flagKept (flagKept_of_unset hFlag))

theorem ensureFragment_fresh : Restorable (b.ensureFragment T s).2 ∧
      (⟨some (b.ensureFragment T s).1⟩ : Buffer).Fresh (b.ensureFragment T s).2 ∧
      b.ensureFragment T s.forgetWindows =
        ((b.ensureFragment T s).1, (b.ensureFragment T s).2.forgetWindows) := by
  unfold ensureFragment
  cases hFile : b.currentFragment with
  | none =>
    refine ⟨FragmentSet.newFragment_restorable h, ?_, FragmentSet.newFragment_forgetWindows⟩
    rintro file ⟨⟩
    exact ⟨_, FragmentSet.find_newFragment h.named, rfl, Or.inr rfl⟩
  | some file =>
    refine ⟨h, ?_, rfl⟩
    rintro file' ⟨⟩
    exact hFresh file hFile

theorem append_fresh (fragmentSize : Nat) (data : Data) :
    Restorable (b.append T fragmentSize data s).2 ∧
      (b.append T fragmentSize data s).1.Fresh (b.append T fragmentSize data s).2 ∧
      b.append T fragmentSize data s.forgetWindows =
        ((b.append T fragmentSize data s).1, (b.append T fragmentSize data s).2.forgetWindows) := by
  obtain ⟨hPlaced, hFresh', hForget⟩ := ensureFragment_fresh (T := T) h hFresh
  unfold append
  rw [hForget]
  generalize b.ensureFragment T s = p at *
  obtain ⟨file, s₁⟩ := p
  obtain ⟨f, hFind, hFlag, hWindow⟩ := hFresh' file rfl
  have hGet : s₁.getFragment T file = f := by
    rw [FragmentSet.getFragment, hFind, getD_some]
  have hFlag' := (append_fileSorted (T := T) (f := f) data).trans hFlag
  have hUpdated : Restorable (s₁.updateFragment T file fun f => f.append T data) :=
    FragmentSet.updateFragment_restorable hPlaced hFind (flagKept_of_unset hFlag')
  have hUpdatedFresh : (⟨some file⟩ : Buffer).Fresh
      (s₁.updateFragment T file fun f => f.append T data) := by
    rintro file' ⟨⟩
    refine ⟨f.append T data, ?_, hFlag', append_window_spec data⟩
    rw [FragmentSet.updateFragment, hGet, OrderedMap.find_put_self]
  have hSame : s₁.forgetWindows.updateFragment T file (fun f => f.append T data) =
      (s₁.updateFragment T file fun f => f.append T data).forgetWindows := by
    refine (FragmentSet.updateFragment_forgetWindows ?_).symm
    rw [hGet, forgetWindow_of_window hWindow, forgetWindow_of_window (append_window_spec data)]
  simp only [hSame, FragmentSet.getFragment_forgetWindows, forgetWindow_itemCount]
  split
  · exact ⟨flush_restorable hUpdated hUpdatedFresh, fresh_none,
      congrArg (Prod.mk _) flush_forgetWindows.symm⟩
  · exact ⟨hUpdated, hUpdatedFresh, rfl⟩

end

end Buffer

/-! ## Tables without the windows that no cursor reads -/

namespace Table

variable {Data κ : Type}

def forgetWindows (t : Table Data κ) : Table Data κ := { t with
  base := t.base.forgetWindows
  inserts := t.inserts.forgetWindows
  deletes := t.deletes.forgetWindows }

/-- The files of the table can be opened again, also those that are being filled. -/
structure Restorable (t : Table Data κ) : Prop where
  base : t.base.Restorable
  inserts : t.inserts.Restorable
  deletes : t.deletes.Restorable
  insertsPending : t.insertsPending.Restorable
  insertBuffer {target : InsertTarget} {b : Buffer} :
    t.insertBuffer = some (target, b) → b.Fresh (t.targetSet target)

variable {t t' : Table Data κ}

@[simp] theorem forgetWindows_forgetWindows : t.forgetWindows.forgetWindows = t.forgetWindows := by
  simp [forgetWindows]

theorem Restorable.withOrder (h : Restorable t) (state : ModificationState) (last : Option κ)
    (bulk : List Bool) : Restorable { t with
      modificationState := state, lastChangeKey := last, bulkInserters := bulk } :=
  ⟨h.base, h.inserts, h.deletes, h.insertsPending, h.insertBuffer⟩

variable [LinearOrder κ] {T : TableType Data κ}

theorem returns_eq_ok {α : Type} {x : Option α} {a : α} : returns x = .ok a ↔ x = some a := by
  cases x with
  | none => exact iff_of_false (by simp [returns]) (by simp)
  | some b =>
    exact ⟨fun h => congrArg some (Except.ok.inj h), fun h => congrArg _ (some.inj h)⟩

/-! ### The order checks, which do not look at the sets -/

variable (base inserts : FragmentSet Data κ)

variable (deletes : FragmentSet κ κ)

theorem orderInsert_sets (key : κ) : { t with base, inserts, deletes }.orderInsert T key =
      (t.orderInsert T key).map fun t => { t with base, inserts, deletes } := by
  rcases t with ⟨_, _, _, last, _, _, _, _, state, _, bulk⟩
  unfold orderInsert assertNoBulkInsert
  cases state with
  | ms_none | ms_unordered_insert | ms_unordered_delete => rfl
  | ms_bulk_insert => cases bulk.any id <;> rfl
  | _ => simp only; split <;> rfl

theorem orderRemove_sets (key : κ) : { t with base, inserts, deletes }.orderRemove key =
      (t.orderRemove key).map fun t => { t with base, inserts, deletes } := by
  rcases t with ⟨_, _, _, last, _, _, _, _, state, _, bulk⟩
  unfold orderRemove
  cases state with
  | ms_none | ms_unordered_insert | ms_unordered_delete | ms_bulk_insert => rfl
  | _ => simp only; split <;> rfl

omit [LinearOrder κ] in
theorem checkBulkInsert_sets :
    { t with base, inserts, deletes }.checkBulkInsert =
      t.checkBulkInsert.map fun t => { t with base, inserts, deletes } := by
  unfold checkBulkInsert assertNoBulkInsert
  simp only
  split
  · split <;> rfl
  · rfl

/-! ### Changes that are buffered -/

section

variable (h : Restorable t)
include h

theorem appendInsert_forgetWindows (data : Data) : Restorable (t.appendInsert T data) ∧
      t.forgetWindows.appendInsert T data = (t.appendInsert T data).forgetWindows := by
  unfold appendInsert
  have hSame : t.forgetWindows.insertBuffer = t.insertBuffer := rfl
  rw [hSame]
  rcases hBuffer : t.insertBuffer.getD (.insertsPending, ⟨none⟩) with ⟨target, b⟩
  have hFresh : b.Fresh (t.targetSet target) := by
    cases hSome : t.insertBuffer with
    | none =>
      obtain ⟨rfl, rfl⟩ := Prod.mk.inj (by simpa [hSome] using hBuffer)
      exact fresh_none
    | some p =>
      obtain rfl : p = (target, b) := by simpa [hSome] using hBuffer
      exact h.insertBuffer hSome
  cases target with
  | base =>
    obtain ⟨hBase, hFresh', hForget⟩ := append_fresh (T := T.item) h.base hFresh T.fragmentSize data
    refine ⟨⟨hBase, h.inserts, h.deletes, h.insertsPending, ?_⟩, ?_⟩
    · rintro target b' ⟨⟩
      exact hFresh'
    · simp only [forgetWindows, hForget]
  | insertsPending =>
    obtain ⟨hPending, hFresh', -⟩ :=
      append_fresh (T := T.item) h.insertsPending hFresh T.fragmentSize data
    refine ⟨⟨h.base, h.inserts, h.deletes, hPending, ?_⟩, rfl⟩
    rintro target b' ⟨⟩
    exact hFresh'

theorem insert_forgetWindows {data : Data} (hInsert : t.insert T data = .ok t') :
    Restorable t' ∧ t.forgetWindows.insert T data = .ok t'.forgetWindows := by
  obtain ⟨t₁, hOrder, hAppend⟩ := ok_of_bind hInsert
  obtain rfl := Except.ok.inj hAppend
  have hOrder' : t.forgetWindows.orderInsert T (T.item.pkey data) =
      (t.orderInsert T (T.item.pkey data)).map fun t₁ => { t₁ with
        base := t.base.forgetWindows, inserts := t.inserts.forgetWindows,
        deletes := t.deletes.forgetWindows } := orderInsert_sets _ _ _ _
  obtain ⟨state, bulk, rfl⟩ := orderInsert_eq hOrder
  obtain ⟨hRestorable, hForget⟩ := appendInsert_forgetWindows (T := T)
    (h.withOrder state (some (T.item.pkey data)) bulk) data
  refine ⟨hRestorable, ?_⟩
  unfold insert
  rw [hOrder', hOrder]
  exact congrArg Except.ok hForget

theorem resetInsertBuffer_forgetWindows : (t.resetInsertBuffer T).Restorable ∧
      t.forgetWindows.resetInsertBuffer T = (t.resetInsertBuffer T).forgetWindows := by
  unfold resetInsertBuffer
  have hSame : t.forgetWindows.insertBuffer = t.insertBuffer := rfl
  rw [hSame]
  cases hBuffer : t.insertBuffer with
  | none => exact ⟨h, rfl⟩
  | some p =>
    obtain ⟨target, b⟩ := p
    have hFresh := h.insertBuffer hBuffer
    cases target with
    | base =>
      refine ⟨⟨flush_restorable h.base hFresh, h.inserts, h.deletes, h.insertsPending, by simp⟩, ?_⟩
      simp only [forgetWindows, flush_forgetWindows]
    | insertsPending =>
      exact ⟨⟨h.base, h.inserts, h.deletes, flush_restorable h.insertsPending hFresh, by simp⟩, rfl⟩

theorem completeBase_forgetWindows : (t.completeBase T).Restorable ∧
    t.forgetWindows.completeBase T = (t.completeBase T).forgetWindows := by
  obtain ⟨hReset, hForget⟩ := resetInsertBuffer_forgetWindows (T := T) h
  unfold completeBase
  have hSame : t.forgetWindows.insertsIntoBase = t.insertsIntoBase := rfl
  rw [hSame, hForget]
  split
  · exact ⟨⟨hReset.base, hReset.inserts, hReset.deletes, hReset.insertsPending,
      hReset.insertBuffer⟩, rfl⟩
  · exact ⟨h, rfl⟩

theorem remove_forgetWindows {key : κ} (hRemove : t.remove T key = .ok t') :
    Restorable t' ∧ t.forgetWindows.remove T key = .ok t'.forgetWindows := by
  obtain ⟨t₁, hBulk, hRest⟩ := ok_of_bind hRemove
  obtain ⟨t₂, hOrder, hAppend⟩ := ok_of_bind hRest
  obtain rfl := Except.ok.inj hAppend
  have hBulk' : t.forgetWindows.checkBulkInsert = t.checkBulkInsert.map fun t₁ => { t₁ with
      base := t.base.forgetWindows, inserts := t.inserts.forgetWindows,
      deletes := t.deletes.forgetWindows } := checkBulkInsert_sets _ _ _
  obtain ⟨bulk, rfl⟩ := checkBulkInsert_eq hBulk
  obtain ⟨hComplete, hForget⟩ := completeBase_forgetWindows (T := T)
    (h.withOrder t.modificationState t.lastChangeKey bulk)
  generalize hBase : completeBase T { t with bulkInserters := bulk } = u at *
  have hOrder' : u.forgetWindows.orderRemove key = (u.orderRemove key).map fun t₂ => { t₂ with
      base := u.base.forgetWindows, inserts := u.inserts.forgetWindows,
      deletes := u.deletes.forgetWindows } := orderRemove_sets _ _ _ _
  obtain ⟨state, rfl⟩ := orderRemove_eq hOrder
  refine ⟨⟨hComplete.base, hComplete.inserts, hComplete.deletes, hComplete.insertsPending,
    hComplete.insertBuffer⟩, ?_⟩
  unfold remove
  rw [hBulk', hBulk]
  show (completeBase T (forgetWindows { t with bulkInserters := bulk })).orderRemove key >>= _ = _
  rw [hForget, hOrder', hOrder]
  rfl

/-! ### Collapsing changes -/

theorem resetDeleteBuffer_forgetWindows : (t.resetDeleteBuffer T).Restorable ∧
    t.forgetWindows.resetDeleteBuffer T = (t.resetDeleteBuffer T).forgetWindows := by
  unfold resetDeleteBuffer
  have hSame : t.forgetWindows.deleteBuffer = t.deleteBuffer := rfl
  rw [hSame]
  split
  · exact ⟨h, rfl⟩
  · exact ⟨⟨h.base, h.inserts, h.deletes, h.insertsPending, h.insertBuffer⟩, rfl⟩

end

/-- The rows that the loop of `applyDeletes` reads, and what it leaves of the pending deletes. -/
def drained (T : TableType Data κ) (inserts : SetFragment Data κ) (pending : SetFragment κ κ) :
    Option (List (Data × Option κ) × SetFragment κ κ) :=
  (leftJoinEq (inserts.cursor T.item) (pending.cursor T.key) T.item.pkey T.key.pkey).drainAll.map
    fun r => (r.1, r.2.right.1)

def applyRows (T : TableType Data κ) (deletesPending : FragmentSet κ κ)
    (rows : List (Data × Option κ)) (t : Table Data κ) : Except TableError (Table Data κ) := do
  let new := (FragmentSet.create : FragmentSet Data κ).newFragment T.item
  let insertsTemp := new.2.updateFragment T.item new.1 fun fragment =>
    fragment.appendAll T.item ((rows.filter fun row => row.2.isNone).map Prod.fst)
  let (deletesPending, deletes) := deletesPending.mergeInto t.deletes
  let deletes ← returns (deletes.makeUnique T.key)
  .ok { t with inserts := (insertsTemp.mergeInto FragmentSet.clear).2, deletes, deletesPending }

theorem applyDeletes_eq : t.applyDeletes T = (do
    let (_, inserts, _) ← returns (t.inserts.cursorFragment T.item)
    let (file, pending, deletesPending) ← returns (t.deletesPending.cursorFragment T.key)
    let (rows, read) ← returns (drained T inserts pending)
    t.applyRows T (deletesPending.updateFragment T.key file fun _ => read) rows) := by
  refine congrArg (returns (t.inserts.cursorFragment T.item) >>= ·) (funext fun ins => ?_)
  refine congrArg (returns (t.deletesPending.cursorFragment T.key) >>= ·) (funext fun del => ?_)
  obtain ⟨-, inserts, -⟩ := ins
  obtain ⟨file, pending, deletesPending⟩ := del
  unfold drained
  simp only
  cases (leftJoinEq (inserts.cursor T.item) (pending.cursor T.key) T.item.pkey
    T.key.pkey).drainAll <;> rfl

theorem drained_forgetWindow (inserts : SetFragment Data κ) (pending : SetFragment κ κ) :
    drained T inserts.forgetWindow pending = drained T inserts pending := by
  have hStep := leftJoinEq_sameFirstStep T.item.pkey T.key.pkey
    (SetFragment.forgetWindow_sameFirstStep (T := T.item) (f := inserts))
    (Cursor.SameFirstStep.refl (pending.cursor T.key))
  have hSame := LeftJoinEq.step_startingIn (inserts.cursor T.item) (pending.cursor T.key)
    T.item.pkey T.key.pkey (some (inserts.forgetWindow, -1)) (pending.cursor T.key).init
  unfold drained
  rw [SetFragment.forgetWindow_cursor]
  unfold leftJoinEq
  rw [show LeftJoinEq.step _ (pending.cursor T.key) _ _ = _ from hSame]
  exact congrArg (Option.map fun r : List (Data × Option κ) × LeftJoinEq.State Data κ κ
    (inserts.cursor T.item) (pending.cursor T.key) => (r.1, r.2.right.1)) hStep.drainAll

theorem makeUnique_mergeInto {K : ItemType κ κ} (pending : FragmentSet κ κ)
    {deletes : FragmentSet κ κ} (h : deletes.Named) :
    ((pending.mergeInto deletes.forgetWindows).2.makeUnique K).map FragmentSet.forgetWindows =
      ((pending.mergeInto deletes).2.makeUnique K).map FragmentSet.forgetWindows := by
  have hNamed (d : FragmentSet κ κ) (hd : d.Named) : (pending.mergeInto d).2.Named :=
    FragmentSet.foldl_accept_named hd _
  rw [← FragmentSet.makeUnique_forgetWindows (hNamed _ (FragmentSet.forgetWindows_named.mpr h)),
    ← FragmentSet.makeUnique_forgetWindows (hNamed _ h), FragmentSet.mergeInto_forgetWindows,
    FragmentSet.mergeInto_forgetWindows, FragmentSet.forgetWindows_forgetWindows]

theorem applyRows_forgetWindows (h : t.deletes.Named) (pending : FragmentSet κ κ)
    (rows : List (Data × Option κ)) : (t.forgetWindows.applyRows T pending rows).map forgetWindows =
      (t.applyRows T pending rows).map forgetWindows := by
  have hUnique := makeUnique_mergeInto (K := T.key) pending h
  have hDeletes : t.forgetWindows.deletes = t.deletes.forgetWindows := rfl
  unfold applyRows
  rw [hDeletes]
  cases hLeft : (pending.mergeInto t.deletes.forgetWindows).2.makeUnique T.key with
  | none =>
    rw [hLeft, map_none, eq_comm, map_eq_none_iff] at hUnique
    simp only [hLeft, hUnique, returns]
    rfl
  | some d =>
    rw [hLeft, map_some, eq_comm, map_eq_some_iff] at hUnique
    obtain ⟨d', hRight, hSame⟩ := hUnique
    simp only [hLeft, hRight, returns, bind, Except.bind, Except.map, forgetWindows, hSame,
      FragmentSet.forgetWindows_forgetWindows]
    rfl

section

variable (h : Restorable t)
include h

theorem applyRows_restorable {pending : FragmentSet κ κ}
    {rows : List (Data × Option κ)} (hApply : t.applyRows T pending rows = .ok t') :
    Restorable t' := by
  unfold applyRows at hApply
  cases hUnique : (pending.mergeInto t.deletes).2.makeUnique T.key with
  | none =>
    simp only [hUnique, returns] at hApply
    cases hApply
  | some d =>
    simp only [hUnique, returns] at hApply
    obtain rfl := Except.ok.inj hApply
    have hCreate : (FragmentSet.create : FragmentSet Data κ).Restorable :=
      FragmentSet.create_restorable
    refine ⟨h.base, FragmentSet.mergeInto_restorable ?_ hCreate, ?_, h.insertsPending,
      h.insertBuffer⟩
    · refine (FragmentSet.updateFragment_restorable (FragmentSet.newFragment_restorable hCreate)
        (FragmentSet.find_newFragment hCreate.named) (flagKept_of_unset ?_)).flags
      exact appendAll_fileSorted _
    · exact FragmentSet.makeUnique_restorable
        (FragmentSet.foldl_accept_named h.deletes.named _) hUnique

theorem applyDeletes_forgetWindows :
    (t.forgetWindows.applyDeletes T).map forgetWindows = (t.applyDeletes T).map forgetWindows := by
  rw [applyDeletes_eq, applyDeletes_eq]
  have hInserts : t.forgetWindows.inserts = t.inserts.forgetWindows := rfl
  have hPending : t.forgetWindows.deletesPending = t.deletesPending := rfl
  rw [hInserts, hPending, FragmentSet.cursorFragment_forgetWindows h.inserts.named]
  cases t.inserts.cursorFragment T.item with
  | none => rfl
  | some ins =>
    cases t.deletesPending.cursorFragment T.key with
    | none => rfl
    | some del =>
      obtain ⟨-, inserts, -⟩ := ins
      obtain ⟨file, pending, deletesPending⟩ := del
      simp only [map_some, returns, bind, Except.bind, drained_forgetWindow]
      cases drained T inserts pending with
      | none => rfl
      | some r => exact applyRows_forgetWindows h.deletes.named _ _

theorem applyDeletes_restorable (hApply : t.applyDeletes T = .ok t') : Restorable t' := by
  rw [applyDeletes_eq] at hApply
  obtain ⟨ins, -, hRest⟩ := ok_of_bind hApply
  obtain ⟨del, -, hRest⟩ := ok_of_bind hRest
  obtain ⟨r, -, hRest⟩ := ok_of_bind hRest
  exact applyRows_restorable h hRest

theorem collapseDeletes_forgetWindows :
    (t.forgetWindows.collapseDeletes T).map forgetWindows =
      (t.collapseDeletes T).map forgetWindows := by
  have hPending : t.forgetWindows.deletesPending = t.deletesPending := rfl
  unfold collapseDeletes
  rw [hPending]
  split
  · exact applyDeletes_forgetWindows h
  · exact congrArg Except.ok forgetWindows_forgetWindows

theorem collapseDeletes_restorable (hCollapse : t.collapseDeletes T = .ok t') : Restorable t' := by
  unfold collapseDeletes at hCollapse
  split at hCollapse
  · exact applyDeletes_restorable h hCollapse
  · obtain rfl := Except.ok.inj hCollapse
    exact h

end

omit [LinearOrder κ] in
theorem collapseInserts_forgetWindows :
    t.forgetWindows.collapseInserts.forgetWindows = t.collapseInserts.forgetWindows := by
  have hPending : t.forgetWindows.insertsPending = t.insertsPending := rfl
  unfold collapseInserts
  rw [hPending]
  split
  · simp only [forgetWindows, FragmentSet.mergeInto_forgetWindows,
      FragmentSet.forgetWindows_forgetWindows]
    rfl
  · exact forgetWindows_forgetWindows

omit [LinearOrder κ] in
theorem collapseInserts_restorable (h : Restorable t) (hNone : t.insertBuffer = none) :
    t.collapseInserts.Restorable := by
  unfold collapseInserts
  split
  · refine ⟨h.base, FragmentSet.mergeInto_restorable h.insertsPending.flags h.inserts, h.deletes,
      ⟨fun _ _ => OrderedMap.find_empty _, fun _ _ hFind => by cases hFind⟩, ?_⟩
    simp [hNone]
  · exact h

def closeBuffers (T : TableType Data κ) (t : Table Data κ) : Table Data κ :=
  { (t.resetDeleteBuffer T).resetInsertBuffer T with insertsIntoBase := false }

theorem closeBuffers_forgetWindows (h : Restorable t) : (t.closeBuffers T).Restorable ∧
    (t.closeBuffers T).insertBuffer = none ∧
    t.forgetWindows.closeBuffers T = (t.closeBuffers T).forgetWindows := by
  obtain ⟨hDelete, hForget⟩ := resetDeleteBuffer_forgetWindows (T := T) h
  obtain ⟨hInsert, hForget'⟩ := resetInsertBuffer_forgetWindows (T := T) hDelete
  refine ⟨⟨hInsert.base, hInsert.inserts, hInsert.deletes, hInsert.insertsPending,
    hInsert.insertBuffer⟩, resetInsertBuffer_fields.1, ?_⟩
  unfold closeBuffers
  rw [hForget, hForget']
  rfl

theorem collapseDeletes_insertBuffer (hCollapse : t.collapseDeletes T = .ok t') :
    t'.insertBuffer = t.insertBuffer := by
  unfold collapseDeletes at hCollapse
  split at hCollapse
  · rw [applyDeletes_eq] at hCollapse
    obtain ⟨ins, -, hRest⟩ := ok_of_bind hCollapse
    obtain ⟨del, -, hRest⟩ := ok_of_bind hRest
    obtain ⟨r, -, hRest⟩ := ok_of_bind hRest
    obtain ⟨deletes, -, hRest⟩ := ok_of_bind hRest
    obtain rfl := Except.ok.inj hRest
    rfl
  · obtain rfl := Except.ok.inj hCollapse
    rfl

theorem collapseChanges_eq : t.collapseChanges T = (t.closeBuffers T).collapseDeletes T >>=
    fun t => .ok { t.collapseInserts with modificationState := .ms_none } := rfl

/-- Two results that only differ in windows that no cursor reads. -/
def SameResult (r r' : Except TableError (Table Data κ)) : Prop :=
  r.map forgetWindows = r'.map forgetWindows

omit [LinearOrder κ] in
theorem SameResult.bind {r r' : Except TableError (Table Data κ)} (h : SameResult r r')
    {k k' : Table Data κ → Except TableError (Table Data κ)}
    (hk : ∀ t t', r = .ok t → r' = .ok t' → t.forgetWindows = t'.forgetWindows →
      SameResult (k t) (k' t')) : SameResult (r >>= k) (r' >>= k') := by
  cases r with
  | error e =>
    cases r' with
    | error e' => exact congrArg Except.error (Except.error.inj h)
    | ok t' => cases h
  | ok t =>
    cases r' with
    | error e' => cases h
    | ok t' => exact hk t t' rfl rfl (Except.ok.inj h)

omit [LinearOrder κ] in
theorem SameResult.returns {ι : Type} {x x' : Option (FragmentSet ι κ)}
    (h : x.map FragmentSet.forgetWindows = x'.map FragmentSet.forgetWindows)
    {k k' : FragmentSet ι κ → Except TableError (Table Data κ)}
    (hk : ∀ s s', s.forgetWindows = s'.forgetWindows → SameResult (k s) (k' s')) :
    SameResult (returns x >>= k) (returns x' >>= k') := by
  cases x with
  | none =>
    cases x' with
    | none => rfl
    | some s' => cases h
  | some s =>
    cases x' with
    | none => cases h
    | some s' => exact hk s s' (some.inj h)

omit [LinearOrder κ] in
theorem SameResult.ok {r r' : Except TableError (Table Data κ)} (h : SameResult r r')
    (hOk : r' = .ok t') : ∃ t, r = .ok t ∧ t.forgetWindows = t'.forgetWindows := by
  subst hOk
  cases r with
  | error e => cases h
  | ok t => exact ⟨t, rfl, Except.ok.inj h⟩

omit [LinearOrder κ] in
theorem collapseInserts_same (h : t.forgetWindows = t'.forgetWindows) :
    t.collapseInserts.forgetWindows = t'.collapseInserts.forgetWindows := by
  rw [← collapseInserts_forgetWindows, h, collapseInserts_forgetWindows]

theorem collapseChanges_same (h : Restorable t) :
    SameResult (t.collapseChanges T) (t.forgetWindows.collapseChanges T) := by
  obtain ⟨hClosed, -, hForget⟩ := closeBuffers_forgetWindows (T := T) h
  rw [collapseChanges_eq, collapseChanges_eq, hForget]
  refine SameResult.bind (collapseDeletes_forgetWindows hClosed).symm fun t₁ t₂ _ _ hSame => ?_
  have hInserts := collapseInserts_same hSame
  exact congrArg (fun t : Table Data κ => Except.ok { t with modificationState := .ms_none })
    hInserts

theorem collapseChanges_restorable (h : Restorable t) (hCollapse : t.collapseChanges T = .ok t') :
    Restorable t' ∧ t'.insertBuffer = none := by
  obtain ⟨hClosed, hNone, -⟩ := closeBuffers_forgetWindows (T := T) h
  rw [collapseChanges_eq] at hCollapse
  obtain ⟨t₁, hDeletes, hInserts⟩ := ok_of_bind hCollapse
  obtain rfl := Except.ok.inj hInserts
  have hNone₁ := (collapseDeletes_insertBuffer hDeletes).trans hNone
  have hCollapsed := collapseInserts_restorable (collapseDeletes_restorable hClosed hDeletes) hNone₁
  refine ⟨⟨hCollapsed.base, hCollapsed.inserts, hCollapsed.deletes, hCollapsed.insertsPending,
    hCollapsed.insertBuffer⟩, ?_⟩
  show t₁.collapseInserts.insertBuffer = none
  unfold collapseInserts
  split <;> exact hNone₁

/-! ### Commits and queries -/

def sortAll (T : TableType Data κ) (t : Table Data κ) : Except TableError (Table Data κ) := do
  let base ← returns (t.base.sort T.item)
  let inserts ← returns (t.inserts.sort T.item)
  let deletes ← returns (t.deletes.sort T.key)
  .ok { t with base, inserts, deletes }

theorem sort_same {ι : Type} {I : ItemType ι κ} {s s' : FragmentSet ι κ} (h : s.Named)
    (hSame : s.forgetWindows = s'.forgetWindows) :
    (s.sort I).map FragmentSet.forgetWindows = (s'.sort I).map FragmentSet.forgetWindows := by
  have h' : s'.Named := FragmentSet.forgetWindows_named.mp (hSame ▸
    FragmentSet.forgetWindows_named.mpr h)
  rw [← FragmentSet.sort_forgetWindows h, ← FragmentSet.sort_forgetWindows h', hSame]

theorem sortAll_same (h : Restorable t) (hSame : t.forgetWindows = t'.forgetWindows) :
    SameResult (t.sortAll T) (t'.sortAll T) := by
  have hBase := sort_same (I := T.item) h.base.named (congrArg base hSame)
  have hInserts := sort_same (I := T.item) h.inserts.named (congrArg inserts hSame)
  have hDeletes := sort_same (I := T.key) h.deletes.named (congrArg deletes hSame)
  refine SameResult.returns hBase fun base base' hb => SameResult.returns hInserts
    fun inserts inserts' hi => SameResult.returns hDeletes fun deletes deletes' hd => ?_
  have hTables : forgetWindows { t with base, inserts, deletes } =
      forgetWindows { t' with base := base', inserts := inserts', deletes := deletes' } := by
    have hRest := congrArg (fun t : Table Data κ => { t with
      base := base.forgetWindows, inserts := inserts.forgetWindows,
      deletes := deletes.forgetWindows }) hSame
    unfold forgetWindows at hRest ⊢
    rwa [← hb, ← hi, ← hd]
  exact congrArg Except.ok hTables

theorem commitChanges_same (h : Restorable t) :
    SameResult (t.commitChanges T) (t.forgetWindows.commitChanges T) :=
  SameResult.bind (collapseChanges_same h) fun _ _ hLeft _ hSame =>
    sortAll_same (collapseChanges_restorable h hLeft).1 hSame

theorem commitChanges_restorable (h : Restorable t) (hCommit : t.commitChanges T = .ok t') :
    Restorable t' := by
  obtain ⟨t₁, hCollapse, hSort⟩ := ok_of_bind hCommit
  obtain ⟨h₁, hNone⟩ := collapseChanges_restorable h hCollapse
  obtain ⟨base, hBase, hRest⟩ := ok_of_bind hSort
  obtain ⟨inserts, hInserts, hRest⟩ := ok_of_bind hRest
  obtain ⟨deletes, hDeletes, hRest⟩ := ok_of_bind hRest
  obtain rfl := Except.ok.inj hRest
  refine ⟨FragmentSet.sort_restorable h₁.base.named (returns_eq_ok.mp hBase),
    FragmentSet.sort_restorable h₁.inserts.named (returns_eq_ok.mp hInserts),
    FragmentSet.sort_restorable h₁.deletes.named (returns_eq_ok.mp hDeletes), h₁.insertsPending, ?_⟩
  simp [hNone]

theorem queryCursor_forgetWindow (base : SetFragment Data κ) (deletes : SetFragment κ κ)
    (inserts : SetFragment Data κ) :
    (queryCursor T base.forgetWindow deletes.forgetWindow inserts.forgetWindow).readAll =
      (queryCursor T base deletes inserts).readAll := by
  have hBase := forgetWindow_sameFirstStep (T := T.item) (f := base)
  have hDeletes := forgetWindow_sameFirstStep (T := T.key) (f := deletes)
  have hInserts := forgetWindow_sameFirstStep (T := T.item) (f := inserts)
  let join := leftJoinEq (base.cursor T.item) (deletes.cursor T.key) T.item.pkey T.key.pkey
  let pred : Data × Option κ → Bool := fun row => row.2.isNone
  have hJoin := leftJoinEq_startingIn (base.cursor T.item) (deletes.cursor T.key) T.item.pkey
    T.key.pkey (some (base.forgetWindow, -1)) (some (deletes.forgetWindow, -1))
  have hFilter := filter_startingIn join pred (initFrom _ _
    (some (base.forgetWindow, -1)) (some (deletes.forgetWindow, -1)))
  have hSelect := select_startingIn (filter join pred) Prod.fst (initFrom _ _
    (some (base.forgetWindow, -1)) (some (deletes.forgetWindow, -1)))
  have hUnion := union_startingIn (select (filter join pred) Prod.fst) (inserts.cursor T.item)
    T.item.pkey (Select.initFrom _ _ (initFrom _ _ (some (base.forgetWindow, -1))
      (some (deletes.forgetWindow, -1)))) (some (inserts.forgetWindow, -1))
  have hSteps := union_sameFirstStep T.item.pkey (select_sameFirstStep Prod.fst
    (filter_sameFirstStep pred (leftJoinEq_sameFirstStep T.item.pkey T.key.pkey hBase hDeletes)))
    hInserts
  unfold queryCursor
  rw [forgetWindow_cursor, forgetWindow_cursor,
    forgetWindow_cursor, hJoin, hFilter, hSelect, hUnion]
  exact hSteps.readAll

theorem rows_forgetWindows (hBase : t.base.Named) (hDeletes : t.deletes.Named)
    (hInserts : t.inserts.Named) : t.forgetWindows.rows T = t.rows T := by
  have hBaseSet : t.forgetWindows.base = t.base.forgetWindows := rfl
  have hDeletesSet : t.forgetWindows.deletes = t.deletes.forgetWindows := rfl
  have hInsertsSet : t.forgetWindows.inserts = t.inserts.forgetWindows := rfl
  unfold rows
  rw [hBaseSet, hDeletesSet, hInsertsSet, FragmentSet.cursorFragment_forgetWindows hBase,
    FragmentSet.cursorFragment_forgetWindows hDeletes,
    FragmentSet.cursorFragment_forgetWindows hInserts]
  cases t.base.cursorFragment T.item with
  | none => simp only [map_none, returns, bind, Except.bind]
  | some b =>
    cases t.deletes.cursorFragment T.key with
    | none => simp only [map_none, map_some, returns, bind, Except.bind]
    | some d =>
      cases t.inserts.cursorFragment T.item with
      | none => simp only [map_none, map_some, returns, bind, Except.bind]
      | some f =>
        simp only [map_some, returns, bind, Except.bind]
        rw [queryCursor_forgetWindow]

theorem rows_same (h : Restorable t) (hSame : t.forgetWindows = t'.forgetWindows) :
    t.rows T = t'.rows T := by
  have hNamed {ι : Type} {s s' : FragmentSet ι κ} (hs : s.Named)
      (hSets : s.forgetWindows = s'.forgetWindows) : s'.Named :=
    FragmentSet.forgetWindows_named.mp (hSets ▸ FragmentSet.forgetWindows_named.mpr hs)
  have hLeft := rows_forgetWindows (T := T) h.base.named h.deletes.named h.inserts.named
  have hRight := rows_forgetWindows (T := T)
    (hNamed h.base.named (congrArg base hSame))
    (hNamed h.deletes.named (congrArg deletes hSame))
    (hNamed h.inserts.named (congrArg inserts hSame))
  rw [← hLeft, hSame, hRight]

end Table

end Fhgfs.Fsck
