import Fhgfs.Fsck.CalmFragments
import Fhgfs.Fsck.TableCommit

/-!
# Fragments that open cursors point to

`Pinned` says what the sets of a table are while a cursor is open on it: one calm fragment of
`deletes`, one of `inserts`, and one of `base` beside which later inserts may fill another
one. Each call of the table keeps it under a condition of its own.
-/

namespace Fhgfs.Fsck

open FragmentSet Table SetFragment List Buffer Option
open SetFragment (Calm)
open FragmentSet (Usable Only Stands elements SortsStably)

variable {Data κ : Type} [LinearOrder κ]

/-! ## Pinned fragments -/

/-- The fragments behind the pointers `p` have the rows `base`, `deletes` and `inserts`, and
`f` is the one with the inserts. -/
structure Pinned (T : TableType Data κ) (t : Table Data κ) (p : FragmentPointers)
    (base : List Data) (deletes : List κ) (inserts : List Data) (f : SetFragment Data κ) :
    Prop where
  base : ∃ f, t.base.openFragments.find p.base = some f ∧ Calm T.item f base
  notFilled {b : Buffer} : t.insertBuffer = some (.base, b) → b.currentFragment ≠ some p.base
  deletes : ∃ f, Only T.key t.deletes p.deletes f deletes
  inserts : Only T.item t.inserts p.inserts f inserts

namespace Pinned

open Table

variable {T : TableType Data κ} {n : Nat} {t : Table Data κ} {p : FragmentPointers}
  {base inserts : List Data} {deletes : List κ} {f : SetFragment Data κ}

variable (h : Pinned T t p base deletes inserts f)
include h

theorem withOrder (state : ModificationState)
    (last : Option κ) (bulk : List Bool) : Pinned T { t with
      modificationState := state, lastChangeKey := last, bulkInserters := bulk }
      p base deletes inserts f :=
  ⟨h.base, h.notFilled, h.deletes, h.inserts⟩

/-! ## Changes that are buffered -/

theorem appendInsert (hSound : Sound T n t)
    (data : Data) : Pinned T (t.appendInsert T data) p base deletes inserts f := by
  unfold Table.appendInsert
  rcases hBuffer : t.insertBuffer.getD (.insertsPending, ⟨none⟩) with ⟨target, b⟩
  cases target with
  | base =>
    have hSome : t.insertBuffer = some (.base, b) := by
      cases hOld : t.insertBuffer with
      | none => simp [hOld] at hBuffer
      | some old => simpa [hOld] using hBuffer
    obtain ⟨fb, hFind, hCalm⟩ := h.base
    obtain ⟨hKept, hNot⟩ := Buffer.append_other (hSound.base.named le_rfl) hFind (h.notFilled hSome)
      T.fragmentSize data
    refine ⟨⟨fb, hKept, hCalm⟩, ?_, h.deletes, h.inserts⟩
    rintro b' ⟨⟩
    exact hNot
  | insertsPending => exact ⟨h.base, by simp, h.deletes, h.inserts⟩

theorem insert (hSound : Sound T n t) {data : Data}
    {t' : Table Data κ} (hInsert : t.insert T data = .ok t') :
    Pinned T t' p base deletes inserts f := by
  obtain ⟨state, bulk, rfl⟩ := insert_cases hInsert
  exact (h.withOrder state (some (T.item.pkey data)) bulk).appendInsert
    (hSound.withOrder state (some (T.item.pkey data)) bulk) data

theorem resetInsertBuffer : Pinned T (t.resetInsertBuffer T) p base deletes inserts f := by
  unfold Table.resetInsertBuffer
  split
  · exact h
  · rename_i b hBuffer
    obtain ⟨fb, hFind, hCalm⟩ := h.base
    exact ⟨⟨fb, (Buffer.flush_other (h.notFilled hBuffer)).trans hFind, hCalm⟩, by simp,
      h.deletes, h.inserts⟩
  · exact ⟨h.base, by simp, h.deletes, h.inserts⟩

theorem completeBase : Pinned T (t.completeBase T) p base deletes inserts f := by
  unfold Table.completeBase
  split
  · have hReset := h.resetInsertBuffer
    exact ⟨hReset.base, hReset.notFilled, hReset.deletes, hReset.inserts⟩
  · exact h

theorem remove {key : κ} {t' : Table Data κ}
    (hRemove : t.remove T key = .ok t') : Pinned T t' p base deletes inserts f := by
  obtain ⟨state, bulk, rfl⟩ := remove_cases hRemove
  have hBase := (h.withOrder t.modificationState t.lastChangeKey bulk).completeBase
  exact ⟨hBase.base, hBase.notFilled, hBase.deletes, hBase.inserts⟩

/-! ## Commits -/

theorem base_only (hOne : t.base.openFragments.elems.length = 1) :
    ∃ f, Only T.item t.base p.base f base := by
  obtain ⟨fb, hFind, hCalm⟩ := h.base
  obtain ⟨⟨file, f'⟩, hElems⟩ := length_eq_one_iff.mp hOne
  rw [OrderedMap.find_of_elems hElems] at hFind
  split at hFind
  · rename_i hName
    obtain rfl := some.inj hFind
    obtain rfl : p.base = file := hName
    exact ⟨f', hElems, hCalm⟩
  · cases hFind

theorem resetInsertBuffer_base (hSound : Sound T n t)
    (hOne : t.base.openFragments.elems.length = 1) :
    (t.resetInsertBuffer T).base = t.base := by
  unfold Table.resetInsertBuffer
  split
  · rfl
  · rename_i b hBuffer
    obtain ⟨fb, hOnly⟩ := h.base_only hOne
    cases hFile : b.currentFragment with
    | none => simp only [Buffer.flush, hFile]
    | some file =>
      obtain ⟨f', l, hFind, -⟩ := hSound.insertBuffer hBuffer file hFile
      have hName : file ≠ p.base := by
        rintro rfl
        exact h.notFilled hBuffer hFile
      rw [targetSet, OrderedMap.find_of_elems hOnly.elems, if_neg hName] at hFind
      cases hFind
  · rfl

theorem resetDeleteBuffer : Pinned T (t.resetDeleteBuffer T) p base deletes inserts f := by
  unfold Table.resetDeleteBuffer
  split
  · exact h
  · exact ⟨h.base, h.notFilled, h.deletes, h.inserts⟩

end Pinned

namespace Table

variable {T : TableType Data κ} {n : Nat} {t : Table Data κ}

def NothingPending (t : Table Data κ) : Prop :=
  t.insertsPending.size = 0 ∧ t.deletesPending.size = 0

instance (t : Table Data κ) : Decidable t.NothingPending := inferInstanceAs (Decidable (_ ∧ _))

section

variable (h : t.NothingPending) (hSound : Sound T n t)
include h hSound

theorem NothingPending.resetDeleteBuffer : (t.resetDeleteBuffer T).NothingPending := by
  unfold Table.resetDeleteBuffer
  split
  · exact h
  rename_i b hBuffer
  obtain ⟨hUsable, hElements⟩ :=
    Buffer.flush_usable hSound.deletesPending (hSound.deleteBuffer hBuffer)
  refine ⟨h.1, ?_⟩
  rw [hUsable.size_eq, hElements, ← hSound.deletesPending.size_eq]
  exact h.2

theorem NothingPending.resetInsertBuffer : (t.resetInsertBuffer T).NothingPending := by
  unfold Table.resetInsertBuffer
  split
  · exact h
  · exact h
  rename_i b hBuffer
  obtain ⟨hUsable, hElements⟩ :=
    Buffer.flush_usable hSound.insertsPending (hSound.insertBuffer hBuffer)
  refine ⟨?_, h.2⟩
  rw [hUsable.size_eq, hElements, ← hSound.insertsPending.size_eq]
  exact h.1

theorem NothingPending.resets : ((t.resetDeleteBuffer T).resetInsertBuffer T).NothingPending :=
  (h.resetDeleteBuffer hSound).resetInsertBuffer (resetDeleteBuffer_spec hSound).1

theorem collapseChanges_of_nothing :
    t.collapseChanges T = .ok { (t.resetDeleteBuffer T).resetInsertBuffer T with
      insertsIntoBase := false, modificationState := .ms_none } := by
  obtain ⟨hInserts, hDeletes⟩ := h.resets hSound
  simp [collapseChanges, collapseDeletes, collapseInserts, hInserts, hDeletes, bind, Except.bind]

end

end Table

namespace Pinned

open Table

variable {T : TableType Data κ} {n : Nat} {t : Table Data κ} {p : FragmentPointers}
  {base inserts : List Data} {deletes : List κ} {f : SetFragment Data κ}

theorem commitChanges (h : Pinned T t p base deletes inserts f) (hSound : Sound T n t)
    (hOne : t.base.openFragments.elems.length = 1) (hNothing : t.NothingPending) :
    ∃ t', t.commitChanges T = .ok t' ∧ Pinned T t' p base deletes inserts (f.sort T.item) := by
  have hDelete := h.resetDeleteBuffer
  have hDeleteSound := (resetDeleteBuffer_spec hSound).1
  have hBaseSame : (t.resetDeleteBuffer T).base = t.base := by
    unfold Table.resetDeleteBuffer
    split <;> rfl
  have hReset := hDelete.resetInsertBuffer
  have hOne' : ((t.resetDeleteBuffer T).resetInsertBuffer T).base.openFragments.elems.length =
      1 := by
    rw [hDelete.resetInsertBuffer_base hDeleteSound (hBaseSame ▸ hOne), hBaseSame, hOne]
  obtain ⟨fb, hBase⟩ := hReset.base_only hOne'
  obtain ⟨fd, hDeletes⟩ := hReset.deletes
  obtain ⟨base', hSortBase, hBase'⟩ := FragmentSet.sort_only hBase
  obtain ⟨inserts', hSortInserts, hInserts'⟩ := FragmentSet.sort_only hReset.inserts
  obtain ⟨deletes', hSortDeletes, hDeletes'⟩ := FragmentSet.sort_only hDeletes
  let reset := (t.resetDeleteBuffer T).resetInsertBuffer T
  refine ⟨{ reset with
      insertsIntoBase := false
      modificationState := .ms_none
      base := base'
      inserts := inserts'
      deletes := deletes' }, ?_,
    ⟨_, hBase'.find, hBase'.calm⟩, hReset.notFilled, ⟨_, hDeletes'⟩, hInserts'⟩
  simp only [Table.commitChanges, collapseChanges_of_nothing hNothing hSound, hSortBase,
    hSortInserts, hSortDeletes, returns, bind, Except.bind]
  rfl

end Pinned

/-! ## Sorts and look-ups -/

namespace Table

variable {T : TableType Data κ} {n : Nat} {t : Table Data κ}

theorem Sound.reread (h : Sound T n t) {base inserts : FragmentSet Data κ}
    {deletes : FragmentSet κ κ}
    (hBase : Usable T.item base ∧ elements T.item base = elements T.item t.base)
    (hDeletes : Usable T.key deletes ∧ elements T.key deletes = elements T.key t.deletes)
    (hInserts : Usable T.item inserts ∧ elements T.item inserts = elements T.item t.inserts)
    (hOpen : ∀ b, t.insertBuffer = some (.base, b) → b.Open T.item base) :
    Sound T n { t with base, deletes, inserts } where
  base := hBase.1
  inserts := hInserts.1
  deletes := hDeletes.1
  insertsPending := h.insertsPending
  deletesPending := h.deletesPending
  insertBuffer {target b} hBuffer := by
    cases target with
    | base => exact hOpen b hBuffer
    | insertsPending => exact h.insertBuffer hBuffer
  deleteBuffer := h.deleteBuffer
  intoBase := h.intoBase
  initial := h.initial
  items_le := by
    rw [hBase.2, hInserts.2]
    exact h.items_le
  keys_le := by
    rw [hDeletes.2]
    exact h.keys_le

/-- The insert buffer has a fragment of `base` that it fills. -/
def FillsBase (t : Table Data κ) : Prop :=
  ∃ file, t.insertBuffer = some (.base, ⟨some file⟩)

instance (t : Table Data κ) : Decidable t.FillsBase :=
  match h : t.insertBuffer with
  | some (.base, ⟨some file⟩) => .isTrue ⟨file, h⟩
  | none | some (.base, ⟨none⟩) | some (.insertsPending, _) => .isFalse (by simp [FillsBase, h])

theorem open_of_not_fillsBase (h : ¬ t.FillsBase) (set : FragmentSet Data κ) (b : Buffer)
    (hBuffer : t.insertBuffer = some (.base, b)) : b.Open T.item set := by
  intro file hFile
  refine absurd ⟨file, ?_⟩ h
  rw [hBuffer]
  cases b
  exact congrArg (fun c => some (InsertTarget.base, Buffer.mk c)) hFile

theorem sortsStably_keys {s : FragmentSet κ κ} (h : Usable T.key s)
    (hSize : (elements T.key s).card < 2 ^ 64) : s.SortsStably T.key := by
  obtain ⟨s', file, f, hSort, hStands, hOne, hPerm, hAsc⟩ :=
    sort_spec h.toStands (by rwa [h.size_eq])
  intro s₁ hMem p hp
  obtain rfl : s' = s₁ := some.inj (hSort.symm.trans hMem)
  rw [hOne, mem_singleton] at hp
  subst hp
  exact Or.inr (stdSort_keys (hAsc.mpr h.honest))

theorem sortSets_sound (h : Sound T n t) (hn : n < 2 ^ 64) (hFills : ¬ t.FillsBase) :
    ∃ t', t.sortSets T = .ok t' ∧ Sound T n t' ∧ t'.insertBuffer = t.insertBuffer := by
  have hItems := h.items_le
  have hKeys := h.keys_le
  obtain ⟨base, hBase, hBaseUsable⟩ := sort_usable h.base (by omega)
  obtain ⟨deletes, hDeletes, hDeletesUsable⟩ := sort_usable h.deletes (by omega)
  obtain ⟨inserts, hInserts, hInsertsUsable⟩ := sort_usable h.inserts (by omega)
  refine ⟨_, ?_, h.reread hBaseUsable hDeletesUsable hInsertsUsable
    (open_of_not_fillsBase hFills base), rfl⟩
  simp only [sortSets, hBase, hDeletes, hInserts, returns, bind, Except.bind]

/-- When `cursor()` may be called: the fragments that it leaves are not moved by later sorts. -/
structure Sortable (T : TableType Data κ) (t : Table Data κ) : Prop where
  notFilling : ¬ t.FillsBase
  base : t.base.SortsStably T.item
  inserts : t.inserts.SortsStably T.item

instance [DecidableEq Data] (t : Table Data κ) : Decidable (Sortable T t) :=
  decidable_of_iff (¬ t.FillsBase ∧ t.base.SortsStably T.item ∧ t.inserts.SortsStably T.item)
    ⟨fun h => ⟨h.1, h.2.1, h.2.2⟩, fun h => ⟨h.1, h.2, h.3⟩⟩

theorem sortSets_pinned (h : Sound T n t) (hn : n < 2 ^ 64) (hSortable : Sortable T t)
    (clears : Nat) :
    ∃ t' p base deletes inserts f, t.sortSets T = .ok t' ∧ p.clears = clears ∧
      t'.base.openFragments.elems.length = 1 ∧ Pinned T t' p base deletes inserts f := by
  have hItems := h.items_le
  have hKeys := h.keys_le
  obtain ⟨base, bfile, bf, hBase, -, -, hBaseOnly⟩ := sort_calm h.base (by omega) hSortable.base
  obtain ⟨deletes, dfile, df, hDeletes, -, -, hDeletesOnly⟩ :=
    sort_calm h.deletes (by omega) (sortsStably_keys h.deletes (by omega))
  obtain ⟨inserts, file, f, hInserts, -, -, hInsertsOnly⟩ :=
    sort_calm h.inserts (by omega) hSortable.inserts
  refine ⟨{ t with base, deletes, inserts }, ⟨bfile, dfile, file, clears⟩, _, _, _, f, ?_, rfl,
    congrArg length hBaseOnly.elems,
    ⟨_, hBaseOnly.find, hBaseOnly.calm⟩, ?_, ⟨df, hDeletesOnly⟩, hInsertsOnly⟩
  · simp only [sortSets, hBase, hDeletes, hInserts, returns, bind, Except.bind]
  · intro b hBuffer hFile
    refine hSortable.notFilling ⟨bfile, ?_⟩
    change t.insertBuffer = _ at hBuffer
    rw [hBuffer]
    cases b
    exact congrArg (fun c => some (InsertTarget.base, Buffer.mk c)) hFile

end Table

namespace Pinned

open Table

variable {T : TableType Data κ} {n : Nat} {t : Table Data κ} {p : FragmentPointers}
  {base inserts : List Data} {deletes : List κ} {f : SetFragment Data κ}

section

variable (h : Pinned T t p base deletes inserts f) (hOne : t.base.openFragments.elems.length = 1)
include h hOne

theorem sortSets : ∃ t', t.sortSets T = .ok t' ∧ t'.base.openFragments.elems.length = 1 ∧
      Pinned T t' p base deletes inserts (f.sort T.item) := by
  obtain ⟨fb, hBase⟩ := h.base_only hOne
  obtain ⟨fd, hDeletes⟩ := h.deletes
  obtain ⟨base', hSortBase, hBase'⟩ := FragmentSet.sort_only hBase
  obtain ⟨inserts', hSortInserts, hInserts'⟩ := FragmentSet.sort_only h.inserts
  obtain ⟨deletes', hSortDeletes, hDeletes'⟩ := FragmentSet.sort_only hDeletes
  refine ⟨{ t with base := base', deletes := deletes', inserts := inserts' }, ?_,
    congrArg length hBase'.elems, ⟨_, hBase'.find, hBase'.calm⟩, h.notFilled,
    ⟨_, hDeletes'⟩, hInserts'⟩
  simp only [Table.sortSets, hSortBase, hSortInserts, hSortDeletes, returns, bind, Except.bind]

theorem sortSetsFor (k : Nat) :
    ∃ t' f', t.sortSetsFor T k = .ok t' ∧ t'.base.openFragments.elems.length = 1 ∧
      f'.window = f.window ∧ Pinned T t' p base deletes inserts f' := by
  induction k generalizing t f with
  | zero => exact ⟨t, f, rfl, hOne, rfl, h⟩
  | succ k ih =>
    obtain ⟨t₁, hSort, hOne₁, h₁⟩ := h.sortSets hOne
    obtain ⟨t', f', hRest, hOne', hWindow, h'⟩ := ih h₁ hOne₁
    refine ⟨t', f', ?_, hOne', hWindow.trans h.inserts.calm.sort.2, h'⟩
    simp only [sortSetsFor, hSort, bind, Except.bind, hRest]

end

end Pinned

namespace Table

variable {T : TableType Data κ} {n : Nat} {t : Table Data κ}

theorem sortSetsFor_sound (h : Sound T n t) (hn : n < 2 ^ 64) (hFills : ¬ t.FillsBase) (k : Nat) :
    ∃ t', t.sortSetsFor T k = .ok t' ∧ Sound T n t' := by
  induction k generalizing t with
  | zero => exact ⟨t, rfl, h⟩
  | succ k ih =>
    obtain ⟨t₁, hSort, h₁, hBuffer⟩ := sortSets_sound h hn hFills
    have hFills₁ : ¬ t₁.FillsBase := by
      unfold FillsBase
      rwa [hBuffer]
    obtain ⟨t', hRest, h'⟩ := ih h₁ hFills₁
    refine ⟨t', ?_, h'⟩
    simp only [sortSetsFor, hSort, bind, Except.bind, hRest]

theorem sortSetsFor_pinned (h : Sound T n t) (hn : n < 2 ^ 64) (hSortable : Sortable T t)
    (clears : Nat) {k : Nat} (hk : 0 < k) :
    ∃ t' p base deletes inserts f, t.sortSetsFor T k = .ok t' ∧ p.clears = clears ∧
      t'.base.openFragments.elems.length = 1 ∧ Pinned T t' p base deletes inserts f := by
  obtain ⟨k, rfl⟩ := Nat.exists_eq_succ_of_ne_zero hk.ne'
  obtain ⟨t₁, p, base, deletes, inserts, f, hSort, hClears, hOne, h₁⟩ :=
    sortSets_pinned h hn hSortable clears
  obtain ⟨t', f', hRest, hOne', -, h'⟩ := h₁.sortSetsFor hOne k
  refine ⟨t', p, base, deletes, inserts, f', ?_, hClears, hOne', h'⟩
  simp only [sortSetsFor, hSort, bind, Except.bind, hRest]

variable {κ' : Type} [LinearOrder κ'] (key : κ') (fn : κ → κ')

def AsksBase (T : TableType Data κ) (t : Table Data κ) : Prop :=
  ∀ r ∈ t.inserts.getByKeyProjection T.item key fn, r.1 = none

instance (t : Table Data κ) : Decidable (AsksBase key fn T t) :=
  match h : t.inserts.getByKeyProjection T.item key fn with
  | some (none, _) => .isTrue (by simp [AsksBase, h])
  | some (some _, _) => .isFalse (by simp [AsksBase, h])
  | none => .isTrue (by simp [AsksBase, h])

/-- What a look-up asks of a table, whether cursors are open on it or not. -/
structure Searchable (T : TableType Data κ) (t : Table Data κ) : Prop where
  inserts : t.inserts.SortsStably T.item
  base : AsksBase key fn T t → ¬ t.FillsBase ∧ t.base.SortsStably T.item

instance [DecidableEq Data] (t : Table Data κ) : Decidable (Searchable key fn T t) :=
  decidable_of_iff (t.inserts.SortsStably T.item ∧
      (AsksBase key fn T t → ¬ t.FillsBase ∧ t.base.SortsStably T.item))
    ⟨fun h => ⟨h.1, h.2⟩, fun h => ⟨h.1, h.2⟩⟩

theorem getByKeyProjection_sound (h : Sound T n t) (hn : n < 2 ^ 64)
    (hSearch : Searchable key fn T t) :
    ∃ r, t.getByKeyProjection T key fn = .ok r ∧ Sound T n r.2 := by
  have hItems := h.items_le
  have hKeys := h.keys_le
  obtain ⟨insIdx, inserts, hInserts, hInsertsUsable⟩ :=
    getByKeyProjection_usable key fn h.inserts (by omega) hSearch.inserts
  cases insIdx with
  | some item =>
    refine ⟨(some item, { t with inserts }), ?_,
      h.reread ⟨h.base, rfl⟩ ⟨h.deletes, rfl⟩ hInsertsUsable
        fun b hBuffer => h.insertBuffer hBuffer⟩
    simp only [getByKeyProjection, hInserts, returns, bind, Except.bind]
  | none =>
    obtain ⟨hFills, hStable⟩ := hSearch.base (by simp [AsksBase, hInserts])
    obtain ⟨baseIdx, base, hBase, hBaseUsable⟩ :=
      getByKeyProjection_usable key fn h.base (by omega) hStable
    cases baseIdx with
    | none =>
      refine ⟨(none, { t with base, inserts }), ?_, h.reread hBaseUsable ⟨h.deletes, rfl⟩
        hInsertsUsable (open_of_not_fillsBase hFills base)⟩
      simp only [getByKeyProjection, hInserts, hBase, returns, bind, Except.bind]
    | some item =>
      obtain ⟨delIdx, deletes, hDeletes, hDeletesUsable⟩ :=
        getByKeyProjection_usable (T.item.pkey item) id h.deletes (by omega)
          (sortsStably_keys h.deletes (by omega))
      refine ⟨(if delIdx.isSome then none else some item, { t with base, deletes, inserts }), ?_,
        h.reread hBaseUsable hDeletesUsable hInsertsUsable (open_of_not_fillsBase hFills base)⟩
      simp only [getByKeyProjection, hInserts, hBase, hDeletes, returns, bind, Except.bind]

end Table

namespace Pinned

open Table

variable {T : TableType Data κ} {n : Nat} {t : Table Data κ} {p : FragmentPointers}
  {base inserts : List Data} {deletes : List κ} {f : SetFragment Data κ}
  {κ' : Type} [LinearOrder κ'] (key : κ') (fn : κ → κ')

variable (h : Pinned T t p base deletes inserts f)
include h

/-- A look-up reads the pinned fragments, and moves the window of `inserts` as the look-up in
`inserts` alone does. -/
theorem getByKeyProjection (hOne : AsksBase key fn T t → t.base.openFragments.elems.length = 1) :
    ∃ r, t.getByKeyProjection T key fn = .ok r ∧ Pinned T r.2 p base deletes inserts
      ((f.sort T.item).getByKeyProjection T.item key fn).2 := by
  obtain ⟨insIdx, inserts', hInserts, hInserts'⟩ :=
    FragmentSet.getByKeyProjection_only key fn h.inserts
  cases insIdx with
  | some item =>
    refine ⟨(some item, { t with inserts := inserts' }), ?_,
      h.base, h.notFilled, h.deletes, hInserts'⟩
    simp only [Table.getByKeyProjection, hInserts, returns, bind, Except.bind]
  | none =>
    obtain ⟨fb, hBase⟩ := h.base_only (hOne (by simp [AsksBase, hInserts]))
    obtain ⟨baseIdx, base', hSearchBase, hBase'⟩ := FragmentSet.getByKeyProjection_only key fn hBase
    cases baseIdx with
    | none =>
      refine ⟨(none, { t with base := base', inserts := inserts' }), ?_,
        ⟨_, hBase'.find, hBase'.calm⟩, h.notFilled, h.deletes, hInserts'⟩
      simp only [Table.getByKeyProjection, hInserts, hSearchBase, returns, bind, Except.bind]
    | some item =>
      obtain ⟨fd, hDeletes⟩ := h.deletes
      obtain ⟨delIdx, deletes', hSearchDeletes, hDeletes'⟩ :=
        FragmentSet.getByKeyProjection_only (T.item.pkey item) id hDeletes
      refine ⟨(if delIdx.isSome then none else some item,
        { t with base := base', deletes := deletes', inserts := inserts' }), ?_,
        ⟨_, hBase'.find, hBase'.calm⟩, h.notFilled, ⟨_, hDeletes'⟩, hInserts'⟩
      simp only [Table.getByKeyProjection, hInserts, hSearchBase, hSearchDeletes, returns, bind,
        Except.bind]

theorem window_of_search
    (hSame : ∀ r ∈ t.inserts.getByKeyProjection T.item key fn, r.2.windows = t.inserts.windows) :
    ((f.sort T.item).getByKeyProjection T.item key fn).2.window = f.window := by
  obtain ⟨insIdx, inserts', hInserts, hInserts'⟩ := getByKeyProjection_only key fn h.inserts
  have hWindows := hSame _ hInserts
  simpa only [windows, hInserts'.elems, h.inserts.elems, map_cons, map_nil,
    cons.injEq, and_true] using hWindows

end Pinned

/-! ## Rows that a step reads -/

theorem FragmentSet.Only.unique {ι : Type} {I : ItemType ι κ} {s : FragmentSet ι κ}
    {file file' : List Nat} {f f' : SetFragment ι κ} {l l' : List ι} (h : Only I s file f l)
    (h' : Only I s file' f' l') : file = file' ∧ f = f' :=
  Prod.mk.inj (singleton_inj.mp (h.elems.symm.trans h'.elems))

section

open Table

variable {T : TableType Data κ} {n : Nat} {s : Session T} {p q : FragmentPointers}
  {base base' inserts inserts' : List Data} {deletes deletes' : List κ}
  {f f' : SetFragment Data κ} (reads : RowReads)

theorem Pinned.readRows (h : Pinned T s.table p base deletes inserts f)
    (h' : Pinned T s.table q base' deletes' inserts' f') :
    Pinned T (s.readRows p reads) q base' deletes' inserts' (f'.readRows T.item reads.inserts) where
  base := by
    obtain ⟨fp, hFind, -⟩ := h.base
    obtain ⟨fq, hFind', hCalm'⟩ := h'.base
    refine ⟨if q.base = p.base then fp.readRows T.item reads.base else fq, ?_, ?_⟩
    · change (s.table.base.updateFragment T.item p.base _).openFragments.find q.base = _
      rw [FragmentSet.update_find hFind, hFind']
      split <;> rfl
    · split
      · rename_i hSame
        rw [hSame, hFind] at hFind'
        cases hFind'
        exact hCalm'.readRows
      · exact hCalm'
  notFilled := h'.notFilled
  deletes := by
    obtain ⟨fp, hOnly⟩ := h.deletes
    obtain ⟨fq, hOnly'⟩ := h'.deletes
    have hFile := (hOnly.unique hOnly').1
    have hUpdated := hOnly'.update (SetFragment.readRows T.key reads.deletes) hOnly'.calm.readRows
    rw [← hFile] at hUpdated ⊢
    exact ⟨_, hUpdated⟩
  inserts := by
    have hFile := (h.inserts.unique h'.inserts).1
    have hUpdated := h'.inserts.update (SetFragment.readRows T.item reads.inserts)
      h'.inserts.calm.readRows
    rw [← hFile] at hUpdated ⊢
    exact hUpdated

theorem Pinned.readRows_sound (h : Pinned T s.table p base deletes inserts f)
    (hSound : Sound T n s.table) : Sound T n (s.readRows p reads) := by
  obtain ⟨fb, hFind, hCalm⟩ := h.base
  obtain ⟨fd, hDeletes⟩ := h.deletes
  have hItems := hCalm.items
  have hKeys := hDeletes.calm.items
  have hRows := h.inserts.calm.items
  apply hSound.reread
  · apply update_usable _ hSound.base hFind _ readRows_sorted
    rw [hItems]
    exact hCalm.readRows
  · apply update_usable _ hSound.deletes hDeletes.find _ readRows_sorted
    rw [hKeys]
    exact hDeletes.calm.readRows
  · apply update_usable _ hSound.inserts h.inserts.find _ readRows_sorted
    rw [hRows]
    exact h.inserts.calm.readRows
  · intro b hBuffer file hFile
    obtain ⟨f', l, hFind', hBuilt⟩ := hSound.insertBuffer hBuffer file hFile
    refine ⟨f', l, ?_, hBuilt⟩
    rw [updateFragment_other]
    · exact hFind'
    · rintro rfl
      exact h.notFilled hBuffer hFile

end

end Fhgfs.Fsck
