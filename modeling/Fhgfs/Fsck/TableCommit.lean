import Fhgfs.Fsck.TableContent

/-!
# Commits and queries

A commit moves the pending changes without a change of what the table stands for, and the
query over the three sets then reads its content in ascending order.
-/

namespace Fhgfs.Fsck

open FragmentSet LeftJoinEq SetFragment List SetFragmentCursor Union
open FragmentSet (Usable elements)
open SetFragment (Holds Ready)

variable {Data κ : Type} [LinearOrder κ] {T : TableType Data κ}

/-! ## The left rows without a match -/

section

variable {α β : Type} {leftKey : α → κ} {rightKey : β → κ}

theorem unmatched_joinRow (r : List β) (x : α) :
    ((joinRow leftKey rightKey r x).filter fun row => row.2.isNone).map Prod.fst =
      if leftKey x ∈ r.map rightKey then [] else [x] := by
  unfold joinRow
  split
  · rename_i hNil
    rw [if_neg]
    · rfl
    · rintro hIn
      obtain ⟨y, hy, hKey⟩ := mem_map.mp hIn
      exact filter_eq_nil_iff.mp hNil y hy (by simpa using hKey)
  · rename_i ys hSome
    obtain ⟨y, hy⟩ := exists_mem_of_ne_nil _ hSome
    obtain ⟨hIn, hKey⟩ := mem_filter.mp hy
    rw [if_pos (mem_map.mpr ⟨y, hIn, by simpa using hKey⟩)]
    simp [filter_map, Function.comp_def]

theorem unmatched_joinRows (l : List α) (r : List β) :
    ((joinRows leftKey rightKey l r).filter fun row => row.2.isNone).map Prod.fst =
      l.filter fun x => leftKey x ∉ r.map rightKey := by
  induction l with
  | nil => rfl
  | cons x l ih =>
    rw [joinRows_cons, filter_append, map_append, unmatched_joinRow, ih]
    by_cases hIn : leftKey x ∈ r.map rightKey
    · rw [if_pos hIn, filter_cons_of_neg (by simpa using hIn), nil_append]
    · rw [if_neg hIn, filter_cons_of_pos (by simpa using hIn), singleton_append]

end

namespace Table

variable {n : Nat} {t : Table Data κ} {lf : SetFragment Data κ} {rf : SetFragment κ κ}
  {l : List Data} {r : List κ}

/-! ## Joins of items with keys -/

theorem map_key (r : List κ) : r.map T.key.pkey = r := by
  rw [map_congr_left fun k _ => T.key_pkey k, map_id']

theorem unmatched_rows :
    ((joinRows T.item.pkey T.key.pkey l r).filter fun row => row.2.isNone).map
      Prod.fst = l.filter fun x => T.item.pkey x ∉ r := by
  rw [unmatched_joinRows, map_key]

theorem stdSort_keys {r : List κ} (hAsc : T.key.Ascending r) : T.key.stdSort r = r := by
  refine (T.key.stdSort_perm r).eq_of_pairwise (fun a b _ _ hab hba => ?_)
    (T.key.stdSort_ascending r) hAsc
  rw [T.key_pkey, T.key_pkey] at hab hba
  exact le_antisymm hab hba

section

variable (T) in
def joinInputs (hl : Holds lf l) (hr : Holds rf r) (hlSize : l.length < 2 ^ 64)
    (hrSize : r.length < 2 ^ 64) : Inputs (lf.cursor T.item) (rf.cursor T.key) κ :=
  ⟨T.item.pkey, T.key.pkey, spec l, spec r, CursorAt l, CursorAt r, cursor_reads hl hlSize,
    cursor_reads hr hrSize⟩

variable (hl : Holds lf l) (hr : Holds rf r) (hlSize : l.length < 2 ^ 64)
  (hrSize : r.length < 2 ^ 64) (hlAsc : T.item.Ascending l) (hrAsc : T.key.Ascending r)
include hl hr hlSize hrSize hlAsc hrAsc

theorem join_reads : Cursor.Reads
    (leftJoinEq (lf.cursor T.item) (rf.cursor T.key) T.item.pkey T.key.pkey)
    (LeftJoinEq.spec T.item.pkey T.key.pkey (spec l) (spec r))
    ((joinInputs T hl hr hlSize hrSize).At (joinInputs T hl hr hlSize hrSize).Sorted) :=
  Inputs.reads (J := joinInputs T hl hr hlSize hrSize) ⟨hlAsc, hrAsc⟩ (noStale_of_getLast rfl)
    fun _ => trivial

theorem join_drain : ∃ s, (leftJoinEq (lf.cursor T.item) (rf.cursor T.key) T.item.pkey
      T.key.pkey).drainAll = some (joinRows T.item.pkey T.key.pkey l r, s) ∧
    Holds s.right.1 r := by
  obtain ⟨s, hDrain, ⟨-, ⟨p, ⟨hHolds, -⟩, -⟩, -⟩, -⟩ :=
    (join_reads hl hr hlSize hrSize hlAsc hrAsc).drainAll
  exact ⟨s, hDrain, hHolds⟩

end

/-! ## Collapsing changes -/

theorem newSet_usable {ι : Type} {I : ItemType ι κ} (rows : List ι) :
    Usable I (((FragmentSet.create : FragmentSet ι κ).newFragment I).2.updateFragment I
      ((FragmentSet.create : FragmentSet ι κ).newFragment I).1 fun f => f.appendAll I rows) ∧
    elements I (((FragmentSet.create : FragmentSet ι κ).newFragment I).2.updateFragment I
      ((FragmentSet.create : FragmentSet ι κ).newFragment I).1 fun f => f.appendAll I rows) =
        ↑rows := by
  have hCreate : Usable I (FragmentSet.create : FragmentSet ι κ) := FragmentSet.create_usable
  obtain ⟨hNew, hElements⟩ := FragmentSet.newFragment_usable hCreate
  have hBuilt := SetFragment.appendAll_built (T := I) SetFragment.create_built rows
  obtain ⟨hUsable, hUpdated⟩ := FragmentSet.updateFragment_usable
    (fun f => f.appendAll I rows) hNew
    (FragmentSet.newFragment_find hCreate.toStands) hBuilt.toReady
  rw [hElements, FragmentSet.elements_create, FragmentSet.items_create, Multiset.coe_nil, add_zero,
    zero_add] at hUpdated
  exact ⟨hUsable, hUpdated⟩

theorem applyDeletes_spec (h : Sound T n t) (hn : n < 2 ^ 64) :
    ∃ inserts deletes deletesPending, t.applyDeletes T =
        .ok { t with inserts, deletes, deletesPending } ∧
      (Usable T.item inserts ∧ elements T.item inserts =
        without T (elements T.item t.inserts) (elements T.key t.deletesPending)) ∧
      (Usable T.key deletes ∧
        (elements T.key deletes).card ≤
          (elements T.key t.deletes).card + (elements T.key t.deletesPending).card ∧
        ∀ k, k ∈ elements T.key deletes ↔
          k ∈ elements T.key t.deletes + elements T.key t.deletesPending) ∧
      Usable T.key deletesPending ∧ elements T.key deletesPending = 0 := by
  have hItems := h.items_le
  have hKeys := h.keys_le
  obtain ⟨lfile, lf, inserts₁, -, hLeft, hInserts, hlFind, -, hlItems, hlAsc⟩ :=
    FragmentSet.cursorFragment_spec h.inserts (by omega)
  obtain ⟨file, rf, pending, -, hRight, hPending, hFind, hPendingElements, hrItems, hrAsc⟩ :=
    FragmentSet.cursorFragment_spec h.deletesPending (by omega)
  have hlCard := congrArg Multiset.card hlItems
  have hrCard := congrArg Multiset.card hrItems
  rw [Multiset.coe_card] at hlCard hrCard
  obtain ⟨s, hDrain, hRead⟩ := join_drain (hInserts.ready hlFind).holds (hPending.ready hFind).holds
    (by omega) (by omega) hlAsc hrAsc
  -- the fragment of the deletes after the loop still has the keys
  obtain ⟨hPending', hPendingElements'⟩ := FragmentSet.updateFragment_usable
    (fun _ => s.right.1) hPending hFind
    ⟨hRead, fun _ => hrAsc, fun _ => Or.inr (stdSort_keys hrAsc)⟩
  have hKept := (add_right_cancel hPendingElements').trans hPendingElements
  obtain ⟨⟨hEmpty, hEmptyElements⟩, hMerged, hMergedElements⟩ :=
    FragmentSet.mergeInto_usable hPending' h.deletes
  rw [hKept] at hMergedElements
  obtain ⟨deletes, hUnique, hDeletes, hCard, hMem⟩ := FragmentSet.makeUnique_usable hMerged
    (by rw [hMergedElements, Multiset.card_add]; omega)
  obtain ⟨hTemp, hTempElements⟩ := newSet_usable (I := T.item)
    ((lf.items T.item).filter fun x => T.item.pkey x ∉ rf.items T.key)
  obtain ⟨-, hNew, hNewElements⟩ := FragmentSet.mergeInto_usable hTemp FragmentSet.clear_usable
  refine ⟨_, deletes, _, ?_, ⟨hNew, ?_⟩, ⟨hDeletes, ?_, fun k => ?_⟩, hEmpty, hEmptyElements⟩
  · simp only [applyDeletes, hLeft, hRight, hDrain, returns, hUnique, unmatched_rows, bind,
      Except.bind]
  · rw [hNewElements, FragmentSet.elements_clear, hTempElements, zero_add, ← hlItems, ← hrItems,
      without, Multiset.filter_coe]
    rfl
  · rwa [hMergedElements, Multiset.card_add] at hCard
  · simpa only [T.key_pkey, exists_eq_right, hMergedElements] using hMem k

/-- The pending changes are gone, and no buffer is open. -/
structure Settled (T : TableType Data κ) (t : Table Data κ) : Prop where
  insertsPending : elements T.item t.insertsPending = 0
  deletesPending : elements T.key t.deletesPending = 0
  insertBuffer : t.insertBuffer = none
  deleteBuffer : t.deleteBuffer = none
  insertsIntoBase : t.insertsIntoBase = false

theorem resetDeleteBuffer_spec (h : Sound T n t) : Sound T n (t.resetDeleteBuffer T) ∧
    content T (t.resetDeleteBuffer T) = content T t ∧
    (t.resetDeleteBuffer T).deleteBuffer = none := by
  unfold resetDeleteBuffer
  split
  · exact ⟨h, rfl, ‹_›⟩
  rename_i b hBuffer
  obtain ⟨hUsable, hElements⟩ := Buffer.flush_usable h.deletesPending (h.deleteBuffer hBuffer)
  refine ⟨⟨h.base, h.inserts, h.deletes, h.insertsPending, hUsable, h.insertBuffer, by simp,
    h.intoBase, ?_, h.items_le, ?_⟩, ?_, rfl⟩
  · simpa only [hElements] using h.initial
  · simpa only [hElements] using h.keys_le
  · simp only [content, older, hElements]

theorem resetInsertBuffer_fields : (t.resetInsertBuffer T).insertBuffer = none ∧
    (t.resetInsertBuffer T).deleteBuffer = t.deleteBuffer := by
  unfold resetInsertBuffer
  split
  · exact ⟨‹_›, rfl⟩
  · exact ⟨rfl, rfl⟩
  · exact ⟨rfl, rfl⟩

section

variable (h : Sound T n t)
include h

theorem collapseDeletes_spec (hn : n < 2 ^ 64)
    (hInto : t.insertsIntoBase = false) (hInsert : t.insertBuffer = none)
    (hDelete : t.deleteBuffer = none) :
    ∃ t', t.collapseDeletes T = .ok t' ∧ Sound T n t' ∧ content T t' = content T t ∧
      elements T.key t'.deletesPending = 0 ∧ t'.insertBuffer = none ∧ t'.deleteBuffer = none ∧
      t'.insertsIntoBase = false := by
  have hItems := h.items_le
  have hKeys := h.keys_le
  unfold collapseDeletes
  split
  · obtain ⟨inserts, deletes, deletesPending, hApply, ⟨hInserts, hInsertsElements⟩,
      ⟨hDeletes, hCard, hMem⟩, hPending, hPendingElements⟩ := applyDeletes_spec h hn
    refine ⟨_, hApply, ⟨h.base, hInserts, hDeletes, h.insertsPending, hPending, h.insertBuffer,
      by simp [hDelete], h.intoBase, by simp [hInto], ?_, ?_⟩, ?_, hPendingElements, hInsert,
      hDelete, hInto⟩
    · have hLess := Multiset.card_le_card (Multiset.filter_le
        (fun x => T.item.pkey x ∉ elements T.key t.deletesPending) (elements T.item t.inserts))
      simp only [hInsertsElements]
      exact le_trans (by unfold without; omega) hItems
    · simp only [hPendingElements, Multiset.card_zero]
      omega
    · simp only [content, older, hPendingElements, hInsertsElements, without_zero, without_add,
        without_without, without_congr _ hMem]
  · rename_i hSize
    refine ⟨t, rfl, h, rfl, ?_, hInsert, hDelete, hInto⟩
    rwa [not_ne_iff, h.deletesPending.size_eq, Multiset.card_eq_zero] at hSize

theorem collapseInserts_spec (hDeletes : elements T.key t.deletesPending = 0)
    (hInsert : t.insertBuffer = none) (hInto : t.insertsIntoBase = false) :
    Sound T n t.collapseInserts ∧ content T t.collapseInserts = content T t ∧
      elements T.item t.collapseInserts.insertsPending = 0 := by
  have hItems := h.items_le
  unfold collapseInserts
  split
  · obtain ⟨⟨hEmpty, hEmptyElements⟩, hMerged, hMergedElements⟩ :=
      mergeInto_usable h.insertsPending h.inserts
    refine ⟨⟨h.base, hMerged, h.deletes, hEmpty, h.deletesPending, by simp [hInsert],
      h.deleteBuffer, h.intoBase, by simp [hInto], ?_, h.keys_le⟩, ?_, hEmptyElements⟩
    · simp only [hMergedElements, hEmptyElements, Multiset.card_add, Multiset.card_zero]
      omega
    · simp only [content, older, hMergedElements, hEmptyElements, hDeletes, without_zero,
        add_zero, add_assoc]
  · rename_i hSize
    refine ⟨h, rfl, ?_⟩
    rwa [not_ne_iff, h.insertsPending.size_eq, Multiset.card_eq_zero] at hSize

theorem collapseChanges_spec (hn : n < 2 ^ 64) :
    ∃ t', t.collapseChanges T = .ok t' ∧ Sound T n t' ∧ content T t' = content T t ∧
      Settled T t' := by
  obtain ⟨hSound, hContent, hDelete⟩ := resetDeleteBuffer_spec h
  obtain ⟨hInsertNone, hDeleteSame⟩ := resetInsertBuffer_fields (T := T)
    (t := t.resetDeleteBuffer T)
  obtain ⟨hSound₁, hOlder₁, hPending₁⟩ := resetInsertBuffer_spec hSound
    ((t.resetDeleteBuffer T).resetInsertBuffer T).modificationState
  obtain ⟨t₂, hCollapse, hSound₂, hContent₂, hDeletes, hInsert₂, hDelete₂, hInto₂⟩ :=
    collapseDeletes_spec hSound₁ hn rfl hInsertNone (hDeleteSame.trans hDelete)
  obtain ⟨hSound₃, hContent₃, hPending₃⟩ := collapseInserts_spec hSound₂ hDeletes hInsert₂ hInto₂
  have hFields : t₂.collapseInserts.deletesPending = t₂.deletesPending ∧
      t₂.collapseInserts.insertBuffer = t₂.insertBuffer ∧
      t₂.collapseInserts.deleteBuffer = t₂.deleteBuffer ∧
      t₂.collapseInserts.insertsIntoBase = t₂.insertsIntoBase := by
    unfold collapseInserts
    split <;> exact ⟨rfl, rfl, rfl, rfl⟩
  obtain ⟨hDeletes', hInsert', hDelete', hInto'⟩ := hFields
  refine ⟨{ t₂.collapseInserts with modificationState := .ms_none }, ?_,
    hSound₃.withOrder .ms_none _ _, ?_,
    ⟨hPending₃, (congrArg _ hDeletes').trans hDeletes, hInsert'.trans hInsert₂,
      hDelete'.trans hDelete₂, hInto'.trans hInto₂⟩⟩
  · simp only [collapseChanges, bind, Except.bind, hCollapse]
  · calc content T { t₂.collapseInserts with modificationState := .ms_none }
        = content T t₂ := hContent₃
      _ = content T { (t.resetDeleteBuffer T).resetInsertBuffer T with
            insertsIntoBase := false } := hContent₂
      _ = content T (t.resetDeleteBuffer T) := congrArg₂ (· + ·) hOlder₁ hPending₁
      _ = content T t := hContent

theorem commitChanges_spec (hn : n < 2 ^ 64) :
    ∃ t', t.commitChanges T = .ok t' ∧ Sound T n t' ∧ content T t' = content T t ∧
      Settled T t' := by
  obtain ⟨t₁, hCollapse, hSound, hContent, hSettled⟩ := collapseChanges_spec h hn
  have hItems := hSound.items_le
  have hKeys := hSound.keys_le
  obtain ⟨base, hBase, hBaseUsable, hBaseElements⟩ := sort_usable hSound.base (by omega)
  obtain ⟨inserts, hInserts, hInsertsUsable, hInsertsElements⟩ :=
    sort_usable hSound.inserts (by omega)
  obtain ⟨deletes, hDeletes, hDeletesUsable, hDeletesElements⟩ :=
    sort_usable hSound.deletes (by omega)
  refine ⟨{ t₁ with base, inserts, deletes }, ?_, ?_, ?_,
    ⟨hSettled.insertsPending, hSettled.deletesPending, hSettled.insertBuffer,
      hSettled.deleteBuffer, hSettled.insertsIntoBase⟩⟩
  · simp only [commitChanges, bind, Except.bind, hCollapse, returns, hBase, hInserts, hDeletes]
  · refine ⟨hBaseUsable, hInsertsUsable, hDeletesUsable, hSound.insertsPending,
      hSound.deletesPending, ?_, hSound.deleteBuffer, hSound.intoBase, ?_, ?_, ?_⟩
    · simp [hSettled.insertBuffer]
    · simp [hSettled.insertsIntoBase]
    · simpa only [hBaseElements, hInsertsElements] using hItems
    · simpa only [hDeletesElements] using hKeys
  · rw [← hContent]
    simp only [content, older, hBaseElements, hInsertsElements, hDeletesElements]

end

/-! ## The query -/

theorem queryCursor_readAll {f : SetFragment Data κ} {x : List Data} (hl : Holds lf l)
    (hr : Holds rf r) (hf : Holds f x) (hlSize : l.length < 2 ^ 64) (hrSize : r.length < 2 ^ 64)
    (hxSize : x.length < 2 ^ 64) (hlAsc : T.item.Ascending l) (hrAsc : T.key.Ascending r) :
    (queryCursor T lf rf f).readAll =
      some (mergeRows T.item.pkey (l.filter fun x => T.item.pkey x ∉ r) x) := by
  have hJoin : Cursor.Reads (select (filter _ fun row : Data × Option κ => row.2.isNone)
      Prod.fst) _ _ := Select.reads (Filter.reads (join_reads hl hr hlSize hrSize hlAsc hrAsc))
  rw [← unmatched_rows]
  exact (reads hJoin (cursor_reads hf hxSize)).readAll

section

variable (h : Sound T n t) (hn : n < 2 ^ 64) (hSettled : Settled T t)
include h hn hSettled

/-- With nothing pending, the query merges the items of `base` that are not deleted with those of
`inserts`. -/
theorem rows_items : ∃ base deletes inserts, T.item.Ascending base ∧ T.key.Ascending deletes ∧
      T.item.Ascending inserts ∧ base.length < 2 ^ 64 ∧ deletes.length < 2 ^ 64 ∧
      inserts.length < 2 ^ 64 ∧
      t.rows T = .ok (mergeRows T.item.pkey
        (base.filter fun x => T.item.pkey x ∉ deletes) inserts) ∧
      (mergeRows T.item.pkey (base.filter fun x => T.item.pkey x ∉ deletes) inserts :
        Multiset Data) = content T t := by
  have hItems := h.items_le
  have hKeys := h.keys_le
  obtain ⟨bfile, bf, base, -, hBase, hBaseUsable, hbFind, -, hbItems, hbAsc⟩ :=
    cursorFragment_spec h.base (by omega)
  obtain ⟨dfile, df, deletes, -, hDeletes, hDeletesUsable, hdFind, -, hdItems, hdAsc⟩ :=
    cursorFragment_spec h.deletes (by omega)
  obtain ⟨ifile, f, inserts, -, hInserts, hInsertsUsable, hiFind, -, hiItems, hiAsc⟩ :=
    cursorFragment_spec h.inserts (by omega)
  have hbCard := congrArg Multiset.card hbItems
  have hdCard := congrArg Multiset.card hdItems
  have hiCard := congrArg Multiset.card hiItems
  rw [Multiset.coe_card] at hbCard hdCard hiCard
  have hRead := queryCursor_readAll (T := T) (hBaseUsable.ready hbFind).holds
    (hDeletesUsable.ready hdFind).holds (hInsertsUsable.ready hiFind).holds (by omega) (by omega)
    (by omega) hbAsc hdAsc
  refine ⟨bf.items T.item, df.items T.key, f.items T.item, hbAsc, hdAsc, hiAsc, by omega,
    by omega, by omega, ?_, ?_⟩
  · simp only [rows, hBase, hDeletes, hInserts, returns, bind, Except.bind, hRead]
  · rw [Multiset.coe_eq_coe.mpr (mergeRows_perm _ _), ← Multiset.coe_add, hiItems, content,
      older, hSettled.insertsPending, hSettled.deletesPending, without_zero, add_zero, ← hbItems,
      ← hdItems, without, Multiset.filter_coe]
    rfl

theorem rows_spec :
    ∃ rows, t.rows T = .ok rows ∧ T.item.Ascending rows ∧ (rows : Multiset Data) = content T t := by
  obtain ⟨base, deletes, inserts, hBase, -, hInserts, -, -, -, hRows, hContent⟩ :=
    rows_items h hn hSettled
  exact ⟨_, hRows, mergeRows_ascending (hBase.sublist filter_sublist) hInserts, hContent⟩

end

end Table

end Fhgfs.Fsck
