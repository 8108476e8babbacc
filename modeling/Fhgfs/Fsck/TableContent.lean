import Fhgfs.Fsck.FragmentSetElements

/-!
# What a table stands for

`content` is the multiset that a table stands for between two calls: the items of `base` whose
key is not in `deletes`, and the inserts, without those whose key is in a pending delete, and
the pending inserts. `Sound` is the invariant of the calls, with a bound on the sizes of the
sets, and `Original` that of a table that has not been opened again. The calls that only buffer
a change are here: `content` follows an insert, unless it goes into `base` under a key that is in
`deletes`, and it follows a remove but for the pending inserts, which the remove does not reach.
-/

namespace Fhgfs.Fsck.Table

open FragmentSet Buffer
open FragmentSet (Usable elements)

variable {Data κ : Type} [LinearOrder κ]

def without (T : TableType Data κ) (m : Multiset Data) (keys : Multiset κ) : Multiset Data :=
  m.filter fun x => T.item.pkey x ∉ keys

def older (T : TableType Data κ) (t : Table Data κ) : Multiset Data :=
  without T (without T (elements T.item t.base) (elements T.key t.deletes) +
    elements T.item t.inserts) (elements T.key t.deletesPending)

def content (T : TableType Data κ) (t : Table Data κ) : Multiset Data :=
  older T t + elements T.item t.insertsPending

def targetSet (t : Table Data κ) : InsertTarget → FragmentSet Data κ
  | .base => t.base
  | .insertsPending => t.insertsPending

structure Sound (T : TableType Data κ) (n : Nat) (t : Table Data κ) : Prop where
  base : Usable T.item t.base
  inserts : Usable T.item t.inserts
  deletes : Usable T.key t.deletes
  insertsPending : Usable T.item t.insertsPending
  deletesPending : Usable T.key t.deletesPending
  insertBuffer {target : InsertTarget} {b : Buffer} :
    t.insertBuffer = some (target, b) → b.Open T.item (t.targetSet target)
  deleteBuffer {b : Buffer} : t.deleteBuffer = some b → b.Open T.key t.deletesPending
  intoBase : t.insertsIntoBase = true ↔ ∃ b, t.insertBuffer = some (.base, b)
  /-- The first inserts go into `base` only while nothing is pending. -/
  initial : t.insertsIntoBase = true →
    elements T.item t.insertsPending = 0 ∧ elements T.key t.deletesPending = 0
  items_le : (elements T.item t.base).card + (elements T.item t.inserts).card +
    (elements T.item t.insertsPending).card ≤ n
  keys_le : (elements T.key t.deletes).card + (elements T.key t.deletesPending).card ≤ n

/-- The table has been sound since it was created: no key is deleted while the first inserts go
into `base`. -/
structure Original (T : TableType Data κ) (n : Nat) (t : Table Data κ) : Prop
    extends Sound T n t where
  undeleted : t.insertsIntoBase = true → elements T.key t.deletes = 0

variable {T : TableType Data κ} {n : Nat} {t : Table Data κ}

/-! ## Items without keys -/

variable (m : Multiset Data)

@[simp] theorem without_zero : without T m 0 = m := by simp [without]

theorem without_add (m m' : Multiset Data) (keys : Multiset κ) :
    without T (m + m') keys = without T m keys + without T m' keys := Multiset.filter_add _ _ _

theorem without_congr {keys keys' : Multiset κ}
    (h : ∀ k, k ∈ keys ↔ k ∈ keys') : without T m keys = without T m keys' :=
  Multiset.filter_congr fun _ _ => not_congr (h _)

theorem without_without (keys keys' : Multiset κ) :
    without T (without T m keys) keys' = without T m (keys + keys') := by
  unfold without
  rw [Multiset.filter_filter]
  refine Multiset.filter_congr fun x _ => ?_
  rw [Multiset.mem_add, not_or, and_comm]

theorem cons_without {x : Data} {keys : Multiset κ}
    (h : T.item.pkey x ∉ keys) : without T (x ::ₘ m) keys = x ::ₘ without T m keys :=
  Multiset.filter_cons_of_pos _ h

theorem without_cons (k : κ) (keys : Multiset κ) :
    without T m (k ::ₘ keys) = (without T m keys).filter fun x => T.item.pkey x ≠ k := by
  unfold without
  rw [Multiset.filter_filter]
  refine Multiset.filter_congr fun x _ => ?_
  rw [Multiset.mem_cons, not_or]

/-! ## The order checks -/

theorem ok_of_bind {α β : Type} {x : Except TableError α} {f : α → Except TableError β} {b : β}
    (h : x >>= f = .ok b) : ∃ a, x = .ok a ∧ f a = .ok b := by
  cases x with
  | error e => cases h
  | ok a => exact ⟨a, rfl, h⟩

theorem Sound.mono {n' : Nat} (h : Sound T n t) (hLe : n ≤ n') : Sound T n' t :=
  { h with items_le := h.items_le.trans hLe, keys_le := h.keys_le.trans hLe }

/-- Neither the order of the calls nor the bulk inserters matter for what a table stands for. -/
theorem Sound.withOrder (h : Sound T n t) (state : ModificationState) (last : Option κ)
    (bulk : List Bool) : Sound T n { t with
      modificationState := state, lastChangeKey := last, bulkInserters := bulk } :=
  ⟨h.base, h.inserts, h.deletes, h.insertsPending, h.deletesPending, h.insertBuffer,
    h.deleteBuffer, h.intoBase, h.initial, h.items_le, h.keys_le⟩

variable {t' : Table Data κ}

omit [LinearOrder κ] in
theorem assertNoBulkInsert_eq (h : t.assertNoBulkInsert = .ok t') :
    t' = { t with bulkInserters := [] } := by
  unfold assertNoBulkInsert at h
  split at h
  · cases h
  · exact (Except.ok.inj h).symm

theorem orderInsert_eq {key : κ} (h : t.orderInsert T key = .ok t') :
    ∃ state bulk, t' = { t with modificationState := state, bulkInserters := bulk } := by
  unfold orderInsert at h
  cases hState : t.modificationState <;> simp only [hState] at h
  case ms_bulk_insert =>
    cases hBulk : t.assertNoBulkInsert with
    | error e =>
      rw [hBulk] at h
      cases h
    | ok t₁ =>
      rw [hBulk] at h
      obtain rfl := assertNoBulkInsert_eq hBulk
      exact ⟨_, _, (Except.ok.inj h).symm⟩
  case ms_unordered_delete => cases h
  all_goals first
    | exact ⟨_, _, (Except.ok.inj h).symm⟩
    | split at h <;> first
      | exact ⟨_, _, (Except.ok.inj h).symm⟩
      | cases h

theorem orderRemove_eq {key : κ} (h : t.orderRemove key = .ok t') :
    ∃ state, t' = { t with modificationState := state } := by
  unfold orderRemove at h
  cases hState : t.modificationState <;> simp only [hState] at h
  case ms_unordered_insert => cases h
  all_goals first
    | exact ⟨_, (Except.ok.inj h).symm⟩
    | split at h <;> first
      | exact ⟨_, (Except.ok.inj h).symm⟩
      | cases h

/-! ## Insert -/

theorem insertTarget_open (h : Sound T n t) {target : InsertTarget} {b : Buffer}
    (hBuffer : t.insertBuffer.getD (.insertsPending, ⟨none⟩) = (target, b)) :
    b.Open T.item (t.targetSet target) ∧ (t.insertsIntoBase = true ↔ target = .base) := by
  cases hSome : t.insertBuffer with
  | none =>
    rw [hSome, Option.getD_none] at hBuffer
    cases hBuffer
    refine ⟨open_none, ?_⟩
    rw [h.intoBase, hSome]
    simp
  | some p =>
    rw [hSome, Option.getD_some] at hBuffer
    subst hBuffer
    refine ⟨h.insertBuffer hSome, ?_⟩
    rw [h.intoBase, hSome]
    simp

/-- The insert goes into `base` only under a key that has not been deleted. -/
def Unhidden (T : TableType Data κ) (t : Table Data κ) (data : Data) : Prop :=
  t.insertsIntoBase = true → T.item.pkey data ∉ elements T.key t.deletes

theorem appendInsert_spec (h : Sound T n t) (data : Data) :
    Sound T (n + 1) (t.appendInsert T data) ∧ (t.Unhidden T data →
      content T (t.appendInsert T data) = data ::ₘ content T t) := by
  rcases hBuffer : t.insertBuffer.getD (.insertsPending, ⟨none⟩) with ⟨target, b⟩
  obtain ⟨hOpen, hTarget⟩ := insertTarget_open h hBuffer
  have hItems := h.items_le
  unfold appendInsert
  rw [hBuffer]
  cases target with
  | base =>
    obtain ⟨hUsable, hOpen', hElements⟩ := append_usable T.fragmentSize data h.base hOpen
    have hInto : t.insertsIntoBase = true := hTarget.mpr rfl
    obtain ⟨hPending, hDeletesPending⟩ := h.initial hInto
    refine ⟨⟨hUsable, h.inserts, h.deletes, h.insertsPending, h.deletesPending, ?_,
      h.deleteBuffer, ?_, h.initial, ?_, h.keys_le.trans n.le_succ⟩, fun hNew => ?_⟩
    · rintro target b' ⟨⟩
      exact hOpen'
    · exact iff_of_true hInto ⟨_, rfl⟩
    · simp only [hElements, Multiset.card_cons]
      omega
    · simp only [content, older, hElements, hPending, hDeletesPending, without_zero, add_zero,
        cons_without _ (hNew hInto), Multiset.cons_add]
  | insertsPending =>
    obtain ⟨hUsable, hOpen', hElements⟩ := append_usable T.fragmentSize data h.insertsPending hOpen
    have hInto : ¬ t.insertsIntoBase = true := fun hTrue => by cases hTarget.mp hTrue
    refine ⟨⟨h.base, h.inserts, h.deletes, hUsable, h.deletesPending, ?_,
      h.deleteBuffer, ?_, fun hTrue => absurd hTrue hInto, ?_, h.keys_le.trans n.le_succ⟩,
      fun _ => ?_⟩
    · rintro target b' ⟨⟩
      exact hOpen'
    · exact iff_of_false hInto (by simp)
    · simp only [hElements, Multiset.card_cons]
      omega
    · simp only [content, older, hElements, Multiset.add_cons]

theorem insert_cases {data : Data} (hInsert : t.insert T data = .ok t') :
    ∃ state bulk, t' = appendInsert T data { t with
      modificationState := state
      lastChangeKey := some (T.item.pkey data)
      bulkInserters := bulk } := by
  obtain ⟨t₁, hOrder, hAppend⟩ := ok_of_bind hInsert
  obtain ⟨state, bulk, rfl⟩ := orderInsert_eq hOrder
  exact ⟨state, bulk, (Except.ok.inj hAppend).symm⟩

theorem insert_spec (h : Sound T n t) {data : Data}
    (hInsert : t.insert T data = .ok t') : Sound T (n + 1) t' ∧
      (t.Unhidden T data → content T t' = data ::ₘ content T t) := by
  obtain ⟨state, bulk, rfl⟩ := insert_cases hInsert
  exact appendInsert_spec (h.withOrder state (some (T.item.pkey data)) bulk) data

theorem insert_fields {data : Data} (hInsert : t.insert T data = .ok t') :
    t'.insertsIntoBase = t.insertsIntoBase ∧ t'.deletes = t.deletes := by
  obtain ⟨state, bulk, rfl⟩ := insert_cases hInsert
  unfold appendInsert
  split <;> exact ⟨rfl, rfl⟩

/-! ## Remove -/

theorem resetInsertBuffer_spec (h : Sound T n t) (state : ModificationState) :
    Sound T n { t.resetInsertBuffer T with
        insertsIntoBase := false, modificationState := state } ∧
      older T (t.resetInsertBuffer T) = older T t ∧
      elements T.item (t.resetInsertBuffer T).insertsPending =
        elements T.item t.insertsPending := by
  have hItems := h.items_le
  unfold resetInsertBuffer
  cases hBuffer : t.insertBuffer with
  | none =>
    refine ⟨⟨h.base, h.inserts, h.deletes, h.insertsPending, h.deletesPending, ?_,
      h.deleteBuffer, ?_, by simp, hItems, h.keys_le⟩, rfl, rfl⟩
    · simp [hBuffer]
    · simp [hBuffer]
  | some p =>
    obtain ⟨target, b⟩ := p
    have hOpen := h.insertBuffer hBuffer
    cases target with
    | base =>
      obtain ⟨hUsable, hElements⟩ := flush_usable h.base hOpen
      refine ⟨⟨hUsable, h.inserts, h.deletes, h.insertsPending, h.deletesPending, by simp,
        h.deleteBuffer, by simp, by simp, ?_, h.keys_le⟩, ?_, rfl⟩
      · simpa only [hElements] using hItems
      · simp only [older, hElements]
    | insertsPending =>
      obtain ⟨hUsable, hElements⟩ := flush_usable h.insertsPending hOpen
      refine ⟨⟨h.base, h.inserts, h.deletes, hUsable, h.deletesPending, by simp,
        h.deleteBuffer, by simp, by simp, ?_, h.keys_le⟩, rfl, hElements⟩
      simpa only [hElements] using hItems

theorem completeBase_spec (h : Sound T n t) : Sound T n (t.completeBase T) ∧
    older T (t.completeBase T) = older T t ∧ (t.completeBase T).insertsIntoBase = false ∧
    elements T.item (t.completeBase T).insertsPending = elements T.item t.insertsPending := by
  unfold completeBase
  split
  · obtain ⟨hSound, hOlder, hPending⟩ := resetInsertBuffer_spec h .ms_none
    exact ⟨hSound, hOlder, rfl, hPending⟩
  · rename_i hInto
    exact ⟨h, rfl, by simpa using hInto, rfl⟩

theorem appendDelete_spec (h : Sound T n t) (hInto : t.insertsIntoBase = false) (key : κ) :
    Sound T (n + 1) (t.appendDelete T key) ∧
      (t.appendDelete T key).insertsPending = t.insertsPending ∧
      older T (t.appendDelete T key) = (older T t).filter fun x => T.item.pkey x ≠ key := by
  have hKeys := h.keys_le
  have hOpen : (t.deleteBuffer.getD ⟨none⟩).Open T.key t.deletesPending := by
    cases hSome : t.deleteBuffer with
    | none => exact open_none
    | some b => exact h.deleteBuffer hSome
  obtain ⟨hUsable, hOpen', hElements⟩ := append_usable T.fragmentSize key h.deletesPending hOpen
  unfold appendDelete
  refine ⟨⟨h.base, h.inserts, h.deletes, h.insertsPending, hUsable, h.insertBuffer, ?_,
    h.intoBase, by simp [hInto], h.items_le.trans n.le_succ, ?_⟩, rfl, ?_⟩
  · rintro b ⟨⟩
    exact hOpen'
  · simp only [hElements, Multiset.card_cons]
    omega
  · simp only [older, hElements, without_cons]

omit [LinearOrder κ] in
theorem checkBulkInsert_eq (h : t.checkBulkInsert = .ok t') :
    ∃ bulk, t' = { t with bulkInserters := bulk } := by
  unfold checkBulkInsert at h
  split at h
  · exact ⟨[], assertNoBulkInsert_eq h⟩
  · exact ⟨t.bulkInserters, (Except.ok.inj h).symm⟩

theorem remove_cases {key : κ} (hRemove : t.remove T key = .ok t') :
    ∃ state bulk, t' = appendDelete T key { completeBase T { t with bulkInserters := bulk } with
      modificationState := state
      lastChangeKey := some key } := by
  obtain ⟨t₁, hBulk, hRest⟩ := ok_of_bind hRemove
  obtain ⟨t₂, hOrder, hAppend⟩ := ok_of_bind hRest
  obtain ⟨bulk, rfl⟩ := checkBulkInsert_eq hBulk
  obtain ⟨state, rfl⟩ := orderRemove_eq hOrder
  exact ⟨state, bulk, (Except.ok.inj hAppend).symm⟩

theorem remove_spec (h : Sound T n t) {key : κ} (hRemove : t.remove T key = .ok t') :
    Sound T (n + 1) t' ∧ content T t' =
      ((older T t).filter fun x => T.item.pkey x ≠ key) + elements T.item t.insertsPending := by
  obtain ⟨state, bulk, rfl⟩ := remove_cases hRemove
  obtain ⟨hSound, hOlder, hInto, hPending⟩ :=
    completeBase_spec (h.withOrder t.modificationState t.lastChangeKey bulk)
  obtain ⟨hSound', hSame, hOlder'⟩ := appendDelete_spec
    (hSound.withOrder state (some key) _) hInto key
  refine ⟨hSound', ?_⟩
  rw [content, hOlder', hSame]
  exact congrArg₂ (· + ·) (congrArg _ hOlder) hPending

theorem remove_intoBase {key : κ} (hRemove : t.remove T key = .ok t') :
    t'.insertsIntoBase = false := by
  obtain ⟨state, bulk, rfl⟩ := remove_cases hRemove
  change (completeBase T { t with bulkInserters := bulk }).insertsIntoBase = false
  unfold completeBase
  split
  · rfl
  · exact eq_false_of_ne_true ‹_›

/-! ## Clear -/

theorem clear_spec : Sound T 0 (t.clear T) ∧ content T (t.clear T) = 0 := by
  have hDelete : ((t.resetInsertBuffer T).resetDeleteBuffer T).deleteBuffer = none := by
    unfold resetDeleteBuffer
    split
    · assumption
    · rfl
  refine ⟨⟨clear_usable, clear_usable, clear_usable, clear_usable, clear_usable, ?_, ?_, ?_,
    fun _ => ⟨rfl, rfl⟩, le_rfl, le_rfl⟩, rfl⟩
  · rintro target b ⟨⟩
    exact open_none
  · intro b hBuffer
    cases hDelete.symm.trans hBuffer
  · exact iff_of_true rfl ⟨_, rfl⟩

theorem create_spec : Sound T 0 (create : Table Data κ) ∧
    content T (create : Table Data κ) = 0 := by
  refine ⟨⟨create_usable, create_usable, create_usable, create_usable, create_usable, ?_, ?_, ?_,
    fun _ => ⟨rfl, rfl⟩, le_rfl, le_rfl⟩, rfl⟩
  · rintro target b ⟨⟩
    exact open_none
  · rintro b ⟨⟩
  · exact iff_of_true rfl ⟨_, rfl⟩

/-! ## Tables that have not been opened again -/

namespace Original

theorem mono {n' : Nat} (h : Original T n t) (hLe : n ≤ n') : Original T n' t :=
  ⟨h.toSound.mono hLe, h.undeleted⟩

theorem unhidden (h : Original T n t) (data : Data) : t.Unhidden T data := by
  intro hInto
  rw [h.undeleted hInto]
  exact Multiset.notMem_zero _

theorem create : Original T 0 (create : Table Data κ) := ⟨create_spec.1, fun _ => rfl⟩

theorem clear : Original T 0 (t.clear T) := ⟨clear_spec.1, fun _ => rfl⟩

theorem insert (h : Original T n t) {data : Data} {t' : Table Data κ}
    (hInsert : t.insert T data = .ok t') :
    Original T (n + 1) t' ∧ content T t' = data ::ₘ content T t := by
  obtain ⟨hSound, hContent⟩ := insert_spec h.toSound hInsert
  obtain ⟨hInto, hDeletes⟩ := insert_fields hInsert
  refine ⟨⟨hSound, ?_⟩, hContent (h.unhidden data)⟩
  rw [hInto, hDeletes]
  exact h.undeleted

theorem remove (h : Original T n t) {key : κ} {t' : Table Data κ}
    (hRemove : t.remove T key = .ok t') : Original T (n + 1) t' := by
  have hSound := (remove_spec h.toSound hRemove).1
  refine ⟨hSound, fun hInto => ?_⟩
  rw [remove_intoBase hRemove] at hInto
  cases hInto

end Original

end Fhgfs.Fsck.Table
