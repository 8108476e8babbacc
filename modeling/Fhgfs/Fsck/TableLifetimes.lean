import Fhgfs.Fsck.TableFiles
import Fhgfs.Fsck.TableRuns

/-!
# Runs of a table over several lifetimes

`fhgfs-fsck` can be stopped and started again on the tables that it has filled. The calls on a
table are now joined by bulk buffers, which fill `base` directly, and by restarts: the destructor
collapses the changes and leaves the files of three sets, and the constructor opens them. A table
that has lived through this is `Lasting`: sound but for windows that no cursor reads. It still
stands for the plain multiset if the calls are `Undisturbed`. A reopened table whose `base` is
empty takes inserts into `base` again, where the old deletes would hide them, and a fragment of
two items that is sorted after it was opened is read through the window from before.
-/

namespace Fhgfs.Fsck

open FragmentSet Buffer
open FragmentSet (Usable elements stored)

/-! ## Bulk inserts -/

namespace Buffer

open FragmentSet (Restorable)

variable {Data κ : Type} [LinearOrder κ] {T : ItemType Data κ} {s : FragmentSet Data κ}
  {b : Buffer}

def appendAll (T : ItemType Data κ) (fragmentSize : Nat) (data : List Data) (b : Buffer)
    (s : FragmentSet Data κ) : Buffer × FragmentSet Data κ :=
  data.foldl (fun (p : Buffer × FragmentSet Data κ) data =>
    p.1.append T fragmentSize data p.2) (b, s)

section

variable (fragmentSize : Nat) (data : List Data)

theorem appendAll_spec (h : Restorable s) (hFresh : b.Fresh s)
    (hUsable : Usable T s.forgetWindows) (hOpen : b.Open T s.forgetWindows) :
    Restorable (b.appendAll T fragmentSize data s).2 ∧
      (b.appendAll T fragmentSize data s).1.Fresh (b.appendAll T fragmentSize data s).2 ∧
      Usable T (b.appendAll T fragmentSize data s).2.forgetWindows ∧
      (b.appendAll T fragmentSize data s).1.Open T
        (b.appendAll T fragmentSize data s).2.forgetWindows ∧
      elements T (b.appendAll T fragmentSize data s).2.forgetWindows =
        data + elements T s.forgetWindows := by
  induction data generalizing b s with
  | nil => exact ⟨h, hFresh, hUsable, hOpen, by rw [Multiset.coe_nil, zero_add]; rfl⟩
  | cons x data ih =>
    obtain ⟨h', hFresh', hForget⟩ := append_fresh (T := T) h hFresh fragmentSize x
    obtain ⟨hUsable', hOpen', hElements⟩ := append_usable fragmentSize x hUsable hOpen
    rw [hForget] at hUsable' hOpen' hElements
    obtain ⟨hAll, hAllFresh, hAllUsable, hAllOpen, hAllElements⟩ := ih h' hFresh' hUsable' hOpen'
    refine ⟨hAll, hAllFresh, hAllUsable, hAllOpen, hAllElements.trans ?_⟩
    rw [hElements, Multiset.add_cons, ← Multiset.cons_coe, Multiset.cons_add]

theorem appendAll_other {file : List Nat}
    {f : SetFragment Data κ} (h : Restorable s) (hFresh : b.Fresh s)
    (hFind : s.openFragments.find file = some f)
    (hNe : b.currentFragment ≠ some file) :
    (b.appendAll T fragmentSize data s).2.openFragments.find file = some f ∧
      (b.appendAll T fragmentSize data s).1.currentFragment ≠ some file := by
  induction data generalizing b s with
  | nil => exact ⟨hFind, hNe⟩
  | cons x data ih =>
    obtain ⟨h', hFresh', -⟩ := append_fresh (T := T) h hFresh fragmentSize x
    obtain ⟨hFind', hNe'⟩ := append_other (T := T) (h.named _ le_rfl) hFind hNe fragmentSize x
    exact ih h' hFresh' hFind' hNe'

end

end Buffer

namespace Table

variable {Data κ : Type} [LinearOrder κ] {T : TableType Data κ} {n : Nat} {t t' : Table Data κ}

/-- A table that is sound but for windows that no cursor reads, and whose files can be opened
again. -/
structure Lasting (T : TableType Data κ) (n : Nat) (t : Table Data κ) : Prop
    extends Restorable t where
  sound : Sound T n t.forgetWindows

def lastingContent (T : TableType Data κ) (t : Table Data κ) : Multiset Data :=
  content T t.forgetWindows

theorem forgetWindows_sound (h : Sound T n t) :
    Sound T n t.forgetWindows ∧ content T t.forgetWindows = content T t := by
  obtain ⟨hBase, hBaseElements⟩ := forgetWindows_usable h.base
  obtain ⟨hInserts, hInsertsElements⟩ := forgetWindows_usable h.inserts
  obtain ⟨hDeletes, hDeletesElements⟩ := forgetWindows_usable h.deletes
  refine ⟨⟨hBase, hInserts, hDeletes, h.insertsPending, h.deletesPending, ?_, h.deleteBuffer,
    h.intoBase, h.initial, ?_, ?_⟩, ?_⟩
  · intro target b hBuffer
    have hOpen := h.insertBuffer hBuffer
    cases target with
    | insertsPending => exact hOpen
    | base =>
      intro file hFile
      obtain ⟨f, l, hFind, hBuilt⟩ := hOpen file hFile
      refine ⟨f, l, ?_, hBuilt⟩
      change t.base.forgetWindows.openFragments.find file = some f
      change t.base.openFragments.find file = some f at hFind
      rw [find_forgetWindows, hFind, Option.map_some,
        SetFragment.forgetWindow_of_window hBuilt.window]
  · have hItems := h.items_le
    simp only [forgetWindows, hBaseElements, hInsertsElements]
    exact hItems
  · have hKeys := h.keys_le
    simp only [forgetWindows, hDeletesElements]
    exact hKeys
  · simp only [content, older, forgetWindows, hBaseElements, hInsertsElements, hDeletesElements]

def filledBase (T : TableType Data κ) (data : List Data) (t : Table Data κ) : FragmentSet Data κ :=
  let filled := (⟨none⟩ : Buffer).appendAll T.item T.fragmentSize data t.base
  filled.1.flush T.item filled.2

theorem bulkInsert_eq {data : List Data} (h : t.bulkInsert T data = .ok t') :
    t.deletes.size = 0 ∧ t.deletesPending.size = 0 ∧ ∃ bulk, t' = { t with
      base := filledBase T data t
      modificationState := .ms_bulk_insert
      bulkInserters := bulk } := by
  unfold bulkInsert at h
  split at h
  · cases h
  rename_i hSizes
  simp only [not_or, not_not] at hSizes
  refine ⟨hSizes.2.1, hSizes.2.2.2, t.bulkInserters ++ [false], ?_⟩
  cases hState : t.modificationState <;> simp only [hState] at h
  case ms_none | ms_ordered_only_insert | ms_bulk_insert => exact (Except.ok.inj h).symm
  all_goals cases h

theorem find_filledBase {data : List Data} {file : List Nat} {f : SetFragment Data κ}
    (h : t.base.Restorable) (hFind : t.base.openFragments.find file = some f) :
    (filledBase T data t).openFragments.find file = some f := by
  obtain ⟨hKept, hNe⟩ := appendAll_other (T := T.item) T.fragmentSize data h
    fresh_none hFind (by simp)
  exact (flush_other hNe).trans hKept

theorem elements_of_size {ι : Type} {I : ItemType ι κ} {s : FragmentSet ι κ} (h : Usable I s)
    (hSize : s.size = 0) : elements I s = 0 := by
  rwa [h.size_eq, Multiset.card_eq_zero] at hSize

namespace Lasting

theorem mono {n' : Nat} (h : Lasting T n t) (hLe : n ≤ n') : Lasting T n' t :=
  ⟨h.toRestorable, h.sound.mono hLe⟩

theorem create : Lasting T 0 (create : Table Data κ) := by
  refine ⟨⟨create_restorable, create_restorable, create_restorable, create_restorable, ?_⟩,
    (forgetWindows_sound create_spec.1).1⟩
  rintro target b ⟨⟩
  exact fresh_none

theorem insert (h : Lasting T n t) {data : Data} (hInsert : t.insert T data = .ok t')
    (hNew : t.insertsIntoBase = true → T.item.pkey data ∉ stored t.deletes) :
    Lasting T (n + 1) t' ∧ lastingContent T t' = data ::ₘ lastingContent T t := by
  obtain ⟨hRestorable, hForget⟩ := insert_forgetWindows h.toRestorable hInsert
  obtain ⟨hSound, hContent⟩ := insert_spec h.sound hForget
  refine ⟨⟨hRestorable, hSound⟩, hContent fun hInto hIn => hNew hInto ?_⟩
  rwa [← Multiset.mem_coe, stored_eq h.sound.deletes]

theorem remove (h : Lasting T n t) {key : κ} (hRemove : t.remove T key = .ok t')
    (hOrder : ∀ x ∈ stored t.insertsPending, T.item.pkey x ≠ key) :
    Lasting T (n + 1) t' ∧ lastingContent T t' =
      (lastingContent T t).filter fun x => T.item.pkey x ≠ key := by
  obtain ⟨hRestorable, hForget⟩ := remove_forgetWindows h.toRestorable hRemove
  obtain ⟨hSound, hContent⟩ := remove_spec h.sound hForget
  have hSet : t.forgetWindows.insertsPending = t.insertsPending := rfl
  obtain ⟨hPending, hElements⟩ := forgetWindows_usable h.sound.insertsPending
  rw [hSet] at hPending hElements
  have hKept : (elements T.item t.insertsPending).filter (fun x => T.item.pkey x ≠ key) =
      elements T.item t.insertsPending := by
    refine Multiset.filter_eq_self.mpr fun x hx => hOrder x ?_
    rw [← Multiset.mem_coe, stored_eq hPending]
    exact hElements.symm ▸ hx
  refine ⟨⟨hRestorable, hSound⟩, hContent.trans ?_⟩
  unfold lastingContent content
  rw [Multiset.filter_add]
  exact congrArg (_ + ·) hKept.symm

theorem commitChanges (h : Lasting T n t) (hn : n < 2 ^ 64) :
    ∃ t', t.commitChanges T = .ok t' ∧ Lasting T n t' ∧ lastingContent T t' = lastingContent T t ∧
      ∃ rows, t'.rows T = .ok rows ∧ T.item.Ascending rows ∧
        (rows : Multiset Data) = lastingContent T t := by
  obtain ⟨u, hCommit, hSound, hContent, hSettled⟩ := commitChanges_spec h.sound hn
  obtain ⟨rows, hRows, hAsc, hElements⟩ := rows_spec hSound hn hSettled
  obtain ⟨t', hCommit', hSame⟩ := (commitChanges_same h.toRestorable).ok hCommit
  have hRestorable := commitChanges_restorable h.toRestorable hCommit'
  obtain ⟨hForget, hForgetContent⟩ := forgetWindows_sound hSound
  have hRows' : t'.rows T = u.rows T := rows_same hRestorable hSame
  refine ⟨t', hCommit', ⟨hRestorable, hSame ▸ hForget⟩, ?_, rows, hRows'.trans hRows, hAsc,
    hElements.trans hContent⟩
  unfold lastingContent
  rw [hSame, hForgetContent, hContent]

theorem clear : Lasting T 0 (t.clear T) ∧ lastingContent T (t.clear T) = 0 := by
  obtain ⟨hForget, hContent⟩ := forgetWindows_sound (clear_spec (T := T) (t := t)).1
  refine ⟨⟨⟨create_restorable, create_restorable,
    create_restorable, create_restorable, ?_⟩, hForget⟩,
    hContent.trans clear_spec.2⟩
  rintro target b ⟨⟩
  exact fresh_none

theorem bulkInsert (h : Lasting T n t) {data : List Data} (hBulk : t.bulkInsert T data = .ok t') :
    Lasting T (n + data.length) t' ∧ lastingContent T t' = data + lastingContent T t := by
  obtain ⟨hSizeDeletes, hSizePending, bulk, rfl⟩ := bulkInsert_eq hBulk
  obtain ⟨hSound, hPart, hUsable, hOpen, hElements⟩ := appendAll_spec
    T.fragmentSize data h.base fresh_none h.sound.base open_none
  have hFlushed := flush_restorable (T := T.item) hSound hPart
  obtain ⟨hUsable', hElements'⟩ := flush_usable hUsable hOpen
  rw [← flush_forgetWindows] at hUsable' hElements'
  have hBase : elements T.item (filledBase T data t).forgetWindows =
      data + elements T.item t.forgetWindows.base := hElements'.trans hElements
  have hDeletes : elements T.key t.forgetWindows.deletes = 0 :=
    elements_of_size h.sound.deletes ((forgetWindows_size).trans hSizeDeletes)
  have hPending : elements T.key t.forgetWindows.deletesPending = 0 :=
    elements_of_size h.sound.deletesPending hSizePending
  have hItems := h.sound.items_le
  have hKeys := h.sound.keys_le
  refine ⟨⟨⟨hFlushed, h.inserts, h.deletes, h.insertsPending, ?_⟩, hUsable', h.sound.inserts,
    h.sound.deletes, h.sound.insertsPending, h.sound.deletesPending, ?_, h.sound.deleteBuffer,
    h.sound.intoBase, h.sound.initial, ?_, hKeys.trans (Nat.le_add_right _ _)⟩, ?_⟩
  · intro target b hBuffer
    cases target with
    | insertsPending => exact h.insertBuffer hBuffer
    | base =>
      intro file hFile
      obtain ⟨f, hFind, hFresh⟩ := h.insertBuffer hBuffer file hFile
      exact ⟨f, find_filledBase h.base hFind, hFresh⟩
  · intro target b hBuffer
    cases target with
    | insertsPending => exact h.sound.insertBuffer hBuffer
    | base =>
      intro file hFile
      obtain ⟨f, hFind, hFresh⟩ := h.insertBuffer hBuffer file hFile
      obtain ⟨f', l, hFind', hBuilt⟩ := h.sound.insertBuffer hBuffer file hFile
      change t.base.openFragments.find file = some f at hFind
      change t.base.forgetWindows.openFragments.find file = some f' at hFind'
      rw [find_forgetWindows, hFind] at hFind'
      refine ⟨f', l, ?_, hBuilt⟩
      change (filledBase T data t).forgetWindows.openFragments.find file = some f'
      rwa [find_forgetWindows, find_filledBase h.base hFind]
  · show (elements T.item (filledBase T data t).forgetWindows).card + _ + _ ≤ _
    rw [hBase, Multiset.card_add, Multiset.coe_card]
    change (elements T.item t.forgetWindows.base).card +
      (elements T.item t.inserts.forgetWindows).card +
      (elements T.item t.insertsPending).card ≤ n at hItems
    simp only [forgetWindows] at hItems ⊢
    omega
  · unfold lastingContent content older
    change without T (without T (elements T.item (filledBase T data t).forgetWindows)
      (elements T.key t.forgetWindows.deletes) + elements T.item t.forgetWindows.inserts)
      (elements T.key t.forgetWindows.deletesPending) +
      elements T.item t.forgetWindows.insertsPending = _
    rw [hBase, hDeletes, hPending]
    simp only [without_zero, add_assoc]

theorem ofSets {base inserts : FragmentSet Data κ} {deletes : FragmentSet κ κ}
    (hBase : base.Restorable) (hInserts : inserts.Restorable) (hDeletes : deletes.Restorable)
    (hBaseUsable : Usable T.item base.forgetWindows)
    (hInsertsUsable : Usable T.item inserts.forgetWindows)
    (hDeletesUsable : Usable T.key deletes.forgetWindows)
    (hItems : (elements T.item base.forgetWindows).card +
      (elements T.item inserts.forgetWindows).card ≤ n)
    (hKeys : (elements T.key deletes.forgetWindows).card ≤ n) :
    Lasting T n (ofSets base inserts deletes) ∧ lastingContent T (ofSets base inserts deletes) =
      without T (elements T.item base.forgetWindows) (elements T.key deletes.forgetWindows) +
        elements T.item inserts.forgetWindows := by
  unfold Table.ofSets
  simp only
  split
  · refine ⟨⟨⟨hBase, hInserts, hDeletes, create_restorable, ?_⟩, hBaseUsable,
      hInsertsUsable, hDeletesUsable, create_usable, create_usable,
      ?_, ?_, ?_, fun _ => ⟨rfl, rfl⟩, hItems, hKeys⟩, ?_⟩
    · rintro target b ⟨⟩
      exact fresh_none
    · rintro target b ⟨⟩
      exact open_none
    · rintro b ⟨⟩
    · exact iff_of_true rfl ⟨_, rfl⟩
    · exact (add_zero _).trans (without_zero _)
  · refine ⟨⟨⟨hBase, hInserts, hDeletes, create_restorable, ?_⟩, hBaseUsable,
      hInsertsUsable, hDeletesUsable, create_usable, create_usable,
      ?_, ?_, ?_, ?_, hItems, hKeys⟩, ?_⟩
    · rintro target b ⟨⟩
    · rintro target b ⟨⟩
    · rintro b ⟨⟩
    · exact iff_of_false Bool.false_ne_true (by rintro ⟨b, ⟨⟩⟩)
    · exact fun hInto => nomatch hInto
    · exact (add_zero _).trans (without_zero _)

theorem reopen (h : Lasting T n t) (hn : n < 2 ^ 64)
    (hLegible : ∀ files, t.close T = .ok files → files.Legible T) :
    ∃ t', t.reopen T = .ok t' ∧ Lasting T n t' ∧ lastingContent T t' = lastingContent T t := by
  obtain ⟨u, hCollapse, hSound, hContent, hSettled⟩ := collapseChanges_spec h.sound hn
  obtain ⟨v, hCollapse', hSame⟩ := (collapseChanges_same h.toRestorable).ok hCollapse
  have hRestorable := (collapseChanges_restorable h.toRestorable hCollapse').1
  obtain ⟨hForget, hForgetContent⟩ := forgetWindows_sound hSound
  rw [← hSame] at hForget hForgetContent
  have hClose : t.close T = .ok ⟨v.base.close, v.inserts.close, v.deletes.close⟩ := by
    unfold close
    rw [hCollapse']
    rfl
  obtain ⟨hBaseLegible, hInsertsLegible, hDeletesLegible⟩ := hLegible _ hClose
  have hItems : (elements T.item v.base.forgetWindows).card +
      (elements T.item v.inserts.forgetWindows).card +
      (elements T.item v.insertsPending).card ≤ n := hForget.items_le
  have hKeys : (elements T.key v.deletes.forgetWindows).card +
      (elements T.key v.deletesPending).card ≤ n := hForget.keys_le
  have hInsertsPending : elements T.item v.insertsPending = 0 := by
    change elements T.item v.forgetWindows.insertsPending = 0
    rw [hSame]
    exact hSettled.insertsPending
  have hDeletesPending : elements T.key v.deletesPending = 0 := by
    change elements T.key v.forgetWindows.deletesPending = 0
    rw [hSame]
    exact hSettled.deletesPending
  obtain ⟨base, hBase, hBaseRestorable, hBaseUsable, hBaseElements⟩ :=
    SetFiles.reopened_usable hForget.base hRestorable.base (by omega) hBaseLegible
  obtain ⟨inserts, hInserts, hInsertsRestorable, hInsertsUsable, hInsertsElements⟩ :=
    SetFiles.reopened_usable hForget.inserts hRestorable.inserts (by omega) hInsertsLegible
  obtain ⟨deletes, hDeletes, hDeletesRestorable, hDeletesUsable, hDeletesElements⟩ :=
    SetFiles.reopened_usable hForget.deletes hRestorable.deletes (by omega) hDeletesLegible
  obtain ⟨hLasting, hOpened⟩ := ofSets (n := n) hBaseRestorable hInsertsRestorable
    hDeletesRestorable hBaseUsable hInsertsUsable hDeletesUsable
    (by rw [hBaseElements, hInsertsElements]; omega) (by rw [hDeletesElements]; omega)
  refine ⟨Table.ofSets base inserts deletes, ?_, hLasting, ?_⟩
  · unfold Table.reopen openFiles
    simp only [hClose, bind, Except.bind, hBase, hInserts, hDeletes]
    rfl
  · have hOlder : content T v.forgetWindows =
        without T (without T (elements T.item v.base.forgetWindows)
          (elements T.key v.deletes.forgetWindows) + elements T.item v.inserts.forgetWindows)
          (elements T.key v.deletesPending) + elements T.item v.insertsPending := rfl
    rw [hOpened, hBaseElements, hInsertsElements, hDeletesElements]
    rw [hDeletesPending, hInsertsPending, without_zero, add_zero] at hOlder
    exact hOlder.symm.trans (hForgetContent.trans hContent)

end Lasting

/-! ## Runs -/

end Table

/-- A call, a bulk buffer that is filled and released, or a restart of the process. -/
inductive LifetimeCall (Data κ : Type)
  | call (call : TableCall Data κ)
  | bulkInsert (data : List Data)
  | reopen

namespace Table

variable {Data κ : Type} [LinearOrder κ] (T : TableType Data κ)

def stepLifetimes (t : Table Data κ) : LifetimeCall Data κ → Except TableError (Table Data κ)
  | .call call => t.step T call
  | .bulkInsert data => t.bulkInsert T data
  | .reopen => t.reopen T

def runLifetimes (calls : List (LifetimeCall Data κ)) : Except TableError (Table Data κ) :=
  calls.foldlM (stepLifetimes T) create

def plainLifetimesStep (m : Multiset Data) : LifetimeCall Data κ → Multiset Data
  | .call call => plainStep T m call
  | .bulkInsert data => data + m
  | .reopen => m

def plainLifetimes (calls : List (LifetimeCall Data κ)) : Multiset Data :=
  calls.foldl (plainLifetimesStep T) 0

/-- After a final commit the query reads the plain multiset, in ascending order. -/
def LifetimesArePlain (calls : List (LifetimeCall Data κ)) : Prop :=
  ∃ t t' rows, runLifetimes T calls = .ok t ∧ t.commitChanges T = .ok t' ∧
    t'.rows T = .ok rows ∧ T.item.Ascending rows ∧
    (rows : Multiset Data) = plainLifetimes T calls

/-- No item is inserted into `base` under a key that is in `deletes`, no remove is for the key of
a pending insert, and the files of a table that is closed can be read. -/
def Undisturbed (t : Table Data κ) : LifetimeCall Data κ → Prop
  | .call (.insert data) => t.insertsIntoBase = true → T.item.pkey data ∉ stored t.deletes
  | .call (.remove key) => ∀ x ∈ stored t.insertsPending, T.item.pkey x ≠ key
  | .reopen => ∀ files, t.close T = .ok files → files.Legible T
  | _ => True

def UndisturbedAfter (calls : List (LifetimeCall Data κ)) (call : LifetimeCall Data κ) : Prop :=
  ∀ t, runLifetimes T calls = .ok t → t.Undisturbed T call

def weight : LifetimeCall Data κ → Nat
  | .call _ => 1
  | .bulkInsert data => data.length
  | .reopen => 0

def totalWeight (calls : List (LifetimeCall Data κ)) : Nat := (calls.map weight).sum

def lifetimes (calls : List (LifetimeCall Data κ)) (call : LifetimeCall Data κ) :
    List (LifetimeCall Data κ) :=
  calls ++ [call]

instance decidableForallOk {ε α : Type} (P : α → Prop) [DecidablePred P] :
    (x : Except ε α) → Decidable (∀ a, x = .ok a → P a)
  | .error _ => .isTrue nofun
  | .ok a => decidable_of_iff (P a)
      ⟨fun h _ hSame => Except.ok.inj hSame ▸ h, fun h => h a rfl⟩

instance [DecidableEq Data] (files : TableFiles Data κ) : Decidable (files.Legible T) :=
  inferInstanceAs (Decidable (_ ∧ _ ∧ _))

instance [DecidableEq Data] (t : Table Data κ) :
    (call : LifetimeCall Data κ) → Decidable (t.Undisturbed T call)
  | .call (.insert data) =>
    inferInstanceAs (Decidable (t.insertsIntoBase = true → T.item.pkey data ∉ stored t.deletes))
  | .call (.remove key) =>
    inferInstanceAs (Decidable (∀ x ∈ stored t.insertsPending, T.item.pkey x ≠ key))
  | .call .commitChanges | .call .clear | .bulkInsert _ => .isTrue trivial
  | .reopen => decidableForallOk (fun files : TableFiles Data κ => files.Legible T) (t.close T)

instance [DecidableEq Data] (calls : List (LifetimeCall Data κ)) (call : LifetimeCall Data κ) :
    Decidable (UndisturbedAfter T calls call) :=
  decidableForallOk (fun t : Table Data κ => t.Undisturbed T call) (runLifetimes T calls)

variable {T} {n : Nat} {t t' : Table Data κ} {calls : List (LifetimeCall Data κ)}

theorem bulkInsert_not_stuck {data : List Data} : t.bulkInsert T data ≠ .error .stuck := by
  unfold bulkInsert
  split
  · simp
  · split <;> simp

theorem stepLifetimes_lasting (h : Lasting T n t) (hn : n < 2 ^ 64) {call : LifetimeCall Data κ}
    (hCall : t.Undisturbed T call) : Thrown (t.stepLifetimes T call) ∨
      ∃ t', t.stepLifetimes T call = .ok t' ∧ Lasting T (n + weight call) t' ∧
        lastingContent T t' = plainLifetimesStep T (lastingContent T t) call := by
  cases call with
  | call call =>
    cases call with
    | insert data =>
      cases hStep : t.insert T data with
      | error e => exact Or.inl (thrown_of_error insert_not_stuck hStep)
      | ok t' => exact Or.inr ⟨t', hStep, h.insert hStep hCall⟩
    | remove key =>
      cases hStep : t.remove T key with
      | error e => exact Or.inl (thrown_of_error remove_not_stuck hStep)
      | ok t' => exact Or.inr ⟨t', hStep, h.remove hStep hCall⟩
    | commitChanges =>
      obtain ⟨t', hCommit, hLasting, hContent, -⟩ := h.commitChanges hn
      exact Or.inr ⟨t', hCommit, hLasting.mono n.le_succ, hContent⟩
    | clear =>
      obtain ⟨hLasting, hContent⟩ := Lasting.clear (T := T) (t := t)
      exact Or.inr ⟨_, rfl, hLasting.mono (Nat.zero_le _), hContent⟩
  | bulkInsert data =>
    cases hStep : t.bulkInsert T data with
    | error e => exact Or.inl (thrown_of_error bulkInsert_not_stuck hStep)
    | ok t' => exact Or.inr ⟨t', hStep, h.bulkInsert hStep⟩
  | reopen => exact Or.inr (h.reopen hn hCall)

/-- What holds after calls that were all undisturbed. -/
def Persists (T : TableType Data κ) (calls : List (LifetimeCall Data κ)) : Prop :=
  totalWeight calls < 2 ^ 64 ∧ ∃ t, runLifetimes T calls = .ok t ∧
    Lasting T (totalWeight calls) t ∧ lastingContent T t = plainLifetimes T calls

/-- A call that does not throw, on a table of fewer than 2^64 items. -/
def AdmittedLifetimes (T : TableType Data κ) (calls : List (LifetimeCall Data κ))
    (call : LifetimeCall Data κ) : Prop :=
  ¬ Thrown (runLifetimes T (lifetimes calls call)) ∧ totalWeight (lifetimes calls call) < 2 ^ 64

theorem persists_step (h : Persists T calls) {call : LifetimeCall Data κ}
    (hAdmitted : AdmittedLifetimes T calls call) (hCall : UndisturbedAfter T calls call) :
    Persists T (lifetimes calls call) := by
  obtain ⟨hWeight, t, hRun, hLasting, hContent⟩ := h
  have hNext : runLifetimes T (lifetimes calls call) = t.stepLifetimes T call := by
    simp only [runLifetimes, lifetimes, List.foldlM_append] at hRun ⊢
    simp [hRun]
    rfl
  have hTotal : totalWeight (lifetimes calls call) = totalWeight calls + weight call := by
    simp [totalWeight, lifetimes]
  rcases stepLifetimes_lasting hLasting hWeight (hCall t hRun) with hThrown | ⟨t', hStep, hNew⟩
  · exact absurd (hNext ▸ hThrown) hAdmitted.1
  · refine ⟨hAdmitted.2, t', hNext.trans hStep, hTotal ▸ hNew.1, hNew.2.trans ?_⟩
    simp [plainLifetimes, lifetimes, hContent]

theorem admittedLifetimes {rest : List (LifetimeCall Data κ)}
    (hThrown : ¬ Thrown (runLifetimes T (calls ++ rest)))
    (hWeight : totalWeight (calls ++ rest) < 2 ^ 64) :
    Run.EveryStep lifetimes (AdmittedLifetimes T) calls rest := by
  induction rest generalizing calls with
  | nil => trivial
  | cons call rest ih =>
    have hSplit : calls ++ call :: rest = lifetimes calls call ++ rest := by simp [lifetimes]
    rw [hSplit] at hThrown hWeight
    refine ⟨⟨fun h => hThrown (thrown_foldlM h), ?_⟩, ih hThrown hWeight⟩
    unfold totalWeight at hWeight ⊢
    rw [List.map_append, List.sum_append] at hWeight
    omega

theorem lifetimesArePlain_of_persists (h : Persists T calls) : LifetimesArePlain T calls := by
  obtain ⟨hWeight, t, hRun, hLasting, hContent⟩ := h
  obtain ⟨t', hCommit, -, -, rows, hRows, hAsc, hElements⟩ := hLasting.commitChanges hWeight
  exact ⟨t, t', rows, hRun, hCommit, hRows, hAsc, hElements.trans hContent⟩

/-- What a table wrote in its lifetimes before is there when it is opened again. -/
theorem lifetimesArePlain_throughout (hThrown : ¬ Thrown (runLifetimes T calls))
    (hWeight : totalWeight calls < 2 ^ 64)
    (hCalls : Run.EveryStep lifetimes (UndisturbedAfter T) [] calls) :
    Run.Throughout lifetimes (LifetimesArePlain T) [] calls := by
  refine Run.throughout_of_invariant lifetimes (fun _ h => lifetimesArePlain_of_persists h) ?_
    ⟨Nat.two_pow_pos 64, create, rfl, .create, create_spec.2⟩
    (Run.everyStep_and lifetimes (admittedLifetimes hThrown hWeight) hCalls)
  exact fun calls call hPersists hStep => persists_step hPersists hStep.1 hStep.2

section

def wideTable : TableType Nat Nat := { natTable with fragmentSize := 24 }

theorem lifetimesArePlain_throughout_wide :
    Run.Throughout lifetimes (LifetimesArePlain wideTable) [] [.bulkInsert [3, 1, 2], .reopen,
      .call (.remove 2), .call (.insert 5), .reopen, .call (.insert 4)] :=
  lifetimesArePlain_throughout (by decide) (by decide) (by decide)

/-- A reopened table with an empty `base` takes 5 into `base`, where the delete hides it. -/
theorem not_lifetimesArePlain :
    ¬ Thrown (runLifetimes natTable [.call (.remove 5), .reopen, .call (.insert 5)]) ∧
      ¬ LifetimesArePlain natTable [.call (.remove 5), .reopen, .call (.insert 5)] := by
  refine ⟨by decide, ?_⟩
  rintro ⟨t, t', rows, hRun, hCommit, hRows, -, hPlain⟩
  have hRead : (runLifetimes natTable [.call (.remove 5), .reopen, .call (.insert 5)] >>= fun t =>
      t.commitChanges natTable >>= fun t' => t'.rows natTable).toOption = some [] := by
    decide
  simp only [hRun, hCommit, hRows, bind, Except.bind, Except.toOption, Option.some.injEq] at hRead
  subst hRead
  have hFive : (5 : Nat) ∈ plainLifetimes natTable
      [.call (.remove 5), .reopen, .call (.insert 5)] := by
    simp [plainLifetimes, plainLifetimesStep, plainStep]
  rw [← hPlain] at hFive
  exact Multiset.notMem_zero 5 hFive

end

end Table

end Fhgfs.Fsck
