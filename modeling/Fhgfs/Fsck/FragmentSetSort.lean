import Fhgfs.Fsck.MergeSort

/-!
# `Set::sort` and `Set::makeUnique`

`sort` is to leave one fragment with all items of the set, ascending, and `makeUnique` then
one item for each key (`MergeSorts`). A fragment that has the flag set is merged as it is, and the
sort of another one changes the file and leaves a clean window as it is. So they do so if every
fragment with the flag ascends when `sort` is called and every other one has a `FreshWindow`.
-/

namespace Fhgfs.Fsck

open SetFragment OrderedMap Option List Distinct
open SetFragment (Holds Ready Built Intact HonestFlag)

namespace FragmentSet

variable {Data κ : Type} [LinearOrder κ] {T : ItemType Data κ} {s : FragmentSet Data κ}

/-! ## Operations that are not sorts -/

theorem create_stands : Stands T create where
  named _ := find_empty _
  intact _ _ hFind := by cases hFind

variable {f : SetFragment Data κ}

theorem updateFragment_stands {file : List Nat}
    {op : SetFragment Data κ → SetFragment Data κ} (h : Stands T s)
    (hFind : s.openFragments.find file = some f) (hOp : Intact T (op f)) :
    Stands T (s.updateFragment T file op) where
  named {id} hId := by
    have hNone : s.openFragments.find (fragmentName id) = none := h.named hId
    rw [updateFragment, find_put_of_ne, hNone]
    rintro rfl
    simp [hFind] at hNone
  intact := by
    rw [updateFragment, getFragment, hFind, getD_some]
    exact h.intact.put hOp

theorem append_intact (h : Intact T f) (hWindow : f.AppendsInWindow)
    (data : Data) : Intact T (f.append T data) :=
  .of_holds (append_holds h.holds hWindow data)
    fun _ => Or.inl (append_window_spec data)

/-! ## Every fragment sorted -/

theorem newFragment_eq (h : Stands T s) : s.newFragment T = (fragmentName s.nextID,
    ⟨s.nextID + 1, s.openFragments.put (fragmentName s.nextID) (SetFragment.create T)⟩) := by
  simp only [newFragment, getFragment, h.named le_rfl, getD_none]

theorem newFragment_find (h : Stands T s) : (s.newFragment T).2.openFragments.find
    (s.newFragment T).1 = some (SetFragment.create T) := by
  rw [newFragment_eq h, OrderedMap.find_put_self]

theorem items_create : (SetFragment.create T).items T = [] :=
  SetFragment.items_of_holds SetFragment.create_built.holds

theorem newFragment_round (h : Stands T s) : Round T s (s.newFragment T).2 := by
  rw [newFragment_eq h]
  have hReady : Ready T (SetFragment.create T) [] := SetFragment.create_built.toReady
  refine ⟨h.put hReady.intact, ?_, ?_, fun hHonest => hHonest.put hReady.honestFlag⟩
  · have hPut := contents_put (T := T) (f := SetFragment.create T) (h.named le_rfl)
    rwa [items_create] at hPut
  · rw [each_put_iff (h.named le_rfl), items_create]
    exact and_iff_right List.Pairwise.nil

/-- What `sort` starts from: a new fragment if there is none. -/
def inhabited (T : ItemType Data κ) (s : FragmentSet Data κ) : FragmentSet Data κ :=
  if s.openFragments.elems.isEmpty then (s.newFragment T).2 else s

theorem inhabited_round (h : Stands T s) : Round T s (s.inhabited T) := by
  unfold inhabited
  split
  · exact newFragment_round h
  · exact .refl h

theorem inhabited_ne_nil (h : Stands T s) : (s.inhabited T).openFragments.elems ≠ [] := by
  unfold inhabited
  split
  · rw [newFragment_eq h]
    exact ne_nil_of_mem (find_eq_some.mp (find_put_self _ _ _))
  · rename_i hSome
    simpa using hSome

theorem sortFragments_find (file : List Nat) : (s.sortFragments T).openFragments.find file =
    ((s.inhabited T).openFragments.find file).map (SetFragment.sort T) := by
  have hBoth : SetFragment.sort T ∘ SetFragment.flush = SetFragment.sort T :=
    funext fun f => SetFragment.sort_flush
  unfold sortFragments
  simp only [OrderedMap.find_mapVal, Option.map_map, hBoth, inhabited]

theorem sort_items (h : Intact T f) : (f.sort T).items T = f.sortedItems T (f.items T) :=
  items_of_holds (sort_spec h.holds h.fresh).1

theorem sort_intact (h : Intact T f) : Intact T (f.sort T) := by
  obtain ⟨hHolds, hSorted⟩ := sort_spec (T := T) h.holds h.fresh
  exact .of_holds hHolds (by simp [hSorted])

theorem sort_ascending_iff (h : Intact T f) :
    T.Ascending ((f.sort T).items T) ↔ HonestFlag T f := by
  rw [sort_items h, sortedItems, HonestFlag]
  cases f.sorted with
  | true => simp
  | false => simpa using T.stdSort_ascending (f.items T)

theorem sortFragments_contents (h : Stands T s) :
    (contents T (s.sortFragments T).openFragments).Perm (contents T s.openFragments) := by
  have hElems : (s.sortFragments T).openFragments.elems =
      (s.inhabited T).openFragments.elems.map fun p => (p.1, p.2.sort T) := by
    unfold sortFragments inhabited
    simp [mapVal, sort_flush]
  rw [contents, hElems, flatMap_map]
  refine (List.Perm.flatMap_left _ fun p hp => ?_).trans (inhabited_round h).items
  rw [sort_items ((inhabited_round h).stands.intact p.1 p.2 (find_eq_some.mpr hp))]
  exact sortedItems_perm

theorem sortFragments_each {P Q : SetFragment Data κ → Prop} (h : Stands T s)
    (hPQ : ∀ f, Intact T f → (P (f.sort T) ↔ Q f)) :
    Each P (s.sortFragments T).openFragments ↔ Each Q (s.inhabited T).openFragments := by
  have hIntact := (inhabited_round h).stands.intact
  constructor
  · intro hEach file f hFind
    refine (hPQ f (hIntact file f hFind)).mp (hEach file _ ?_)
    rw [sortFragments_find, hFind, map_some]
  · intro hEach file f hFind
    rw [sortFragments_find] at hFind
    obtain ⟨f₀, hFind₀, rfl⟩ := map_eq_some_iff.mp hFind
    exact (hPQ f₀ (hIntact file f₀ hFind₀)).mpr (hEach file f₀ hFind₀)

theorem sortFragments_stands (h : Stands T s) : Stands T (s.sortFragments T) where
  named hId := by
    rw [sortFragments_find, (inhabited_round h).stands.named hId, map_none]
  intact := (sortFragments_each h fun f hf => iff_of_true (sort_intact hf) trivial).mpr
    fun _ _ _ => trivial

theorem inhabited_honest (h : Stands T s) :
    Each (HonestFlag T) (s.inhabited T).openFragments ↔ Each (HonestFlag T) s.openFragments := by
  unfold inhabited
  split
  · rw [newFragment_eq h, each_put_iff (h.named le_rfl)]
    exact and_iff_right create_built.toReady.honestFlag
  · exact Iff.rfl

/-! ## The sort -/

omit [LinearOrder κ] in
theorem worklist_of_elems (m : Fragments Data κ) : Worklist
    (m.elems.foldl (fun sorted p => insertBySize (p.2.itemCount, p.1) sorted) []) m := by
  have hPerm := foldl_insertBySize_perm (fun p : List Nat × SetFragment Data κ =>
    (p.2.itemCount, p.1)) m.elems []
  rw [append_nil] at hPerm
  refine Worklist.congr ⟨?_, fun {file} => ?_⟩ hPerm
  · rw [List.map_map]
    exact m.nodup_keys
  · rw [List.map_map]
    exact OrderedMap.mem_keys

theorem sort_spec (h : Stands T s) (hSize : s.size < 2 ^ 64) :
    ∃ s' file f, s.sort T = some s' ∧ Stands T s' ∧ s'.openFragments.elems = [(file, f)] ∧
      (f.items T).Perm (contents T s.openFragments) ∧
      (T.Ascending (f.items T) ↔ Each (HonestFlag T) s.openFragments) := by
  have hSorted := sortFragments_stands h
  have hContents := sortFragments_contents h
  have hAscending := (sortFragments_each (P := fun f => T.Ascending (f.items T)) h
    fun f hf => sort_ascending_iff hf).trans
    (inhabited_honest h)
  have hList := worklist_of_elems (s.sortFragments T).openFragments
  have hPos : (s.sortFragments T).openFragments.elems ≠ [] := by
    obtain ⟨p, hp⟩ := exists_mem_of_ne_nil _ (inhabited_ne_nil h)
    have hFind := sortFragments_find (T := T) (s := s) p.1
    rw [OrderedMap.find_eq_some.mpr hp, map_some] at hFind
    exact ne_nil_of_mem (OrderedMap.find_eq_some.mp hFind)
  obtain ⟨s', file, f, hLoop, hRound, hOne⟩ := mergeLoop_spec (n := length _) hSorted hList
    (by
      rw [(foldl_insertBySize_perm _ _ _).length_eq]
      simpa [length_pos_iff] using hPos)
    le_rfl (by rwa [hContents.length_eq, ← h.size_eq])
  have hItems := hRound.items.trans hContents
  have hEach := hRound.ascending.trans hAscending
  rw [contents, hOne, flatMap_cons, flatMap_nil, append_nil] at hItems
  refine ⟨s', file, f, hLoop, hRound.stands, hOne, hItems, ?_⟩
  rw [← hEach]
  constructor
  · intro hAsc file' f' hFind
    rw [OrderedMap.find_of_elems hOne] at hFind
    split at hFind
    · cases hFind
      exact hAsc
    · cases hFind
  · intro hAll
    exact hAll file f (by rw [OrderedMap.find_of_elems hOne, if_pos rfl])

/-! ## One item for each key -/

/-- The items are some of `rows`, one for each key. -/
structure OnePerKey (T : ItemType Data κ) (rows items : List Data) : Prop where
  subset : items ⊆ rows
  ascending : items.Pairwise fun a b => T.pkey a < T.pkey b
  keys : ∀ row ∈ rows, ∃ x ∈ items, T.pkey x = T.pkey row

theorem uniqueLoop_eq (key : κ) (rows : List Data) (unique : SetFragment Data κ) :
    uniqueLoop T key rows unique = unique.appendAll T (rowsFrom T.pkey (some key) rows) := by
  induction rows generalizing key unique with
  | nil => rfl
  | cons row rows ih =>
    unfold uniqueLoop rowsFrom
    by_cases hSame : key = T.pkey row
    · rw [if_pos hSame, if_pos (congrArg some hSame)]
      exact ih key unique
    · rw [if_neg hSame, if_neg (fun h => hSame (some.inj h))]
      exact ih (T.pkey row) _

theorem onePerKey_of_ascending {rows : List Data} (hAsc : T.Ascending rows) :
    OnePerKey T rows (rowsFrom T.pkey none rows) := by
  obtain ⟨hPair, hKeys⟩ := distinctRows_keys hAsc
  refine ⟨(rowsFrom_sublist none rows).subset, pairwise_map.mp hPair, ?_⟩
  intro row hRow
  obtain ⟨x, hx, hKey⟩ := mem_map.mp ((hKeys _).mpr (mem_map_of_mem hRow))
  exact ⟨x, hx, hKey⟩

theorem OnePerKey.of_perm {rows rows' items : List Data} (h : OnePerKey T rows items)
    (hPerm : rows.Perm rows') : OnePerKey T rows' items where
  subset _ hx := hPerm.subset (h.subset hx)
  ascending := h.ascending
  keys row hRow := h.keys row (hPerm.symm.subset hRow)

theorem uniqueLoop_ready (row : Data) (rows : List Data) :
    Ready T (uniqueLoop T (T.pkey row) rows ((SetFragment.create T).append T row)).flush
      (Distinct.rowsFrom T.pkey none (row :: rows)) := by
  rw [uniqueLoop_eq]
  exact SetFragment.flush_ready (SetFragment.appendAll_built (SetFragment.append_built
    SetFragment.create_built row) _).toReady

/-- A set with one fragment in which that fragment is replaced by one with the next name. -/
theorem replaceOnly_spec {file : List Nat} {f f' : SetFragment Data κ} (h : Stands T s)
    (hOne : s.openFragments.elems = [(file, f)]) (hf' : Intact T f') :
    Stands T ⟨s.nextID + 1,
        (s.openFragments.put (fragmentName s.nextID) f').remove file⟩ ∧
      ((s.openFragments.put (fragmentName s.nextID) f').remove file).elems =
        [(fragmentName s.nextID, f')] := by
  refine ⟨(h.put hf').foldl_remove [file], elems_of_find fun k => ?_⟩
  have hName : file ≠ _ := h.ne_nextName (f := f)
    (by rw [find_of_elems hOne, if_pos rfl])
  rw [find_remove, find_put, find_of_elems hOne]
  by_cases hNew : k = fragmentName s.nextID
  · simp [hNew, hName.symm]
  · by_cases hOld : k = file <;> simp [hNew, hOld, hName]

theorem makeUnique_spec (h : Stands T s) (hSize : s.size < 2 ^ 64)
    (hHonest : Each (HonestFlag T) s.openFragments) :
    ∃ s' file f, s.makeUnique T = some s' ∧ Stands T s' ∧ s'.openFragments.elems = [(file, f)] ∧
      OnePerKey T (contents T s.openFragments) (f.items T) := by
  obtain ⟨s₁, file, f, hSort, hStands, hOne, hPerm, hAsc⟩ := sort_spec h hSize
  have hRows := onePerKey_of_ascending (hAsc.mpr hHonest)
  have hFind : s₁.openFragments.find file = some f := by
    rw [OrderedMap.find_of_elems hOne, if_pos rfl]
  have hRead : (f.cursor T).readAll = some (f.items T) := by
    refine (SetFragment.cursor_reads (hStands.intact file f hFind).holds ?_).readAll
    rwa [hPerm.length_eq, ← h.size_eq]
  unfold makeUnique
  rw [hSort]
  simp only [bind_eq_bind, bind_some, hOne, head?_cons, hRead]
  cases hItems : f.items T with
  | nil =>
    rw [hItems] at hRows hPerm
    refine ⟨s₁, file, f, rfl, hStands, hOne, ?_⟩
    rw [hItems]
    exact hRows.of_perm hPerm
  | cons row rows =>
    rw [hItems] at hRows hPerm
    obtain ⟨hStands', hOne'⟩ := replaceOnly_spec hStands hOne (uniqueLoop_ready row rows).intact
    refine ⟨_, _, _, ?_, hStands', hOne', ?_⟩
    · simp only [newFragment_eq hStands, updateFragment, removeFragment, getFragment,
        OrderedMap.find_put_self, getD_some, OrderedMap.put_put]
    · rw [SetFragment.items_of_holds (uniqueLoop_ready row rows).holds]
      exact hRows.of_perm hPerm

/-! ## What the sort is for -/

/-- `sort` ends with one fragment of all items, ascending, and `makeUnique` then with one of
one item for each key. -/
def MergeSorts (T : ItemType Data κ) (s : FragmentSet Data κ) : Prop :=
  ∃ s' file f, s.sort T = some s' ∧ s'.openFragments.elems = [(file, f)] ∧
    (f.items T).Perm (contents T s.openFragments) ∧ T.Ascending (f.items T) ∧
    ∃ u file' f', s'.makeUnique T = some u ∧ u.openFragments.elems = [(file', f')] ∧
      OnePerKey T (contents T s.openFragments) (f'.items T)

theorem mergeSorts_iff_honest (h : Stands T s) (hSize : s.size < 2 ^ 64) :
    MergeSorts T s ↔ Each (HonestFlag T) s.openFragments := by
  obtain ⟨s', file, f, hSort, hStands, hOne, hPerm, hAsc⟩ := sort_spec h hSize
  constructor
  · rintro ⟨s₁, file₁, f₁, hSort₁, hOne₁, -, hAsc₁, -⟩
    cases hSort.symm.trans hSort₁
    obtain ⟨-, rfl⟩ := Prod.mk.inj (singleton_inj.mp (hOne.symm.trans hOne₁))
    exact hAsc.mp hAsc₁
  · intro hHonest
    have hAscending := hAsc.mpr hHonest
    have hContents : contents T s'.openFragments = f.items T := by
      simp [contents, hOne]
    have hSize' : s'.size < 2 ^ 64 := by
      rwa [hStands.size_eq, hContents, hPerm.length_eq, ← h.size_eq]
    have hHonest' : Each (HonestFlag T) s'.openFragments := by
      intro file' f' hFind
      rw [find_of_elems hOne] at hFind
      split at hFind
      · cases hFind
        exact fun _ => hAscending
      · cases hFind
    obtain ⟨u, file', f', hUnique, -, hOne', hKeys⟩ := makeUnique_spec hStands hSize' hHonest'
    rw [hContents] at hKeys
    exact ⟨s', file, f, hSort, hOne, hPerm, hAscending, u, file', f', hUnique, hOne',
      hKeys.of_perm hPerm⟩

/-- No file name is used twice, and every fragment has its items. -/
structure HasFragments (T : ItemType Data κ) (s : FragmentSet Data κ) : Prop where
  named {id : Nat} : s.nextID ≤ id → s.openFragments.find (fragmentName id) = none
  hasItems : Each (fun f => Holds f (f.items T)) s.openFragments

/-- A fragment that the sort works on has no clean window, or the sort does not move its items. -/
def FreshWindow (T : ItemType Data κ) (f : SetFragment Data κ) : Prop :=
  f.sorted = false → SortsWindow T f (f.items T)

section

open SetFragment (natItems)

omit [LinearOrder κ] in
theorem each_iff {P : SetFragment Data κ → Prop} {m : Fragments Data κ} :
    Each P m ↔ ∀ p ∈ m.elems, P p.2 :=
  ⟨fun h p hp => h p.1 p.2 (find_eq_some.mpr hp), fun h _ _ hFind => h _ (find_eq_some.mp hFind)⟩

theorem HasFragments.put {s : FragmentSet Nat Nat} {f : SetFragment Nat Nat} {l : List Nat}
    (h : HasFragments natItems s) (hf : Holds f l) : HasFragments natItems
      ⟨s.nextID + 1, s.openFragments.put (fragmentName s.nextID) f⟩ where
  named {id} hId := by
    have hNext : s.nextID < id := hId
    rw [find_put_of_ne _ _ (fragmentName_injective.ne hNext.ne'), h.named hNext.le]
  hasItems := h.hasItems.put (by rwa [items_of_holds hf])

theorem create_hasFragments : HasFragments natItems create :=
  ⟨fun _ => find_empty _, fun _ _ hFind => by cases hFind⟩

/-- A fragment that is built by appends, and one that is opened again. -/
def builtAndReopened : FragmentSet Nat Nat where
  nextID := 2
  openFragments := OrderedMap.put (OrderedMap.put OrderedSet.empty (fragmentName 0)
    ((SetFragment.create natItems).appendAll natItems [3, 1])) (fragmentName 1)
    (openFile natItems [1, 2] false)

/-- A fragment with 3 and 1 that is sorted, and then gets 2. -/
def appendAfterSort : FragmentSet Nat Nat :=
  let new := (create : FragmentSet Nat Nat).newFragment natItems
  new.2.updateFragment natItems new.1 fun f =>
    (((f.append natItems 3).append natItems 1).sort natItems).append natItems 2

/-- A fragment with 2 and 1 that is opened again. -/
def reopenedUnsorted : FragmentSet Nat Nat where
  nextID := 1
  openFragments := OrderedMap.put OrderedSet.empty (fragmentName 0) (openFile natItems [2, 1] false)

theorem not_mergeSorts_of_items {s : FragmentSet Nat Nat} (rows : List Nat)
    (h : (s.sort natItems).map (fun s' => s'.openFragments.elems.map fun p =>
      p.2.items natItems) = some [rows]) (hRows : ¬ natItems.Ascending rows) :
    ¬ MergeSorts natItems s := by
  rintro ⟨s', file, f, hSort, hOne, -, hAsc, -⟩
  rw [hSort, map_some, hOne] at h
  obtain rfl : f.items natItems = rows := by simpa using h
  exact hRows hAsc

end

end FragmentSet

end Fhgfs.Fsck
