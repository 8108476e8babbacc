import Fhgfs.Fsck.CursorSession

/-!
# Fragments that only readers touch

A `Calm` fragment has nothing to write, and a sort leaves its rows as they are. Reads move its
window and nothing else. A set that consists of one calm fragment (`Only`) is not changed by
the sort that begins every `cursor()` and every look-up.
-/

namespace Fhgfs.Fsck

open SetFragment OrderedMap List Option
open SetFragment (Holds Ready Built)

variable {Data κ : Type} [LinearOrder κ] {T : ItemType Data κ}

namespace SetFragment

variable {f : SetFragment Data κ} {l : List Data} {row : Nat} {rows : List Nat}

structure Calm (T : ItemType Data κ) (f : SetFragment Data κ) (l : List Data) : Prop where
  holds : Holds f l
  clean : f.firstDirtyItem = none
  kept : f.sorted = true ∨ T.stdSort l = l

theorem Calm.ready (h : Calm T f l) (hAsc : f.sorted = true → T.Ascending l) : Ready T f l where
  holds := h.holds
  ascending := hAsc
  fresh hSorted := Or.inr (h.kept.resolve_left (by simp [hSorted]))

theorem Calm.items (h : Calm T f l) : f.items T = l := items_of_holds h.holds

/-! ## Reads -/

theorem get_clean (h : f.firstDirtyItem = none) (i : Nat) :
    (f.get T i).2.firstDirtyItem = none := by
  unfold get bufferFileRange
  rw [flushBuffer_of_clean h]
  split <;> exact h

theorem searchLoop_clean {κ' : Type} [LinearOrder κ'] (key : κ') (fn : κ → κ')
    (h : f.firstDirtyItem = none) (n first last : Nat) :
    (f.searchLoop T key fn n first last).2.firstDirtyItem = none := by
  induction n generalizing f first last with
  | zero => exact h
  | succ n ih =>
    have hWindow (first : Nat) (last : Option Nat) :
        (f.bufferFileRange T first last).firstDirtyItem = none := by
      unfold bufferFileRange
      rwa [flushBuffer_of_clean h]
    unfold searchLoop
    split
    · exact h
    · simp only
      split <;> exact ih (get_clean (hWindow _ _) _) _ _

theorem Calm.get (h : Calm T f l) (hRow : row < l.length) : Calm T (f.get T row).2 l where
  holds := (get_spec h.holds hRow).2
  clean := get_clean h.clean row
  kept := by
    rw [get_sorted]
    exact h.kept

theorem Calm.readRow (h : Calm T f l) : Calm T (f.readRow T row) l := by
  unfold SetFragment.readRow
  split
  · rename_i hRow
    rw [h.holds.count] at hRow
    exact h.get hRow
  · exact h

theorem Calm.readRows (h : Calm T f l) : Calm T (f.readRows T rows) l := by
  induction rows generalizing f with
  | nil => exact h
  | cons row rows ih => exact ih h.readRow

theorem readRow_sorted : (f.readRow T row).sorted = f.sorted := by
  unfold readRow
  split
  · exact get_sorted row
  · rfl

theorem readRows_sorted : (f.readRows T rows).sorted = f.sorted := by
  induction rows generalizing f with
  | nil => rfl
  | cons row rows ih =>
    change ((f.readRow T row).readRows T rows).sorted = _
    rw [ih, readRow_sorted]

section

variable {κ' : Type} [LinearOrder κ'] (key : κ') (fn : κ → κ')

theorem getByKeyProjection_sorted : (f.getByKeyProjection T key fn).2.sorted = f.sorted := by
  unfold getByKeyProjection
  split
  · rfl
  · simp only
    rw [get_sorted, searchLoop_sorted]

theorem Calm.getByKeyProjection (h : Calm T f l) : Calm T (f.getByKeyProjection T key fn).2 l where
  holds := getByKeyProjection_holds key fn h.holds
  clean := by
    unfold SetFragment.getByKeyProjection
    split
    · exact h.clean
    · exact get_clean (searchLoop_clean key fn h.clean _ _ _) _
  kept := by
    rw [getByKeyProjection_sorted]
    exact h.kept

end

/-! ## Sorts -/

theorem sort_clean : (f.sort T).firstDirtyItem = none := by
  unfold sort
  simp only
  split
  · exact flush_clean
  · exact flush_clean

theorem Calm.sort (h : Calm T f l) : Calm T (f.sort T) l ∧ (f.sort T).window = f.window := by
  cases hSorted : f.sorted with
  | true =>
    rw [sort_of_sorted hSorted, flush_of_clean h.clean]
    exact ⟨h, rfl⟩
  | false =>
    have hSame : T.stdSort l = l := h.kept.resolve_left (by simp [hSorted])
    have hHolds := sort_holds h.holds hSorted (Or.inr hSame)
    rw [hSame] at hHolds
    refine ⟨⟨hHolds, sort_clean, Or.inr hSame⟩, ?_⟩
    unfold SetFragment.sort
    simp only [flush_sorted, hSorted, Bool.false_eq_true, if_false]
    rw [flush_of_clean (by exact flush_clean), flush_of_clean h.clean]
    rfl

/-! ## The window -/

def Stays (f : SetFragment Data κ) (rows : List Nat) : Prop :=
  ∀ row ∈ rows, row < f.itemCount → f.InWindow row

instance (f : SetFragment Data κ) (rows : List Nat) : Decidable (f.Stays rows) :=
  inferInstanceAs (Decidable (∀ row ∈ rows, _))

/-- The window moves at most for the first of the rows. -/
def OneWindow (T : ItemType Data κ) (f : SetFragment Data κ) : List Nat → Prop
  | [] => True
  | row :: rows => (f.readRow T row).Stays rows

instance (f : SetFragment Data κ) : (rows : List Nat) → Decidable (f.OneWindow T rows)
  | [] => .isTrue trivial
  | _ :: rows => inferInstanceAs (Decidable ((f.readRow T _).Stays rows))

theorem readRow_of_inWindow (h : row < f.itemCount → f.InWindow row) : f.readRow T row = f := by
  unfold readRow
  split
  · rename_i hRow
    obtain ⟨hFirst, hLast⟩ := h hRow
    unfold get
    rw [if_neg (by omega)]
  · rfl

theorem readRows_of_stays (h : f.Stays rows) : f.readRows T rows = f := by
  induction rows with
  | nil => rfl
  | cons row rows ih =>
    change (f.readRow T row).readRows T rows = f
    rw [readRow_of_inWindow (h row mem_cons_self)]
    exact ih fun row hRow => h row (mem_cons_of_mem _ hRow)

theorem readRow_inWindow (h : Holds f l) (hRow : row < l.length) :
    (f.readRow T row).InWindow row := by
  unfold readRow
  rw [h.count, if_pos hRow]
  unfold get
  split
  · have hTwo := capacity_two (T := T)
    simp only [InWindow, bufferFileRange, readBlock, flushBuffer_spec h, length_take, length_drop]
    split <;> omega
  · rename_i hWindow
    rwa [not_or, not_lt, not_le] at hWindow

omit [LinearOrder κ] in
theorem slot_of_inWindow (h : Holds f l) (hIn : row < l.length → f.InWindow row) :
    f.buffer[row - f.firstBufferedItem]? = l[row]? := by
  by_cases hRow : row < l.length
  · obtain ⟨hFirst, hLast⟩ := hIn hRow
    exact h.getElem? hFirst hLast
  · have := h.window_le
    rw [getElem?_eq_none (by omega), getElem?_eq_none (by omega)]

theorem inWindow_of_oneWindow (h : Holds f l) (hOne : f.OneWindow T rows) (hIn : row ∈ rows)
    (hRow : row < l.length) : (f.readRows T rows).InWindow row := by
  cases rows with
  | nil => cases hIn
  | cons first rest =>
    change ((f.readRow T first).readRows T rest).InWindow row
    rw [readRows_of_stays hOne]
    rcases mem_cons.mp hIn with rfl | hRest
    · exact readRow_inWindow h hRow
    refine hOne row hRest ?_
    have hCount : (f.readRow T first).itemCount = f.itemCount := by
      unfold readRow
      split
      · rename_i hFirst
        rw [h.count] at hFirst
        rw [(get_spec h hFirst).2.count, h.count]
      · rfl
    rwa [hCount, h.count]

theorem oneWindow_of_same (h : Holds f l) (hSame : ∀ r ∈ rows, r = row) : f.OneWindow T rows := by
  cases rows with
  | nil => trivial
  | cons first rest =>
    intro r hr hCount
    obtain rfl := hSame first mem_cons_self
    obtain rfl := hSame r (mem_cons_of_mem _ hr)
    by_cases hRow : r < l.length
    · exact readRow_inWindow h hRow
    · unfold readRow at hCount
      rw [h.count, if_neg hRow, h.count] at hCount
      exact absurd hCount hRow

end SetFragment

open SetFragment (Calm)

namespace FragmentSet

variable {s : FragmentSet Data κ} {file : List Nat} {f : SetFragment Data κ} {l : List Data}

/-- The set is one calm fragment. -/
structure Only (T : ItemType Data κ) (s : FragmentSet Data κ) (file : List Nat)
    (f : SetFragment Data κ) (l : List Data) : Prop where
  elems : s.openFragments.elems = [(file, f)]
  calm : Calm T f l

/-- The fragment that a sort of the set leaves is not changed by the next one. -/
def SortsStably (T : ItemType Data κ) (s : FragmentSet Data κ) : Prop :=
  ∀ s' ∈ s.sort T, ∀ p ∈ s'.openFragments.elems,
    p.2.sorted = true ∨ T.stdSort (p.2.items T) = p.2.items T

instance [DecidableEq Data] (s : FragmentSet Data κ) : Decidable (s.SortsStably T) :=
  inferInstanceAs (Decidable (∀ s' ∈ s.sort T, _))

theorem Only.find (h : Only T s file f l) : s.openFragments.find file = some f := by
  rw [find_of_elems h.elems, if_pos rfl]

/-! ## Sorts of a set -/

theorem mergeLoop_clean {n : Nat} {E : List (Nat × List Nat)} {s' : FragmentSet Data κ}
    (hClean : Each (fun f => f.firstDirtyItem = none) s.openFragments)
    (h : mergeLoop T n E s = some s') :
    Each (fun f => f.firstDirtyItem = none) s'.openFragments := by
  induction n generalizing E s with
  | zero => cases h
  | succ n ih =>
    unfold mergeLoop at h
    split at h
    · obtain ⟨⟨E₁, s₁⟩, hRound, hRest⟩ := bind_eq_some_iff.mp h
      obtain ⟨rows, -, hMerged⟩ := bind_eq_some_iff.mp hRound
      obtain ⟨-, rfl⟩ := Prod.mk.inj (some.inj hMerged)
      exact ih ((hClean.put flush_clean).foldl_remove _) hRest
    · cases h
      exact hClean

theorem sort_each_clean {s' : FragmentSet Data κ} (h : s.sort T = some s') :
    Each (fun f => f.firstDirtyItem = none) s'.openFragments := by
  refine mergeLoop_clean ?_ h
  intro file f hFind
  rw [sortFragments_find] at hFind
  obtain ⟨f₀, -, rfl⟩ := map_eq_some_iff.mp hFind
  exact sort_clean

theorem sort_calm (h : Usable T s) (hSize : (elements T s).card < 2 ^ 64)
    (hStable : s.SortsStably T) :
    ∃ s' file f, s.sort T = some s' ∧ Usable T s' ∧ elements T s' = elements T s ∧
      Only T s' file f (f.items T) := by
  obtain ⟨s', file, f, hSort, hStands, hOne, hPerm, hAsc⟩ :=
    sort_spec h.toStands (by rwa [h.size_eq])
  obtain ⟨hUsable, hElements⟩ := usable_of_only hStands hOne (hAsc.mpr h.honest)
  have hFind : s'.openFragments.find file = some f := by
    rw [find_of_elems hOne, if_pos rfl]
  refine ⟨s', file, f, hSort, hUsable, hElements.trans (Multiset.coe_eq_coe.mpr hPerm), hOne, ?_⟩
  exact {
    holds := (hStands.intact file f hFind).holds
    clean := sort_each_clean hSort file f hFind
    kept := hStable s' hSort (file, f) (by rw [hOne]; exact mem_singleton_self _) }

theorem sort_only (h : Only T s file f l) :
    ∃ s', s.sort T = some s' ∧ Only T s' file (f.sort T) l := by
  have hElems : (s.sortFragments T).openFragments.elems = [(file, f.sort T)] := by
    unfold sortFragments
    simp [h.elems, mapVal, sort_flush]
  refine ⟨s.sortFragments T, ?_, hElems, h.calm.sort.1⟩
  unfold sort
  simp only [hElems]
  rfl

/-! ## Readers of a set -/

theorem update_usable (op : SetFragment Data κ → SetFragment Data κ) (h : Usable T s)
    (hFind : s.openFragments.find file = some f) (hCalm : Calm T (op f) (f.items T))
    (hSorted : (op f).sorted = f.sorted) :
    Usable T (s.updateFragment T file op) ∧
      elements T (s.updateFragment T file op) = elements T s := by
  have hReady : Ready T (op f) (f.items T) :=
    hCalm.ready fun hFlag => h.honest file f hFind (hSorted ▸ hFlag)
  obtain ⟨hUsable, hElements⟩ := updateFragment_usable op h hFind hReady
  exact ⟨hUsable, add_right_cancel hElements⟩

theorem update_find {op : SetFragment Data κ → SetFragment Data κ}
    (hFind : s.openFragments.find file = some f) (file' : List Nat) :
    (s.updateFragment T file op).openFragments.find file' =
      if file' = file then some (op f) else s.openFragments.find file' := by
  rw [updateFragment, getFragment, hFind, getD_some, find_put]
  by_cases hSame : file' = file <;> simp [hSame]

theorem Only.update (op : SetFragment Data κ → SetFragment Data κ) (h : Only T s file f l)
    (hCalm : Calm T (op f) l) : Only T (s.updateFragment T file op) file (op f) l where
  elems := by
    apply elems_of_find
    intro file'
    rw [update_find h.find, find_of_elems h.elems]
    split <;> rfl
  calm := hCalm

variable {κ' : Type} [LinearOrder κ'] (key : κ') (fn : κ → κ')

theorem getByKeyProjection_usable (h : Usable T s) (hSize : (elements T s).card < 2 ^ 64)
    (hStable : s.SortsStably T) :
    ∃ item s', s.getByKeyProjection T key fn = some (item, s') ∧ Usable T s' ∧
      elements T s' = elements T s := by
  obtain ⟨s₁, file, f, hSort, hUsable, hElements, hOnly⟩ := sort_calm h hSize hStable
  obtain ⟨hUsable', hElements'⟩ := update_usable (fun _ => (f.getByKeyProjection T key fn).2)
    hUsable hOnly.find (hOnly.calm.getByKeyProjection key fn)
    (getByKeyProjection_sorted key fn)
  refine ⟨(f.getByKeyProjection T key fn).1, _, ?_, hUsable', hElements'.trans hElements⟩
  simp [getByKeyProjection, cursorFragment, hSort, hOnly.elems]

theorem getByKeyProjection_only (h : Only T s file f l) :
    ∃ item s', s.getByKeyProjection T key fn = some (item, s') ∧
      Only T s' file ((f.sort T).getByKeyProjection T key fn).2 l := by
  obtain ⟨s₁, hSort, hOnly⟩ := sort_only h
  refine ⟨((f.sort T).getByKeyProjection T key fn).1, _, ?_,
    hOnly.update (fun _ => ((f.sort T).getByKeyProjection T key fn).2)
      (hOnly.calm.getByKeyProjection key fn)⟩
  simp [getByKeyProjection, cursorFragment, hSort, hOnly.elems]

end FragmentSet

end Fhgfs.Fsck
