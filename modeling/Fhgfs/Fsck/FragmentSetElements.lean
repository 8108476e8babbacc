import Fhgfs.Fsck.FragmentSetSort
import Fhgfs.Fsck.Table
import Mathlib.Algebra.Order.Group.Multiset
import Mathlib.Tactic.Abel

/-!
# The elements of a set

Over a `Usable` set every operation is one on the multiset of its `elements`: the sort keeps
it, `mergeInto` adds the elements of one set to those of another, and an append to the
fragment of a buffer adds one element.
-/

namespace Fhgfs.Fsck

open Multiset OrderedMap SetFragment Option
open SetFragment (Holds Ready Built Intact HonestFlag)

namespace FragmentSet

variable {Data κ : Type} [LinearOrder κ]

/-- A set that is read only through its cursors, and whose flags can be relied on. -/
structure Usable (T : ItemType Data κ) (s : FragmentSet Data κ) : Prop extends Stands T s where
  honest : Each (HonestFlag T) s.openFragments

def elements (T : ItemType Data κ) (s : FragmentSet Data κ) : Multiset Data :=
  ↑(contents T s.openFragments)

variable {T : ItemType Data κ} {s : FragmentSet Data κ} {file : List Nat}
  {f : SetFragment Data κ}

theorem Usable.size_eq (h : Usable T s) : s.size = (elements T s).card := h.toStands.size_eq

theorem Usable.ready (h : Usable T s) (hFind : s.openFragments.find file = some f) :
    Ready T f (f.items T) :=
  (h.intact file f hFind).ready (h.honest file f hFind)

theorem create_usable : Usable T create where
  toStands := create_stands
  honest _ _ hFind := by cases hFind

theorem clear_usable : Usable T clear := create_usable

@[simp] theorem elements_create : elements T create = 0 := rfl

@[simp] theorem elements_clear : elements T clear = 0 := rfl

theorem newFragment_usable (h : Usable T s) : Usable T (s.newFragment T).2 ∧
    elements T (s.newFragment T).2 = elements T s := by
  have hRound := newFragment_round h.toStands
  exact ⟨⟨hRound.stands, hRound.honest h.honest⟩, coe_eq_coe.mpr hRound.items⟩

theorem put_elements {m : Fragments Data κ} (hFind : m.find file = some f)
    (f' : SetFragment Data κ) :
    ((contents T (m.put file f') : Multiset Data)) + ↑(f.items T) =
      ↑(contents T m) + ↑(f'.items T) := by
  have hNew := (m.put_perm file f').flatMap_right fun p => p.2.items T
  have hOld := contents_remove (T := T) hFind
  change ((contents T (m.put file f'))).Perm (f'.items T ++ contents T (m.remove file)) at hNew
  rw [coe_eq_coe.mpr hNew, coe_eq_coe.mpr hOld, ← coe_add, ← coe_add]
  abel

theorem updateFragment_usable (op : SetFragment Data κ → SetFragment Data κ) {rows : List Data}
    (h : Usable T s) (hFind : s.openFragments.find file = some f) (hOp : Ready T (op f) rows) :
    Usable T (s.updateFragment T file op) ∧
      elements T (s.updateFragment T file op) + ↑(f.items T) = elements T s + ↑rows := by
  have hItems : (op f).items T = rows := items_of_holds hOp.holds
  have hPut : (s.updateFragment T file op).openFragments = s.openFragments.put file (op f) := by
    rw [updateFragment, getFragment, hFind, getD_some]
  refine ⟨⟨updateFragment_stands h.toStands hFind hOp.intact, ?_⟩, ?_⟩
  · rw [hPut]
    exact h.honest.put hOp.honestFlag
  · rw [← hItems, elements, hPut]
    exact put_elements hFind (op f)

/-! ## Sorting -/

theorem usable_of_only (h : Stands T s) (hOne : s.openFragments.elems = [(file, f)])
    (hAsc : T.Ascending (f.items T)) : Usable T s ∧ elements T s = ↑(f.items T) := by
  refine ⟨⟨h, fun file' f' hFind => ?_⟩, by simp [elements, contents, hOne]⟩
  rw [find_of_elems hOne] at hFind
  split at hFind
  · cases hFind
    exact fun _ => hAsc
  · cases hFind

section

variable (h : Usable T s) (hSize : (elements T s).card < 2 ^ 64)
include h hSize

theorem cursorFragment_spec :
    ∃ file f s', s.sort T = some s' ∧ s.cursorFragment T = some (file, f, s') ∧ Usable T s' ∧
      s'.openFragments.find file = some f ∧ elements T s' = elements T s ∧
      (f.items T : Multiset Data) = elements T s ∧ T.Ascending (f.items T) := by
  obtain ⟨s', file, f, hSort, hStands, hOne, hPerm, hAsc⟩ :=
    sort_spec h.toStands (by rwa [h.size_eq])
  have hAscending := hAsc.mpr h.honest
  obtain ⟨hUsable, hElements⟩ := usable_of_only hStands hOne hAscending
  have hItems : (f.items T : Multiset Data) = elements T s := coe_eq_coe.mpr hPerm
  refine ⟨file, f, s', hSort, ?_, hUsable, ?_, hElements.trans hItems, hItems, hAscending⟩
  · simp [cursorFragment, hSort, hOne]
  · rw [find_of_elems hOne, if_pos rfl]

theorem sort_usable : ∃ s', s.sort T = some s' ∧ Usable T s' ∧ elements T s' = elements T s := by
  obtain ⟨-, -, s', hSort, -, hUsable, -, hElements, -⟩ := cursorFragment_spec h hSize
  exact ⟨s', hSort, hUsable, hElements⟩

theorem makeUnique_usable :
    ∃ s', s.makeUnique T = some s' ∧ Usable T s' ∧ (elements T s').card ≤ (elements T s).card ∧
      ∀ k, (∃ x ∈ elements T s', T.pkey x = k) ↔ ∃ x ∈ elements T s, T.pkey x = k := by
  obtain ⟨s', file, f, hUnique, hStands, hOne, hKeys⟩ :=
    makeUnique_spec h.toStands (by rwa [h.size_eq]) h.honest
  obtain ⟨hUsable, hElements⟩ := usable_of_only hStands hOne (hKeys.ascending.imp fun hLt => hLt.le)
  refine ⟨s', hUnique, hUsable, ?_, fun k => ?_⟩
  all_goals rw [hElements]
  · have hNodup : (f.items T).Nodup :=
      hKeys.ascending.imp fun hLt hSame => hLt.ne (congrArg T.pkey hSame)
    exact (hNodup.subperm hKeys.subset).length_le
  · constructor
    · rintro ⟨x, hx, hKey⟩
      exact ⟨x, hKeys.subset hx, hKey⟩
    · rintro ⟨row, hRow, hKey⟩
      obtain ⟨x, hx, hSame⟩ := hKeys.keys row hRow
      exact ⟨x, hx, hSame.trans hKey⟩

end

/-! ## Handing fragments over -/

theorem foldl_accept_usable {ps : List (List Nat × SetFragment Data κ)} (h : Usable T s)
    (hReady : ∀ p ∈ ps, Ready T p.2 (p.2.items T)) :
    Usable T (ps.foldl (fun other p => {
        nextID := other.nextID + 1
        openFragments := other.openFragments.put (fragmentName other.nextID) p.2 }) s) ∧
      elements T (ps.foldl (fun other p => {
        nextID := other.nextID + 1
        openFragments := other.openFragments.put (fragmentName other.nextID) p.2 }) s) =
        elements T s + ↑(ps.flatMap fun p => p.2.items T) := by
  induction ps generalizing s with
  | nil => exact ⟨h, by simp⟩
  | cons p ps ih =>
    have hp := hReady p List.mem_cons_self
    have hPut : Usable T ⟨s.nextID + 1, s.openFragments.put (fragmentName s.nextID) p.2⟩ :=
      ⟨h.toStands.put hp.intact, h.honest.put hp.honestFlag⟩
    obtain ⟨hUsable, hElements⟩ := ih hPut fun q hq => hReady q (List.mem_cons_of_mem p hq)
    refine ⟨hUsable, hElements.trans ?_⟩
    have hAdd := contents_put (T := T) (f := p.2) (h.named le_rfl)
    rw [List.flatMap_cons, elements, elements, coe_eq_coe.mpr hAdd, ← coe_add, ← coe_add]
    abel

theorem mergeInto_usable {other : FragmentSet Data κ} (h : Usable T s)
    (hOther : Usable T other) :
    (Usable T (s.mergeInto other).1 ∧ elements T (s.mergeInto other).1 = 0) ∧
      Usable T (s.mergeInto other).2 ∧
      elements T (s.mergeInto other).2 = elements T other + elements T s := by
  refine ⟨⟨⟨⟨fun _ => find_empty _, ?_⟩, ?_⟩, rfl⟩, foldl_accept_usable hOther ?_⟩
  · exact fun _ _ hFind => by cases hFind
  · exact fun _ _ hFind => by cases hFind
  · exact fun p hp => h.ready (find_eq_some.mpr hp)

end FragmentSet

/-! ## Buffers -/

namespace Buffer

open FragmentSet

variable {Data κ : Type} [LinearOrder κ] {T : ItemType Data κ} {s : FragmentSet Data κ}
  {b : Buffer}

/-- The fragment of the buffer is one of the set, and has only been appended to. -/
def Open (T : ItemType Data κ) (b : Buffer) (s : FragmentSet Data κ) : Prop :=
  ∀ file ∈ b.currentFragment, ∃ f l, s.openFragments.find file = some f ∧ Built T f l

theorem open_none : Open T ⟨none⟩ s := by simp [Open]

theorem flush_usable (h : Usable T s) (hOpen : b.Open T s) :
    Usable T (b.flush T s) ∧ elements T (b.flush T s) = elements T s := by
  unfold flush
  cases hFile : b.currentFragment with
  | none => exact ⟨h, rfl⟩
  | some file =>
    obtain ⟨f, l, hFind, hBuilt⟩ := hOpen file hFile
    obtain ⟨hUsable, hElements⟩ := updateFragment_usable _ h hFind (flush_ready hBuilt.toReady)
    rw [items_of_holds hBuilt.holds] at hElements
    exact ⟨hUsable, add_right_cancel hElements⟩

theorem update_append {file : List Nat} {f : SetFragment Data κ} {l : List Data}
    (h : Usable T s) (hFind : s.openFragments.find file = some f) (hBuilt : Built T f l)
    (data : Data) :
    Usable T (s.updateFragment T file fun f => f.append T data) ∧
      Open T ⟨some file⟩ (s.updateFragment T file fun f => f.append T data) ∧
      elements T (s.updateFragment T file fun f => f.append T data) = data ::ₘ elements T s := by
  have hAppend := append_built hBuilt data
  obtain ⟨hUsable, hElements⟩ := updateFragment_usable
    (fun f => f.append T data) h hFind hAppend.toReady
  refine ⟨hUsable, ?_, ?_⟩
  · rintro file' ⟨⟩
    refine ⟨_, _, ?_, hAppend⟩
    rw [updateFragment, getFragment, hFind, getD_some, find_put_self]
  · rw [items_of_holds hBuilt.holds, ← coe_add, add_comm (l : Multiset Data),
      ← add_assoc] at hElements
    rw [add_right_cancel hElements, coe_singleton, add_comm, singleton_add]

theorem ensureFragment_spec (h : Usable T s) (hOpen : b.Open T s) :
    Usable T (b.ensureFragment T s).2 ∧ elements T (b.ensureFragment T s).2 = elements T s ∧
      ∃ f l, (b.ensureFragment T s).2.openFragments.find (b.ensureFragment T s).1 = some f ∧
        Built T f l := by
  unfold ensureFragment
  cases hFile : b.currentFragment with
  | none =>
    obtain ⟨hUsable, hElements⟩ := newFragment_usable h
    exact ⟨hUsable, hElements, _, _, newFragment_find h.toStands, create_built⟩
  | some file => exact ⟨h, rfl, hOpen file hFile⟩

theorem append_usable (fragmentSize : Nat) (data : Data) (h : Usable T s)
    (hOpen : b.Open T s) : Usable T (b.append T fragmentSize data s).2 ∧
      (b.append T fragmentSize data s).1.Open T (b.append T fragmentSize data s).2 ∧
      elements T (b.append T fragmentSize data s).2 = data ::ₘ elements T s := by
  obtain ⟨hPlaced, hPlacedElements, f, l, hFind, hBuilt⟩ := ensureFragment_spec h hOpen
  obtain ⟨hUsable, hOpen', hElements⟩ := update_append hPlaced hFind hBuilt data
  rw [hPlacedElements] at hElements
  unfold append
  simp only
  split
  · obtain ⟨hFlushed, hSame⟩ := flush_usable hUsable hOpen'
    exact ⟨hFlushed, open_none, hSame.trans hElements⟩
  · exact ⟨hUsable, hOpen', hElements⟩

end Buffer

/-! ## Fragments that a buffer does not fill -/

section

variable {Data κ : Type} [LinearOrder κ] {T : ItemType Data κ} {s : FragmentSet Data κ}
  {file : List Nat} {f : SetFragment Data κ}

theorem FragmentSet.updateFragment_other {file' : List Nat} (hNe : file ≠ file')
    (op : SetFragment Data κ → SetFragment Data κ) :
    (s.updateFragment T file' op).openFragments.find file = s.openFragments.find file :=
  find_put_of_ne _ _ hNe

namespace Buffer

variable {b : Buffer}

theorem flush_other (hNe : b.currentFragment ≠ some file) :
    (b.flush T s).openFragments.find file = s.openFragments.find file := by
  unfold flush
  cases hFile : b.currentFragment with
  | none => rfl
  | some file' =>
    apply FragmentSet.updateFragment_other
    rintro rfl
    exact hNe hFile

section

variable (hNext : s.openFragments.find (fragmentName s.nextID) = none)
  (hFind : s.openFragments.find file = some f) (hNe : b.currentFragment ≠ some file)
include hNext hFind hNe

theorem ensureFragment_other : (b.ensureFragment T s).1 ≠ file ∧
      (b.ensureFragment T s).2.openFragments.find file = some f := by
  unfold ensureFragment
  cases hFile : b.currentFragment with
  | none =>
    have hName : file ≠ fragmentName s.nextID := by
      rintro rfl
      rw [hNext] at hFind
      cases hFind
    exact ⟨hName.symm, (find_put_of_ne _ _ hName).trans hFind⟩
  | some file' =>
    refine ⟨?_, hFind⟩
    rintro rfl
    exact hNe hFile

theorem append_other (fragmentSize : Nat) (data : Data) :
    (b.append T fragmentSize data s).2.openFragments.find file = some f ∧
      (b.append T fragmentSize data s).1.currentFragment ≠ some file := by
  obtain ⟨hOther, hKept⟩ := ensureFragment_other (T := T) hNext hFind hNe
  have hUpdated := (FragmentSet.updateFragment_other (T := T) hOther.symm
    fun f => f.append T data).trans hKept
  have hNot : (⟨some (b.ensureFragment T s).1⟩ : Buffer).currentFragment ≠ some file :=
    fun hSame => hOther (some.inj hSame)
  unfold append
  simp only
  split
  · exact ⟨(flush_other hNot).trans hUpdated, by simp⟩
  · exact ⟨hUpdated, hNot⟩

end

end Buffer

end

end Fhgfs.Fsck
