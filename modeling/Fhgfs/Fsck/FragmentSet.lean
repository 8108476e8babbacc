import Mathlib.Data.Nat.Digits.Defs
import Mathlib.Data.List.Lex
import Fhgfs.Fsck.FragmentContents
import Fhgfs.Fsck.Union
import Fhgfs.Lib.OrderedMap

/-!
# Set

A set of items in fragment files, by file name. `sort` sorts every fragment and merges the
smallest ones, up to four at a time, until one is left; `makeUnique` keeps the first item of
each key. The file with the list of the fragments is not modelled. `none` is the result where
the code throws, reads a row that is not there or does not end.
-/

namespace Fhgfs.Fsck

/-- The number in a file name `<basename>.<id>`, with at least five digits. -/
def fragmentName (id : Nat) : List Nat :=
  ((Nat.digits 10 id) ++ List.replicate (5 - (Nat.digits 10 id).length) 0).reverse

structure FragmentSet (Data κ : Type) where
  nextID : Nat
  openFragments : OrderedMap (List Nat) (SetFragment Data κ)

namespace FragmentSet

variable {Data κ : Type} [LinearOrder κ] (T : ItemType Data κ)

/-- The constructor, where the file with the list does not exist. -/
def create : FragmentSet Data κ := ⟨0, OrderedSet.empty⟩

variable (s : FragmentSet Data κ)

def size : Nat :=
  (s.openFragments.elems.map fun p => p.2.itemCount).sum

variable (file : List Nat)

/-- The fragment of a file: the open one, or that of a new file. -/
def getFragment : SetFragment Data κ :=
  (s.openFragments.find file).getD (SetFragment.create T)

/-- The name of the new fragment, and the set with it. -/
def newFragment : List Nat × FragmentSet Data κ :=
  let file := fragmentName s.nextID
  (file, {
    nextID := s.nextID + 1
    openFragments := s.openFragments.put file (s.getFragment T file) })

def removeFragment : FragmentSet Data κ :=
  { s with openFragments := s.openFragments.remove file }

/-- An operation on the fragment that a caller holds. -/
def updateFragment (op : SetFragment Data κ → SetFragment Data κ) : FragmentSet Data κ :=
  { s with openFragments := s.openFragments.put file (op (s.getFragment T file)) }

/-! ## Sorting -/

/-- `std::multimap::insert`: behind the entries of the same size. -/
def insertBySize (entry : Nat × List Nat) : List (Nat × List Nat) → List (Nat × List Nat)
  | [] => [entry]
  | e :: rest => if entry.1 < e.1 then entry :: e :: rest else e :: insertBySize entry rest

/-- The rows of the union cursor over two to four inputs. -/
def mergeInputs : List (SetFragment Data κ) → Option (List Data)
  | [a, b] => (union (a.cursor T) (b.cursor T) T.pkey).readAll
  | [a, b, c] => (union (union (a.cursor T) (b.cursor T) T.pkey) (c.cursor T) T.pkey).readAll
  | [a, b, c, d] =>
    (union (union (a.cursor T) (b.cursor T) T.pkey) (union (c.cursor T) (d.cursor T) T.pkey)
      T.pkey).readAll
  | _ => none

def MERGE_WIDTH : Nat := 4

/-- One round of the merge: the smallest fragments become one. -/
def mergeRound (sortedFragments : List (Nat × List Nat)) (s : FragmentSet Data κ) :
    Option (List (Nat × List Nat) × FragmentSet Data κ) := do
  let inputs := (sortedFragments.take MERGE_WIDTH).map Prod.snd
  let file := fragmentName s.nextID
  let rows ← mergeInputs T (inputs.map (s.getFragment T))
  let merged := ((s.getFragment T file).appendAll T rows).flush
  let s := {
    nextID := s.nextID + 1
    openFragments := inputs.foldl OrderedMap.remove (s.openFragments.put file merged) }
  some (insertBySize (merged.itemCount, file) (sortedFragments.drop MERGE_WIDTH), s)

def mergeLoop : Nat → List (Nat × List Nat) → FragmentSet Data κ → Option (FragmentSet Data κ)
  | 0, _, _ => none
  | n + 1, sortedFragments, s =>
    if sortedFragments.length > 1 then do
      let (sortedFragments, s) ← mergeRound T sortedFragments s
      mergeLoop n sortedFragments s
    else
      some s

/-- The first part of `sort`: every fragment flushed and sorted. -/
def sortFragments : FragmentSet Data κ :=
  let s := if s.openFragments.elems.isEmpty then (s.newFragment T).2 else s
  { s with openFragments :=
      (s.openFragments.mapVal SetFragment.flush).mapVal (SetFragment.sort T) }

def sort : Option (FragmentSet Data κ) :=
  let s := s.sortFragments T
  let sortedFragments := s.openFragments.elems.foldl
    (fun sorted p => insertBySize (p.2.itemCount, p.1) sorted) []
  mergeLoop T sortedFragments.length sortedFragments s

/-- The fragment that `cursor` reads, with its name and the set that has been sorted for it. -/
def cursorFragment :
    Option (List Nat × SetFragment Data κ × FragmentSet Data κ) := do
  let s ← s.sort T
  let (file, fragment) ← s.openFragments.elems.head?
  some (file, fragment, s)

/-- The loop of `makeUnique` over the rows behind the first one. -/
def uniqueLoop : κ → List Data → SetFragment Data κ → SetFragment Data κ
  | _, [], unique => unique
  | key, row :: rows, unique =>
    if key = T.pkey row then
      uniqueLoop key rows unique
    else
      uniqueLoop (T.pkey row) rows (unique.append T row)

def makeUnique : Option (FragmentSet Data κ) := do
  let s ← s.sort T
  let input ← s.openFragments.elems.head?
  match ← (input.2.cursor T).readAll with
  | [] => some s
  | row :: rows =>
    let (file, s) := s.newFragment T
    let s := s.updateFragment T file fun unique =>
      (uniqueLoop T (T.pkey row) rows (unique.append T row)).flush
    some (s.removeFragment input.1)

def clear : FragmentSet Data κ := create

/-- `acceptFragment` of `other` for every fragment of `s`, which is left without any. -/
def mergeInto (s other : FragmentSet Data κ) : FragmentSet Data κ × FragmentSet Data κ :=
  let other := s.openFragments.elems.foldl (fun other p => {
    nextID := other.nextID + 1
    openFragments := other.openFragments.put (fragmentName other.nextID) p.2 }) other
  ({ s with openFragments := OrderedSet.empty }, other)

end FragmentSet

end Fhgfs.Fsck

/-!
## States of a set

`Stands` is what holds of a set whose fragments are only read through its cursors: no file
name is used twice, every fragment has its items, and a fragment is not read before it is
sorted. A fragment has an `HonestFlag` if its items ascend when the flag is set.
-/

namespace Fhgfs.Fsck

variable {Data κ : Type} [LinearOrder κ]

abbrev ItemType.Ascending (T : ItemType Data κ) (l : List Data) : Prop :=
  l.Pairwise fun a b => T.pkey a ≤ T.pkey b

/-! ## File names -/

theorem fragmentName_injective : Function.Injective fragmentName := by
  have hValue (id : Nat) : Nat.ofDigits 10 (fragmentName id).reverse = id := by
    rw [fragmentName, List.reverse_reverse, Nat.ofDigits_append_replicate_zero, Nat.ofDigits_digits]
  intro id id' h
  rw [← hValue id, h, hValue id']

/-! ## The fragments of a set -/

namespace SetFragment

/-- The fragment has its items, and a sort leaves no window of before behind. -/
structure Intact (T : ItemType Data κ) (f : SetFragment Data κ) : Prop where
  holds : Holds f (f.items T)
  fresh : f.sorted = false → SortsWindow T f (f.items T)

def HonestFlag (T : ItemType Data κ) (f : SetFragment Data κ) : Prop :=
  f.sorted = true → T.Ascending (f.items T)

variable {T : ItemType Data κ} {f : SetFragment Data κ} {l : List Data}

theorem Intact.of_holds (h : Holds f l)
    (hFresh : f.sorted = false → SortsWindow T f l) : Intact T f where
  holds := (items_of_holds (T := T) h).symm ▸ h
  fresh := (items_of_holds (T := T) h).symm ▸ hFresh

theorem Ready.intact (h : Ready T f l) : Intact T f := .of_holds h.holds h.fresh

theorem Ready.honestFlag (h : Ready T f l) : HonestFlag T f := by
  intro hSorted
  rw [items_of_holds h.holds]
  exact h.ascending hSorted

theorem Intact.ready (h : Intact T f) (hHonest : HonestFlag T f) : Ready T f (f.items T) :=
  ⟨h.holds, hHonest, h.fresh⟩

end SetFragment

open SetFragment (Holds Ready Built Intact HonestFlag)

namespace FragmentSet

abbrev Fragments (Data κ : Type) := OrderedMap (List Nat) (SetFragment Data κ)

def Each (P : SetFragment Data κ → Prop) (m : Fragments Data κ) : Prop :=
  ∀ file f, m.find file = some f → P f

variable (T : ItemType Data κ)

def contents (m : Fragments Data κ) : List Data := m.elems.flatMap fun p => p.2.items T

structure Stands (s : FragmentSet Data κ) : Prop where
  named {id : Nat} : s.nextID ≤ id → s.openFragments.find (fragmentName id) = none
  intact : Each (Intact T) s.openFragments

variable {T} {s : FragmentSet Data κ} {m : Fragments Data κ} {file : List Nat}
  {f : SetFragment Data κ} {P : SetFragment Data κ → Prop}

omit [LinearOrder κ] in
theorem Each.put (h : Each P m) (hf : P f) : Each P (m.put file f) := by
  intro file' f' hFind
  rw [OrderedMap.find_put] at hFind
  split at hFind
  · cases hFind
    exact hf
  · exact h file' f' hFind

omit [LinearOrder κ] in
theorem Each.remove (h : Each P m) : Each P (m.remove file) := by
  intro file' f' hFind
  rw [OrderedMap.find_remove] at hFind
  split at hFind
  · cases hFind
  · exact h file' f' hFind

omit [LinearOrder κ] in
theorem Each.foldl_remove (h : Each P m) (files : List (List Nat)) :
    Each P (files.foldl OrderedMap.remove m) := by
  induction files generalizing m with
  | nil => exact h
  | cons file files ih => exact ih h.remove

omit [LinearOrder κ] in
theorem each_iff_foldl_remove {files : List (List Nat)} : Each P m ↔
    Each P (files.foldl OrderedMap.remove m) ∧ ∀ file ∈ files, ∀ f, m.find file = some f → P f := by
  refine ⟨fun h => ⟨h.foldl_remove files, fun file _ f => h file f⟩, ?_⟩
  rintro ⟨hOthers, hFiles⟩ file f hFind
  by_cases hIn : file ∈ files
  · exact hFiles file hIn f hFind
  · exact hOthers file f (by rw [OrderedMap.find_foldl_remove, if_neg hIn, hFind])

omit [LinearOrder κ] in
theorem each_put_iff (h : m.find file = none) : Each P (m.put file f) ↔ P f ∧ Each P m := by
  refine ⟨fun hEach => ⟨hEach file f (OrderedMap.find_put_self m file f), ?_⟩, fun hBoth =>
    hBoth.2.put hBoth.1⟩
  intro file' f' hFind
  refine hEach file' f' ?_
  rw [OrderedMap.find_put_of_ne _ _ (by rintro rfl; simp [h] at hFind), hFind]

theorem contents_remove (h : m.find file = some f) :
    (contents T m).Perm (f.items T ++ contents T (m.remove file)) :=
  (OrderedMap.perm_cons_remove h).flatMap_right _

theorem contents_put (h : m.find file = none) :
    (contents T (m.put file f)).Perm (f.items T ++ contents T m) := by
  have hPerm := (m.put_perm file f).flatMap_right fun p => p.2.items T
  rwa [OrderedMap.remove_of_find h] at hPerm

theorem contents_foldl_remove {files : List (List Nat)} (hNodup : files.Nodup)
    (fragment : List Nat → SetFragment Data κ)
    (hFind : ∀ file ∈ files, m.find file = some (fragment file)) :
    (contents T m).Perm ((files.flatMap fun file => (fragment file).items T) ++
      contents T (files.foldl OrderedMap.remove m)) := by
  induction files generalizing m with
  | nil => exact List.Perm.refl _
  | cons file files ih =>
    obtain ⟨hNotIn, hNodup⟩ := List.nodup_cons.mp hNodup
    have hRest := ih (m := m.remove file) hNodup fun file' hIn => by
      rw [OrderedMap.find_remove_of_ne _ (by rintro rfl; exact hNotIn hIn)]
      exact hFind file' (List.mem_cons_of_mem file hIn)
    rw [List.flatMap_cons, List.append_assoc]
    exact (contents_remove (hFind file List.mem_cons_self)).trans (hRest.append_left _)

theorem contents_length (h : Each (Intact T) m) :
    (contents T m).length = (m.elems.map fun p => p.2.itemCount).sum := by
  rw [contents, List.length_flatMap, List.map_congr_left]
  intro p hp
  exact (h p.1 p.2 (OrderedMap.find_eq_some.mpr hp)).holds.count.symm

section

variable (h : Stands T s)
include h

theorem Stands.size_eq : s.size = (contents T s.openFragments).length :=
  (contents_length h.intact).symm

theorem Stands.ne_nextName (hFind : s.openFragments.find file = some f) :
    file ≠ fragmentName s.nextID := by
  rintro rfl
  rw [h.named le_rfl] at hFind
  cases hFind

theorem Stands.put (hf : Intact T f) : Stands T
    ⟨s.nextID + 1, s.openFragments.put (fragmentName s.nextID) f⟩ where
  named {id} hId := by
    have hNext : s.nextID < id := hId
    rw [OrderedMap.find_put_of_ne _ _ (fragmentName_injective.ne hNext.ne'), h.named hNext.le]
  intact := h.intact.put hf

theorem Stands.foldl_remove (files : List (List Nat)) :
    Stands T ⟨s.nextID, files.foldl OrderedMap.remove s.openFragments⟩ where
  named hId := by
    rw [OrderedMap.find_foldl_remove]
    split
    · rfl
    · exact h.named hId
  intact := h.intact.foldl_remove files

end

end FragmentSet

end Fhgfs.Fsck
