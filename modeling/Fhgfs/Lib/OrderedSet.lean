import Mathlib.Data.List.Basic
import Mathlib.Order.Lattice

/-!
# Ordered sets with a key

An associative container that keeps its elements strictly ascending in a key and holds at
most one element per key, in the way of `std::set` with a comparator: two elements are the
same for the container exactly when their keys are equal.

* `OrderedSet.insert` refuses an element whose key is taken and leaves the old one in place;
  `mem_insert` states this as the membership rule.
* `OrderedSet.erase` removes the element with a given key, `OrderedSet.filter` a class of
  elements.
* `OrderedSet.eq_of_key_eq`: an element is determined by its key.
-/

namespace Fhgfs

open List

/-- Elements of `α`, strictly ascending in `key`. -/
structure OrderedSet {α κ : Type} [LinearOrder κ] (key : α → κ) where
  elems : List α
  ascending : elems.Pairwise (fun a b => key a < key b)
deriving DecidableEq

namespace OrderedSet

variable {α κ : Type} [LinearOrder κ] {key : α → κ}

instance : Membership α (OrderedSet key) := ⟨fun s x => x ∈ s.elems⟩

variable {s : OrderedSet key}

theorem mem_def {x : α} : x ∈ s ↔ x ∈ s.elems := Iff.rfl

instance [DecidableEq α] (x : α) (s : OrderedSet key) : Decidable (x ∈ s) :=
  inferInstanceAs (Decidable (x ∈ s.elems))

def empty : OrderedSet key := ⟨[], List.Pairwise.nil⟩

@[simp] theorem not_mem_empty (x : α) : x ∉ (empty : OrderedSet key) := by
  simp [mem_def, empty]

variable {x y : α}

theorem eq_of_key_eq (hx : x ∈ s) (hy : y ∈ s) (h : key x = key y) : x = y := by
  have hpair : s.elems.Pairwise (fun a b => key a = key b → a = b) :=
    s.ascending.imp (fun hlt heq => absurd heq hlt.ne)
  have hflip : s.elems.Pairwise (flip (fun a b => key a = key b → a = b)) :=
    s.ascending.imp (fun hlt heq => absurd heq hlt.ne')
  exact hpair.forall_of_forall_of_flip (fun _ _ _ => rfl) hflip hx hy h

/-! ## Insertion -/

/-- Position of a new element in an ascending list; a taken key keeps the old element. -/
def insertElem (key : α → κ) (x : α) : List α → List α
  | [] => [x]
  | y :: ys =>
    if key x < key y then x :: y :: ys
    else if key y < key x then y :: insertElem key x ys
    else y :: ys

theorem mem_insertElem {l : List α} (hl : l.Pairwise (fun a b => key a < key b)) :
    y ∈ insertElem key x l ↔ y ∈ l ∨ (y = x ∧ ∀ z ∈ l, key z ≠ key x) := by
  induction l with
  | nil => simp [insertElem]
  | cons a as ih =>
    have hlt : ∀ z ∈ as, key a < key z := (pairwise_cons.mp hl).1
    unfold insertElem
    split
    · rename_i hxa
      have hfree : ∀ z ∈ a :: as, key z ≠ key x := by
        intro z hz
        rcases mem_cons.mp hz with rfl | hz
        · exact hxa.ne'
        · exact (hxa.trans (hlt z hz)).ne'
      simp only [mem_cons] at hfree ⊢
      tauto
    · rename_i hxa
      split
      · rename_i hax
        rw [mem_cons, ih (pairwise_cons.mp hl).2]
        simp only [mem_cons, forall_eq_or_imp]
        have hne : key a ≠ key x := hax.ne
        tauto
      · rename_i hax
        have heq : key a = key x := le_antisymm (not_lt.mp hxa) (not_lt.mp hax)
        simp [heq]

theorem pairwise_insertElem {x : α} {l : List α} (hl : l.Pairwise (fun a b => key a < key b)) :
    (insertElem key x l).Pairwise (fun a b => key a < key b) := by
  induction l with
  | nil => simp [insertElem]
  | cons a as ih =>
    obtain ⟨hlt, has⟩ := pairwise_cons.mp hl
    unfold insertElem
    split
    · rename_i hxa
      refine pairwise_cons.mpr ⟨?_, hl⟩
      intro z hz
      rcases mem_cons.mp hz with rfl | hz
      · exact hxa
      · exact hxa.trans (hlt z hz)
    · split
      · rename_i hax
        refine pairwise_cons.mpr ⟨?_, ih has⟩
        intro z hz
        rcases (mem_insertElem has).mp hz with hz | ⟨rfl, -⟩
        · exact hlt z hz
        · exact hax
      · exact hl

def insert (s : OrderedSet key) (x : α) : OrderedSet key :=
  ⟨insertElem key x s.elems, pairwise_insertElem s.ascending⟩

theorem mem_insert : y ∈ s.insert x ↔ y ∈ s ∨ (y = x ∧ ∀ z ∈ s, key z ≠ key x) :=
  mem_insertElem s.ascending

theorem mem_insert_of_mem (h : y ∈ s) : y ∈ s.insert x := mem_insert.mpr (Or.inl h)

/-! ### Insertion of several elements -/

variable {xs : List α}

theorem mem_foldl_insert {y : α} (h : y ∈ xs.foldl insert s) : y ∈ s ∨ y ∈ xs := by
  induction xs generalizing s with
  | nil => exact Or.inl h
  | cons x xs ih =>
    rcases ih h with hs | hxs
    · rcases mem_insert.mp hs with hs | ⟨rfl, -⟩
      · exact Or.inl hs
      · exact Or.inr mem_cons_self
    · exact Or.inr (mem_cons_of_mem _ hxs)

theorem mem_foldl_insert_of_mem {y : α} (h : y ∈ s) : y ∈ xs.foldl insert s := by
  induction xs generalizing s with
  | nil => exact h
  | cons x xs ih => exact ih (mem_insert_of_mem h)

theorem exists_key_foldl_insert {y : α} (hy : y ∈ xs) : ∃ z ∈ xs.foldl insert s, key z = key y := by
  induction xs generalizing s with
  | nil => cases hy
  | cons x xs ih =>
    rcases mem_cons.mp hy with rfl | hy
    · have hHead : ∃ z ∈ s.insert y, key z = key y := by
        by_cases hOld : ∃ z ∈ s, key z = key y
        · obtain ⟨z, hz, hKey⟩ := hOld
          exact ⟨z, mem_insert_of_mem hz, hKey⟩
        · have hFresh : ∀ z ∈ s, key z ≠ key y := fun z hz hKey => hOld ⟨z, hz, hKey⟩
          exact ⟨y, mem_insert.mpr (Or.inr ⟨rfl, hFresh⟩), rfl⟩
      obtain ⟨z, hz, hKey⟩ := hHead
      exact ⟨z, (mem_foldl_insert_of_mem hz : z ∈ xs.foldl insert (s.insert y)), hKey⟩
    · exact ih hy

theorem mem_foldl_insert_of_fresh {y : α} (hy : y ∈ xs) (hFresh : ∀ x ∈ xs, ∀ z ∈ s, key z ≠ key x)
    (hKeys : xs.Pairwise (fun a b => key a ≠ key b)) : y ∈ xs.foldl insert s := by
  induction xs generalizing s with
  | nil => cases hy
  | cons x xs ih =>
    obtain ⟨hx, hxs⟩ := pairwise_cons.mp hKeys
    rcases mem_cons.mp hy with rfl | hy
    · have hHead : y ∈ s.insert y := mem_insert.mpr (Or.inr ⟨rfl, hFresh y mem_cons_self⟩)
      exact (mem_foldl_insert_of_mem hHead : y ∈ xs.foldl insert (s.insert y))
    · refine ih hy ?_ hxs
      intro v hv z hz
      rcases mem_insert.mp hz with hz | ⟨rfl, -⟩
      · exact hFresh v (mem_cons_of_mem _ hv) z hz
      · exact hx v hv

/-! ## Removal and lookup -/

def filter (p : α → Bool) (s : OrderedSet key) : OrderedSet key :=
  ⟨s.elems.filter p, s.ascending.filter p⟩

variable {p : α → Bool}

@[simp] theorem mem_filter {x : α} : x ∈ s.filter p ↔ x ∈ s ∧ p x = true := List.mem_filter

/-- Remove the element whose key is the key of `x`. -/
def erase (s : OrderedSet key) (x : α) : OrderedSet key :=
  s.filter (fun y => decide (key y ≠ key x))

@[simp] theorem mem_erase : y ∈ s.erase x ↔ y ∈ s ∧ key y ≠ key x := by
  simp [erase]

theorem mem_erase_of_mem (hx : x ∈ s) : y ∈ s.erase x ↔ y ∈ s ∧ y ≠ x := by
  rw [mem_erase]
  refine and_congr_right fun hy => not_congr ?_
  exact ⟨eq_of_key_eq hy hx, fun h => h ▸ rfl⟩

def contains (s : OrderedSet key) (x : α) : Bool :=
  s.elems.any (fun y => decide (key y = key x))

@[simp] theorem contains_iff {x : α} : s.contains x = true ↔ ∃ y ∈ s, key y = key x := by
  simp [contains, mem_def]

@[ext] theorem ext_elems {s t : OrderedSet key} (h : s.elems = t.elems) : s = t := by
  cases s
  cases t
  cases h
  rfl

theorem filter_eq_self (h : ∀ x ∈ s, p x = true) : s.filter p = s :=
  ext_elems (List.filter_eq_self.mpr h)

section

variable (hp : ∀ x y, key x < key y → p y = true → p x = true)
include hp

private theorem mem_takeWhile_list {l : List α}
    (hl : l.Pairwise (fun a b => key a < key b)) {y : α} :
    y ∈ l.takeWhile p ↔ y ∈ l ∧ p y = true := by
  induction l with
  | nil => simp
  | cons a as ih =>
    obtain ⟨hlt, has⟩ := pairwise_cons.mp hl
    rw [takeWhile_cons]
    split
    · rename_i ha
      rw [mem_cons, mem_cons, ih has]
      constructor
      · rintro (rfl | ⟨hy, hpy⟩)
        · exact ⟨Or.inl rfl, ha⟩
        · exact ⟨Or.inr hy, hpy⟩
      · rintro ⟨rfl | hy, hpy⟩
        · exact Or.inl rfl
        · exact Or.inr ⟨hy, hpy⟩
    · rename_i ha
      simp only [not_mem_nil, false_iff, mem_cons]
      rintro ⟨rfl | hy, hpy⟩
      · exact ha hpy
      · exact ha (hp a y (hlt y hy) hpy)

theorem mem_takeWhile {y : α} : y ∈ s.elems.takeWhile p ↔ y ∈ s ∧ p y = true :=
  mem_takeWhile_list hp s.ascending

end

theorem nodup_elems (s : OrderedSet key) : s.elems.Nodup :=
  s.ascending.imp fun hlt heq => absurd (heq ▸ rfl) hlt.ne

theorem mem_insert_id {s : OrderedSet (fun x : κ => x)} {x y : κ} :
    y ∈ s.insert x ↔ y ∈ s ∨ y = x := by
  rw [mem_insert]
  constructor
  · intro h
    exact h.imp_right fun h => h.1
  · intro h
    by_cases hIn : x ∈ s
    · rcases h with hy | rfl
      · exact Or.inl hy
      · exact Or.inl hIn
    · refine h.imp_right fun hy => ⟨hy, fun z hz hzx => hIn (hzx ▸ hz)⟩

theorem contains_id_iff {s : OrderedSet (fun x : κ => x)} {x : κ} :
    s.contains x = true ↔ x ∈ s := by
  rw [contains_iff]
  exact ⟨fun ⟨y, hy, hSame⟩ => hSame ▸ hy, fun hx => ⟨x, hx, rfl⟩⟩

theorem mem_foldl_insert_id {xs : List κ} {s : OrderedSet (fun x : κ => x)} {y : κ} :
    y ∈ xs.foldl insert s ↔ y ∈ s ∨ y ∈ xs := by
  induction xs generalizing s with
  | nil => simp
  | cons x xs ih =>
    rw [foldl_cons, ih, mem_insert_id, mem_cons, or_assoc]

theorem ext_mem {s t : OrderedSet key} (h : ∀ x, x ∈ s ↔ x ∈ t) : s = t := by
  have hPerm : s.elems.Perm t.elems := (perm_ext_iff_of_nodup s.nodup_elems t.nodup_elems).mpr h
  refine ext_elems (hPerm.eq_of_pairwise ?_ s.ascending t.ascending)
  intro a b _ _ hab hba
  exact absurd hba hab.not_gt

end OrderedSet

end Fhgfs
