import Mathlib.Algebra.Order.BigOperators.Group.Finset
import Mathlib.Tactic.Abel

/-!
# Loans

Things that are taken out one after the other and given back. A loan is known by the number of
its taking, and `none` is what is given back without having been taken. `Balanced` says which
loans are out, and that all others came back once.
-/

namespace Fhgfs

open List

/-- The number of loans so far, and what was given back. -/
structure Loans where
  taken : Nat
  returned : List (Option Nat)
deriving DecidableEq

namespace Loans

def empty : Loans := ⟨0, []⟩

def take (l : Loans) : Loans := { l with taken := l.taken + 1 }

def giveBack (l : Loans) (loan : Option Nat) : Loans := { l with returned := loan :: l.returned }

/-- All loans are either out or were given back, and nothing else was. -/
def Balanced (l : Loans) (out : List (Option Nat)) : Prop :=
  (l.returned ++ out).Perm ((List.range l.taken).map some)

variable {l : Loans} {out out' : List (Option Nat)}

theorem balanced_empty : empty.Balanced [] := List.Perm.refl []

theorem Balanced.perm (h : l.Balanced out) (hPerm : out.Perm out') : l.Balanced out' :=
  (hPerm.symm.append_left l.returned).trans h

theorem Balanced.take (h : l.Balanced out) : l.take.Balanced (some l.taken :: out) := by
  unfold Balanced Loans.take
  rw [range_succ, map_append, map_singleton]
  have hOut : (l.returned ++ some l.taken :: out).Perm (some l.taken :: (l.returned ++ out)) :=
    perm_middle
  have hAll : (some l.taken :: (l.returned ++ out)).Perm
      (some l.taken :: (range l.taken).map some) := h.cons _
  exact hOut.trans (hAll.trans (perm_append_singleton _ _).symm)

theorem Balanced.giveBack {loan : Option Nat} (h : l.Balanced (loan :: out)) :
    (l.giveBack loan).Balanced out :=
  perm_middle.symm.trans h

/-- Every loan was given back once, and nothing else was. -/
structure AllReturned (l : Loans) : Prop where
  once : ∀ loan, l.returned.count (some loan) = if loan < l.taken then 1 else 0
  loans : none ∉ l.returned

theorem Balanced.count_returned (h : l.Balanced []) (loan : Nat) :
    l.returned.count (some loan) = if loan < l.taken then 1 else 0 := by
  have hPerm : l.returned.Perm ((range l.taken).map some) := by
    have hAll := h
    unfold Balanced at hAll
    rwa [append_nil] at hAll
  have hNodup : ((range l.taken).map some).Nodup :=
    nodup_range.map fun _ _ => Option.some.inj
  rw [hPerm.count_eq, hNodup.count]
  simp

theorem Balanced.none_notMem_returned (h : l.Balanced out) : none ∉ l.returned := by
  intro hIn
  have hAll := h.subset (mem_append_left out hIn)
  simp at hAll

theorem Balanced.allReturned (h : l.Balanced []) : l.AllReturned :=
  ⟨h.count_returned, h.none_notMem_returned⟩

end Loans

end Fhgfs

/-!
## What threads hold

Each thread has a state, and `F` says what a thread in this state holds: a number, or a multiset
of things. `balance_update` is the rule for a step of one thread, and a total without duplicates
means that no thing has two holders.
-/

namespace Fhgfs.Holdings

open Function

variable {ι σ α : Type*} [Fintype ι] [DecidableEq ι]

theorem sum_update {M : Type*} [AddCommMonoid M] (F : σ → M) (s : ι → σ) (t : ι) (x : σ) :
    ∑ i, F (update s t x i) + F (s t) = ∑ i, F (s i) + F x := by
  have hMem := Finset.mem_univ t
  rw [← Finset.add_sum_erase _ _ hMem, ← Finset.add_sum_erase _ (fun i => F (s i)) hMem,
    update_self]
  have hOthers : ∑ i ∈ Finset.univ.erase t, F (update s t x i) =
      ∑ i ∈ Finset.univ.erase t, F (s i) := by
    apply Finset.sum_congr rfl
    intro i hi
    rw [update_of_ne (Finset.ne_of_mem_erase hi)]
  rw [hOthers, add_right_comm, add_comm (F x), add_right_comm]

theorem balance_update {M : Type*} [AddCancelCommMonoid M] (F : σ → M) {s : ι → σ} {t : ι} {x : σ}
    {a a' b b' : M} (h : a + ∑ i, F (s i) = b) (hChange : a' + F x + b = a + F (s t) + b') :
    a' + ∑ i, F (update s t x i) = b' := by
  have hSum := sum_update F s t x
  apply add_right_cancel (b := F (s t) + b)
  calc a' + ∑ i, F (update s t x i) + (F (s t) + b)
      = a' + (∑ i, F (update s t x i) + F (s t)) + b := by abel
    _ = (a' + F x + b) + ∑ i, F (s i) := by rw [hSum]; abel
    _ = (a + ∑ i, F (s i)) + (F (s t) + b') := by rw [hChange]; abel
    _ = b' + (F (s t) + b) := by rw [h]; abel

variable (held : ι → Multiset α) {i j : ι} {a : α}

omit [DecidableEq ι] in
theorem mem_sum (h : a ∈ held i) : a ∈ ∑ i, held i := Multiset.mem_sum.mpr ⟨i, Finset.mem_univ i, h⟩

omit [DecidableEq ι] in
theorem nodup_of_sum (h : (∑ i, held i).Nodup) (i : ι) : (held i).Nodup :=
  Multiset.nodup_of_le (Finset.single_le_sum (fun _ _ => Multiset.zero_le _) (Finset.mem_univ i)) h

theorem holder_unique (h : (∑ i, held i).Nodup) (hi : a ∈ held i) (hj : a ∈ held j) : i = j := by
  by_contra hNe
  have hSplit := Finset.add_sum_erase Finset.univ held (Finset.mem_univ i)
  rw [← hSplit] at h
  have hRest : a ∈ ∑ l ∈ Finset.univ.erase i, held l :=
    Multiset.mem_sum.mpr ⟨j, Finset.mem_erase.mpr ⟨Ne.symm hNe, Finset.mem_univ j⟩, hj⟩
  exact Multiset.disjoint_left.mp (Multiset.nodup_add.mp h).2.2 hi hRest

end Fhgfs.Holdings
