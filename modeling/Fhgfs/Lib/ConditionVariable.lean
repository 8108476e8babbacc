import Mathlib.Data.Fintype.Basic
import Mathlib.Data.Finset.Card

/-!
# Condition variables

Threads under one mutex wait on conditions. A thread that sleeps has to be woken before it can go
on, and a signal wakes at least one sleeper of its condition.

* `Covered`: while a thread sleeps on a condition, there are at least `load` threads that this
  condition has woken, that have not run since, and that are in a class `P`.
* `Covered.signal`: a signal makes good for one more unit of load.
* `Covered.run`: a thread that runs and takes one unit of load leaves the rest covered.
* `Covered.sleep`: a thread may go to sleep when there is no load.
-/

namespace Fhgfs

open Finset

/-- Where a thread is with respect to the conditions `κ`. -/
inductive WaitState (κ : Type*)
  | running
  | asleep (cond : κ)
  | notified (cond : κ)
deriving DecidableEq

namespace WaitState

/-- What a signal makes of the threads that it wakes. -/
def wake {κ : Type*} : WaitState κ → WaitState κ
  | asleep cond => notified cond
  | s => s

end WaitState

namespace ConditionVariable

open WaitState Function

variable {ι κ : Type*} {s : ι → WaitState κ} {cond cond' : κ} {i : ι} {woken : Finset ι}

section Wake

variable [DecidableEq ι]

/-- The threads after those in `woken` have been woken. -/
def wakeThreads (woken : Finset ι) (s : ι → WaitState κ) : ι → WaitState κ := fun i =>
  if i ∈ woken then (s i).wake else s i

theorem wakeThreads_of_mem (hi : i ∈ woken) (hs : s i = asleep cond) :
    wakeThreads woken s i = notified cond := by
  rw [wakeThreads, if_pos hi, hs]
  rfl

theorem asleep_of_wakeThreads (h : wakeThreads woken s i = asleep cond) :
    s i = asleep cond ∧ i ∉ woken := by
  unfold wakeThreads at h
  split_ifs at h with hi
  · cases hs : s i <;> simp [hs, wake] at h
  · exact ⟨h, hi⟩

theorem notified_wakeThreads (h : s i = notified cond) : wakeThreads woken s i = notified cond := by
  unfold wakeThreads
  split_ifs
  · rw [h]
    rfl
  · exact h

theorem waits_of_wakeThreads
    (h : wakeThreads woken s i = asleep cond ∨ wakeThreads woken s i = notified cond) :
    s i = asleep cond ∨ s i = notified cond := by
  unfold wakeThreads at h
  split_ifs at h
  · cases hs : s i <;> simp_all [wake]
  · exact h

end Wake

variable [Fintype ι] [DecidableEq κ]

def sleepers (s : ι → WaitState κ) (cond : κ) : Finset ι :=
  Finset.univ.filter fun i => s i = asleep cond

def notifiedThreads (s : ι → WaitState κ) (cond : κ) : Finset ι :=
  Finset.univ.filter fun i => s i = notified cond

@[simp] theorem mem_sleepers : i ∈ sleepers s cond ↔ s i = asleep cond := by
  simp [sleepers]

@[simp] theorem mem_notifiedThreads : i ∈ notifiedThreads s cond ↔ s i = notified cond := by
  simp [notifiedThreads]

def SignalWakes (s : ι → WaitState κ) (cond : κ) (woken : Finset ι) : Prop :=
  woken ⊆ sleepers s cond ∧ ((sleepers s cond).Nonempty → woken.Nonempty)

instance [DecidableEq ι] (woken : Finset ι) : Decidable (SignalWakes s cond woken) :=
  inferInstanceAs (Decidable (_ ∧ _))

/-- As long as a thread sleeps on the condition, `load` is at most the number of the threads in
`P` that the condition has notified. -/
def Covered (s : ι → WaitState κ) (cond : κ) (P : ι → Prop) [DecidablePred P] (load : Nat) : Prop :=
  (sleepers s cond).Nonempty → load ≤ ((notifiedThreads s cond).filter P).card

variable {P P' : ι → Prop} [DecidablePred P] [DecidablePred P'] {load load' : Nat}

theorem covered_zero : Covered s cond P 0 := fun _ => Nat.zero_le _

theorem Covered.mono (h : Covered s cond P load) (hLe : load' ≤ load) : Covered s cond P load' :=
  fun hSleep => hLe.trans (h hSleep)

theorem Covered.exists_notified (h : Covered s cond P load) (hSleep : s i = asleep cond)
    (hLoad : 0 < load) : ∃ j, s j = notified cond ∧ P j := by
  have hCard := hLoad.trans_le (h ⟨i, mem_sleepers.mpr hSleep⟩)
  obtain ⟨j, hj⟩ := card_pos.mp hCard
  obtain ⟨hNotified, hP⟩ := mem_filter.mp hj
  exact ⟨j, mem_notifiedThreads.mp hNotified, hP⟩

variable [DecidableEq ι]

theorem Covered.wake (h : Covered s cond P load) (woken : Finset ι) :
    Covered (wakeThreads woken s) cond P load := by
  rintro ⟨i, hi⟩
  have hSleep := (asleep_of_wakeThreads (mem_sleepers.mp hi)).1
  refine (h ⟨i, mem_sleepers.mpr hSleep⟩).trans (card_le_card ?_)
  apply filter_subset_filter
  intro j hj
  exact mem_notifiedThreads.mpr (notified_wakeThreads (mem_notifiedThreads.mp hj))

theorem Covered.signal (h : Covered s cond P load) (hSignal : SignalWakes s cond woken)
    (hP : ∀ j, s j = asleep cond → P j) : Covered (wakeThreads woken s) cond P (load + 1) := by
  rintro ⟨i, hi⟩
  have hSleep := (asleep_of_wakeThreads (mem_sleepers.mp hi)).1
  have hSome : (sleepers s cond).Nonempty := ⟨i, mem_sleepers.mpr hSleep⟩
  obtain ⟨j, hj⟩ := hSignal.2 hSome
  have hj' := mem_sleepers.mp (hSignal.1 hj)
  have hNew : j ∉ (notifiedThreads s cond).filter P := by
    rw [mem_filter, mem_notifiedThreads, hj']
    simp
  have hSub : insert j ((notifiedThreads s cond).filter P) ⊆
      (notifiedThreads (wakeThreads woken s) cond).filter P := by
    intro l hl
    rw [mem_filter, mem_notifiedThreads]
    rcases mem_insert.mp hl with rfl | hl
    · exact ⟨wakeThreads_of_mem hj hj', hP _ hj'⟩
    · obtain ⟨hNotified, hPl⟩ := mem_filter.mp hl
      exact ⟨notified_wakeThreads (mem_notifiedThreads.mp hNotified), hPl⟩
  have hCard := card_le_card hSub
  rw [card_insert_of_notMem hNew] at hCard
  exact (Nat.succ_le_succ (h hSome)).trans hCard

theorem Covered.broadcast (hAll : sleepers s cond ⊆ woken) :
    Covered (wakeThreads woken s) cond P load := by
  rintro ⟨i, hi⟩
  obtain ⟨hSleep, hNot⟩ := asleep_of_wakeThreads (mem_sleepers.mp hi)
  exact absurd (hAll (mem_sleepers.mpr hSleep)) hNot

theorem Covered.run (h : Covered s cond P (load + 1)) (hP : ∀ j, j ≠ i → P j → P' j)
    (hi : ∀ c, s i ≠ asleep c) : Covered (update s i running) cond P' load := by
  rintro ⟨j, hj⟩
  have hNe : j ≠ i := by
    rintro rfl
    simp at hj
  rw [mem_sleepers, update_of_ne hNe] at hj
  have hSub : ((notifiedThreads s cond).filter P).erase i ⊆
      (notifiedThreads (update s i running) cond).filter P' := by
    intro l hl
    obtain ⟨hOther, hIn⟩ := mem_erase.mp hl
    obtain ⟨hNotified, hPl⟩ := mem_filter.mp hIn
    rw [mem_filter, mem_notifiedThreads, update_of_ne hOther]
    exact ⟨mem_notifiedThreads.mp hNotified, hP l hOther hPl⟩
  have hCard := (pred_card_le_card_erase (a := i)).trans (card_le_card hSub)
  have hLoad := h ⟨j, mem_sleepers.mpr hj⟩
  omega

theorem Covered.run_outside (h : Covered s cond P load) (hP : ∀ j, j ≠ i → P j → P' j)
    (hOut : s i = notified cond → ¬ P i) : Covered (update s i running) cond P' load := by
  rintro ⟨j, hj⟩
  have hNe : j ≠ i := by
    rintro rfl
    simp at hj
  rw [mem_sleepers, update_of_ne hNe] at hj
  refine (h ⟨j, mem_sleepers.mpr hj⟩).trans (card_le_card ?_)
  intro l hl
  obtain ⟨hNotified, hPl⟩ := mem_filter.mp hl
  have hOther : l ≠ i := by
    rintro rfl
    exact hOut (mem_notifiedThreads.mp hNotified) hPl
  rw [mem_filter, mem_notifiedThreads, update_of_ne hOther]
  exact ⟨mem_notifiedThreads.mp hNotified, hP l hOther hPl⟩

theorem Covered.sleep_other (h : Covered s cond P load) (hNe : cond' ≠ cond)
    (hi : s i ≠ notified cond) : Covered (update s i (asleep cond')) cond P load := by
  rintro ⟨j, hj⟩
  have hOther : j ≠ i := by
    rintro rfl
    simp [hNe] at hj
  rw [mem_sleepers, update_of_ne hOther] at hj
  refine (h ⟨j, mem_sleepers.mpr hj⟩).trans (card_le_card ?_)
  apply filter_subset_filter
  intro l hl
  have hl' := mem_notifiedThreads.mp hl
  have hKept : l ≠ i := by
    rintro rfl
    exact hi hl'
  rwa [mem_notifiedThreads, update_of_ne hKept]

end ConditionVariable

end Fhgfs
