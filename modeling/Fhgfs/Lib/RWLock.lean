import Mathlib.Algebra.BigOperators.Group.Finset.Piecewise
import Mathlib.Algebra.Order.BigOperators.Group.Finset

/-!
# Shares of threads and reader-writer locks

What all threads hold together of some resource is the sum of their shares. A thread that goes
on changes its own share only (`allShares_update`).

A reader-writer lock knows its readers by number and whether it has a writer. `HeldBy` is its
agreement with the numbers of threads that hold it. The lock alone decides who may have it, so a
reader and a writer at once contradict `HeldBy`.
-/

namespace Fhgfs

open Finset Function

section Shares

variable {T σ : Type} [Fintype T] (share : σ → Nat)

def allShares (threads : T → σ) : Nat := ∑ t, share (threads t)

theorem share_le_allShares (threads : T → σ) (t : T) :
    share (threads t) ≤ allShares share threads :=
  single_le_sum (f := fun t => share (threads t)) (fun _ _ => Nat.zero_le _)
    (mem_univ t)

theorem allShares_eq_zero {threads : T → σ} (h : ∀ t, share (threads t) = 0) :
    allShares share threads = 0 :=
  sum_eq_zero fun t _ => h t

theorem allShares_update [DecidableEq T] (threads : T → σ) (t : T) (x : σ) :
    allShares share (update threads t x) + share (threads t) =
      allShares share threads + share x := by
  have hOthers : ∑ u ∈ univ.erase t, share (update threads t x u) =
      ∑ u ∈ univ.erase t, share (threads u) := by
    refine sum_congr rfl fun u hu => ?_
    rw [update_of_ne (ne_of_mem_erase hu)]
  have hNew := add_sum_erase univ (fun u => share (update threads t x u))
    (mem_univ t)
  have hOld := add_sum_erase univ (fun u => share (threads u)) (mem_univ t)
  simp only [hOthers, update_self] at hNew
  unfold allShares
  rw [← hNew, ← hOld]
  omega

variable {share} [DecidableEq T] {threads : T → σ} {t : T} {x : σ} {a : Nat}

theorem allShares_update_add (h : share x = share (threads t) + a) :
    allShares share (update threads t x) = allShares share threads + a := by
  have hTrade := allShares_update share threads t x
  omega

theorem allShares_update_sub (h : share (threads t) = share x + a) :
    allShares share threads = allShares share (update threads t x) + a := by
  have hTrade := allShares_update share threads t x
  omega

theorem allShares_update_eq (h : share x = share (threads t)) :
    allShares share (update threads t x) = allShares share threads := by
  have hTrade := allShares_update share threads t x
  omega

end Shares

structure RWLock where
  readers : Nat
  writer : Bool
deriving DecidableEq

namespace RWLock

def free : RWLock := ⟨0, false⟩

def mayRead (l : RWLock) : Bool := !l.writer

def mayWrite (l : RWLock) : Bool := !l.writer && decide (l.readers = 0)

def readLock (l : RWLock) : RWLock := { l with readers := l.readers + 1 }

def writeLock (l : RWLock) : RWLock := { l with writer := true }

def unlock (l : RWLock) : RWLock :=
  if l.writer then { l with writer := false } else { l with readers := l.readers - 1 }

/-- The lock agrees with its holders. -/
structure HeldBy (l : RWLock) (readers writers : Nat) : Prop where
  readers_eq : l.readers = readers
  writers_eq : writers = if l.writer then 1 else 0
  exclusive : l.writer = true → readers = 0

namespace HeldBy

variable {l : RWLock} {readers writers : Nat}

theorem free : HeldBy RWLock.free 0 0 := ⟨rfl, rfl, fun _ => rfl⟩

theorem eq_free (h : HeldBy l 0 0) : l = RWLock.free := by
  obtain ⟨hReaders, hWriters, -⟩ := h
  cases l with
  | mk r w =>
    cases w with
    | false => rw [RWLock.free, ← hReaders]
    | true => simp at hWriters

section

variable (h : HeldBy l readers writers)
include h

theorem not_both (hReader : 0 < readers) (hWriter : 0 < writers) : False := by
  cases hLock : l.writer with
  | true => exact hReader.ne' (h.exclusive hLock)
  | false =>
    have hNone := h.writers_eq
    rw [hLock] at hNone
    exact hWriter.ne' hNone

theorem readLock (hMay : l.mayRead = true) : HeldBy l.readLock (readers + 1) writers := by
  have hFree : l.writer = false := by simpa [mayRead] using hMay
  refine ⟨congrArg (· + 1) h.readers_eq, h.writers_eq, fun hWriter => ?_⟩
  exact nomatch hFree.symm.trans hWriter

theorem writeLock (hMay : l.mayWrite = true) : HeldBy l.writeLock readers (writers + 1) := by
  obtain ⟨hWriter, hReaders⟩ : l.writer = false ∧ l.readers = 0 := by
    simpa [mayWrite] using hMay
  have hNone := h.writers_eq
  rw [hWriter] at hNone
  refine ⟨h.readers_eq, ?_, fun _ => h.readers_eq.symm.trans hReaders⟩
  simp [RWLock.writeLock, hNone]

end

theorem unlockRead (h : HeldBy l (readers + 1) writers) : HeldBy l.unlock readers writers := by
  have hWriter : l.writer = false := by
    by_contra hHeld
    exact absurd (h.exclusive (by simpa using hHeld)) (Nat.succ_ne_zero _)
  unfold RWLock.unlock
  rw [if_neg (by simp [hWriter])]
  refine ⟨?_, h.writers_eq, fun hHeld => ?_⟩
  · simp [h.readers_eq]
  · exact nomatch hWriter.symm.trans hHeld

theorem unlockWrite (h : HeldBy l readers (writers + 1)) : HeldBy l.unlock readers writers := by
  have hWriter : l.writer = true := by
    by_contra hFree
    have hNone := h.writers_eq
    rw [if_neg hFree] at hNone
    exact absurd hNone (Nat.succ_ne_zero _)
  have hOne := h.writers_eq
  rw [if_pos hWriter] at hOne
  unfold RWLock.unlock
  rw [if_pos hWriter]
  exact ⟨h.readers_eq, by simpa using hOne, nofun⟩

end HeldBy

end RWLock

end Fhgfs
