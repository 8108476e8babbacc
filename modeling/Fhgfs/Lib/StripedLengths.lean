import Fhgfs.Lib.Striping
import Mathlib.Algebra.BigOperators.Group.Finset.Piecewise
import Mathlib.Data.Nat.Count

/-!
# The lengths of the targets of a full file

A file without holes and incomplete chunks has each of its bytes on the target whose turn it is.

* `targetLength_eq`: the bytes of a target, by a division.
* `sum_targetLength`: all targets together have the bytes of the file.
* `fileSize_targetLengths`: the lengths determine the size of the file.
-/

namespace Fhgfs.Striping

def targetLength (c n size i : Nat) : Nat := Nat.count (fun p => targetIndex c n p = i) size

variable {c n i size p : Nat}

theorem targetLength_succ (c n size i : Nat) :
    targetLength c n (size + 1) i =
      targetLength c n size i + if targetIndex c n size = i then 1 else 0 :=
  Nat.count_succ _ _

theorem targetIndex_eq_iff (hc : 0 < c) :
    targetIndex c n p = i ↔ i * c ≤ p % (c * n) ∧ p % (c * n) < i * c + c := by
  have hSplit := address_split c n p
  have hSet := Nat.div_add_mod p (c * n)
  have hMod := Nat.mod_lt p hc
  have hPlace : targetIndex c n p * c + p % c = p % (c * n) := by
    have hComm : p / (c * n) * c * n = c * n * (p / (c * n)) := by ring
    omega
  constructor
  · rintro rfl
    omega
  · rintro ⟨hLow, hHigh⟩
    have hLt : i * c < (targetIndex c n p + 1) * c := by
      rw [add_mul]
      omega
    have hGt : targetIndex c n p * c < (i + 1) * c := by
      rw [add_mul]
      omega
    have hLe := Nat.lt_of_mul_lt_mul_right hLt
    have hGe := Nat.lt_of_mul_lt_mul_right hGt
    omega

/-- The complete stripe sets have a chunk of the target each, and the rest has what lies behind
the chunks of the targets before. -/
theorem targetLength_eq (hc : 0 < c) (hi : i < n) :
    targetLength c n size i = size / (c * n) * c + min (size % (c * n) - i * c) c := by
  have hSet : 0 < c * n := Nat.mul_pos hc (Nat.zero_lt_of_lt hi)
  have hChunk : i * c + c ≤ c * n := by
    calc i * c + c = (i + 1) * c := by ring
      _ ≤ n * c := Nat.mul_le_mul_right c hi
      _ = c * n := mul_comm n c
  induction size with
  | zero => simp [targetLength]
  | succ m ih =>
    have hRest := Nat.mod_lt m hSet
    have hTurn := @targetIndex_eq_iff c n i m hc
    rw [targetLength_succ, ih]
    by_cases hLast : m % (c * n) + 1 = c * n
    · -- the byte is the last one of its stripe set
      have hDiv : (m + 1) / (c * n) = m / (c * n) + 1 := by
        rw [Nat.succ_div, if_pos]
        apply Nat.dvd_of_mod_eq_zero
        rw [Nat.add_mod_eq_add_mod_right 1 (Nat.mod_mod m _).symm, hLast, Nat.mod_self]
      have hMod : (m + 1) % (c * n) = 0 := by
        rw [Nat.add_mod_eq_add_mod_right 1 (Nat.mod_mod m _).symm, hLast, Nat.mod_self]
      rw [hDiv, hMod, add_mul]
      split_ifs with hHere
      · have hPlace := hTurn.mp hHere
        omega
      · have hPlace := mt hTurn.mpr hHere
        omega
    · have hMod : (m + 1) % (c * n) = m % (c * n) + 1 := by
        rw [Nat.add_mod_eq_add_mod_right 1 (Nat.mod_mod m _).symm, Nat.mod_eq_of_lt (by omega)]
      have hDiv : (m + 1) / (c * n) = m / (c * n) := by
        rw [Nat.succ_div, if_neg, add_zero]
        intro hDvd
        omega
      rw [hDiv, hMod]
      split_ifs with hHere
      · have hPlace := hTurn.mp hHere
        omega
      · have hPlace := mt hTurn.mpr hHere
        omega

theorem sum_targetLength (hn : 0 < n) (c size : Nat) :
    ((List.range n).map (targetLength c n size)).sum = size := by
  show ∑ i ∈ Finset.range n, targetLength c n size i = size
  induction size with
  | zero => simp [targetLength]
  | succ m ih =>
    have hTurn : targetIndex c n m ∈ Finset.range n := Finset.mem_range.mpr (Nat.mod_lt _ hn)
    simp only [targetLength_succ, Finset.sum_add_distrib, ih, Finset.sum_ite_eq, if_pos hTurn]

/-! ## The last bytes -/

theorem targetLength_targetIndex (hc : 0 < c) (hn : 0 < n) (p : Nat) :
    targetLength c n p (targetIndex c n p) = chunkPos c n p := by
  have hSplit := address_split c n p
  have hSet := Nat.div_add_mod p (c * n)
  have hMod := Nat.mod_lt p hc
  have hComm : p / (c * n) * c * n = c * n * (p / (c * n)) := by ring
  have hTurn : targetIndex c n p < n := Nat.mod_lt _ hn
  rw [targetLength_eq hc hTurn, chunkPos]
  omega

theorem exists_lastByte (h : targetLength c n size i ≠ 0) :
    ∃ p < size, targetIndex c n p = i ∧ targetLength c n size i = targetLength c n p i + 1 := by
  induction size with
  | zero => exact absurd (Nat.count_zero _) h
  | succ m ih =>
    rw [targetLength_succ] at h ⊢
    split_ifs at h ⊢ with hHere
    · exact ⟨m, Nat.lt_succ_self m, hHere, rfl⟩
    · obtain ⟨p, hp, hTurn, hCount⟩ := ih h
      exact ⟨p, Nat.lt_succ_of_lt hp, hTurn, hCount⟩

section

variable (hc : 0 < c) (hn : 0 < n)
include hc hn

theorem fileEnd_of_lastByte (p : Nat) :
    fileEnd c n (targetIndex c n p) (targetLength c n p (targetIndex c n p) + 1) = p + 1 := by
  rw [fileEnd, if_neg (Nat.succ_ne_zero _), Nat.add_sub_cancel, targetLength_targetIndex hc hn,
    filePos_chunkPos hc]

theorem fileEnd_targetLength_le (size i : Nat) :
    fileEnd c n i (targetLength c n size i) ≤ size := by
  by_cases hEmpty : targetLength c n size i = 0
  · rw [fileEnd, if_pos hEmpty]
    exact Nat.zero_le _
  · obtain ⟨p, hp, rfl, hCount⟩ := exists_lastByte hEmpty
    rwa [hCount, fileEnd_of_lastByte hc hn]

theorem fileSize_targetLengths (size : Nat) :
    fileSize c ((List.range n).map (targetLength c n size)) = size := by
  cases size with
  | zero =>
    apply fileSize_eq_zero
    intro len hLen
    obtain ⟨i, -, rfl⟩ := List.mem_map.mp hLen
    exact Nat.count_zero _
  | succ m =>
    have hTurn : targetIndex c n m < n := Nat.mod_lt _ hn
    have hLength : targetLength c n (m + 1) (targetIndex c n m) =
        targetLength c n m (targetIndex c n m) + 1 := by
      rw [targetLength_succ, if_pos rfl]
    have hEnd : fileEnd c n (targetIndex c n m) (targetLength c n (m + 1) (targetIndex c n m)) =
        m + 1 := by
      rw [hLength, fileEnd_of_lastByte hc hn]
    have hTargets : ((List.range n).map (targetLength c n (m + 1))).length = n := by
      rw [List.length_map, List.length_range]
    have hAt : ((List.range n).map (targetLength c n (m + 1)))[targetIndex c n m]? =
        some (targetLength c n (m + 1) (targetIndex c n m)) := by
      rw [List.getElem?_map, List.getElem?_range hTurn]
      rfl
    rw [fileSize_eq_fileEnd hAt, hTargets, hEnd]
    intro i len hLen
    rw [List.getElem?_map, Option.map_eq_some_iff] at hLen
    obtain ⟨i', hi', rfl⟩ := hLen
    obtain ⟨hLt, rfl⟩ := List.getElem?_eq_some_iff.mp hi'
    rw [List.getElem_range, hTargets, hEnd]
    exact fileEnd_targetLength_le hc hn _ _

end

end Fhgfs.Striping
