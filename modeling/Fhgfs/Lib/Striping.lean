import Mathlib.Data.List.MinMax
import Mathlib.Tactic.Ring

/-!
# Striping of a file over targets

A file is cut into chunks of `c` bytes which `n` targets hold in turn. This module has the
arithmetic of the places of the bytes, for any chunk size.

* `fileEnd_le_of_numChunks`: which of two targets ends later in the file.
* `fileSize_eq_of_lastMax`: the last target with the largest number of chunks determines the file
  size.
* `fileEnd_eq_sum`: its end is a sum over the chunks that all targets would have without holes.
* `address_injective`: no two bytes of the file have the same place on the same target.
-/

namespace Fhgfs.Striping

open List Option

/-- The place in the file of byte `p` of target `i`. -/
def filePos (c n i p : Nat) : Nat := p / c * c * n + i * c + p % c

/-- The end of the file as far as target `i` with `len` bytes knows it. -/
def fileEnd (c n i len : Nat) : Nat := if len = 0 then 0 else filePos c n i (len - 1) + 1

/-- The size of a file whose targets have `lens` bytes, holes included. -/
def fileSize (c : Nat) (lens : List Nat) : Nat :=
  (lens.mapIdx (fileEnd c lens.length)).foldr max 0

/-- The number of chunks of `len` bytes, with the incomplete one. -/
def numChunks (c len : Nat) : Nat := len / c + if len % c = 0 then 0 else 1

/-! ## Addresses -/

def targetIndex (c n p : Nat) : Nat := p / c % n

/-- The place of byte `p` of the file on its target. -/
def chunkPos (c n p : Nat) : Nat := p / (c * n) * c + p % c

section Addresses

variable {c n p p' : Nat}

theorem address_split (c n p : Nat) : p / (c * n) * c * n + targetIndex c n p * c + p % c = p := by
  have hChunk := Nat.div_add_mod p c
  have hSet := Nat.div_add_mod (p / c) n
  rw [Nat.div_div_eq_div_mul] at hSet
  calc p / (c * n) * c * n + targetIndex c n p * c + p % c
      = c * (n * (p / (c * n)) + p / c % n) + p % c := by
        unfold targetIndex
        ring
    _ = p := by rw [hSet, hChunk]

theorem filePos_chunkPos (hc : 0 < c) (n p : Nat) :
    filePos c n (targetIndex c n p) (chunkPos c n p) = p := by
  have hMod := Nat.mod_lt p hc
  have hDiv : chunkPos c n p / c = p / (c * n) := by
    unfold chunkPos
    rw [mul_comm, Nat.mul_add_div hc, Nat.div_eq_of_lt hMod, add_zero]
  have hRest : chunkPos c n p % c = p % c := by
    unfold chunkPos
    rw [mul_comm, Nat.mul_add_mod, Nat.mod_mod]
  unfold filePos
  rw [hDiv, hRest]
  exact address_split c n p

theorem address_injective (hc : 0 < c) (hIndex : targetIndex c n p = targetIndex c n p')
    (hPos : chunkPos c n p = chunkPos c n p') : p = p' := by
  rw [← filePos_chunkPos hc n p, hIndex, hPos, filePos_chunkPos hc]

theorem targetIndex_add (hc : 0 < c) {m : Nat} (h : p % c + m = c) :
    targetIndex c n (p + m) = (targetIndex c n p + 1) % n := by
  have hChunk := Nat.div_add_mod p c
  have hNext : (p + m) / c = p / c + 1 := by
    apply Nat.div_eq_of_lt_le
    · calc (p / c + 1) * c = c * (p / c) + c := by ring
        _ ≤ p + m := by omega
    · calc p + m < c * (p / c) + c + c := by omega
        _ = (p / c + 1 + 1) * c := by ring
  unfold targetIndex
  rw [hNext, Nat.mod_add_mod]

end Addresses

/-! ## Ends -/

section Ends

variable {c n i j len len' : Nat}

theorem numChunks_eq_zero : numChunks c len = 0 ↔ len = 0 := by
  unfold numChunks
  constructor
  · intro h
    split at h
    · next hMod =>
      have hSplit := Nat.div_add_mod len c
      have hDiv : len / c = 0 := by omega
      rw [hDiv, hMod] at hSplit
      exact hSplit.symm
    · exact absurd h (Nat.succ_ne_zero _)
  · intro h
    simp [h]

theorem exists_lastChunk (hc : 0 < c) (hLen : len ≠ 0) :
    ∃ r, 0 < r ∧ r ≤ c ∧ len = (numChunks c len - 1) * c + r ∧
      fileEnd c n i len = (numChunks c len - 1) * c * n + i * c + r := by
  have hSplit := Nat.div_add_mod (len - 1) c
  have hMod := Nat.mod_lt (len - 1) hc
  have hChunks : numChunks c len = (len - 1) / c + 1 := by
    unfold numChunks
    obtain ⟨m, rfl⟩ := Nat.exists_eq_succ_of_ne_zero hLen
    rw [Nat.succ_div, Nat.succ_sub_one]
    by_cases hDvd : c ∣ m + 1
    · rw [if_pos hDvd, if_pos (Nat.mod_eq_zero_of_dvd hDvd)]
    · rw [if_neg hDvd, if_neg (mt Nat.dvd_of_mod_eq_zero hDvd)]
  refine ⟨(len - 1) % c + 1, by omega, by omega, ?_, ?_⟩
  · rw [hChunks, Nat.add_sub_cancel, mul_comm]
    omega
  · rw [fileEnd, if_neg hLen, filePos, hChunks, Nat.add_sub_cancel]
    omega

theorem numChunks_le (hc : 0 < c) (len : Nat) : numChunks c len ≤ len := by
  by_cases hLen : len = 0
  · rw [numChunks_eq_zero.mpr hLen]
    exact Nat.zero_le _
  obtain ⟨r, hr, -, hLast, -⟩ := exists_lastChunk (n := 0) (i := 0) hc hLen
  have hMul : numChunks c len - 1 ≤ (numChunks c len - 1) * c := Nat.le_mul_of_pos_right _ hc
  omega

/-- A target that has fewer chunks than another one, or as many and comes before it, ends before
the other one does. -/
theorem fileEnd_le_of_numChunks (hc : 0 < c) (hi : i < n) (hLen' : len' ≠ 0)
    (h : numChunks c len < numChunks c len' ∨
      numChunks c len = numChunks c len' ∧ (i < j ∨ i = j ∧ len = len')) :
    fileEnd c n i len ≤ fileEnd c n j len' := by
  by_cases hLen : len = 0
  · rw [fileEnd, if_pos hLen]
    exact Nat.zero_le _
  obtain ⟨r, hr, hrc, -, hEnd⟩ := exists_lastChunk (n := n) (i := i) hc hLen
  obtain ⟨r', hr', -, -, hEnd'⟩ := exists_lastChunk (n := n) (i := j) hc hLen'
  rcases h with hLess | ⟨hSame, hBefore | ⟨rfl, rfl⟩⟩
  · -- the whole last round of the target comes before the last round of the other one
    have hPos : 0 < numChunks c len := by
      rwa [Nat.pos_iff_ne_zero, Ne, numChunks_eq_zero]
    have hRound : (numChunks c len - 1) * c * n + i * c + r ≤ numChunks c len * c * n := by
      have hChunk : i * c + r ≤ c * n := by
        calc i * c + r ≤ i * c + c := by omega
          _ = (i + 1) * c := by ring
          _ ≤ n * c := Nat.mul_le_mul_right c hi
          _ = c * n := mul_comm n c
      calc (numChunks c len - 1) * c * n + i * c + r
          ≤ (numChunks c len - 1) * c * n + c * n := by omega
        _ = (numChunks c len - 1 + 1) * c * n := by ring
        _ = numChunks c len * c * n := by rw [Nat.sub_add_cancel hPos]
    have hLater : numChunks c len * c * n ≤ (numChunks c len' - 1) * c * n :=
      Nat.mul_le_mul_right n (Nat.mul_le_mul_right c (by omega))
    omega
  · have hChunk : i * c + c ≤ j * c := by
      calc i * c + c = (i + 1) * c := by ring
        _ ≤ j * c := Nat.mul_le_mul_right c hBefore
    rw [hEnd, hEnd', hSame]
    omega
  · exact le_rfl

/-- The end of a target, from the number of its chunks alone: the targets before it have as many,
and those after it one less. -/
theorem fileEnd_eq_sum (hc : 0 < c) (hi : i < n) (hLen : len ≠ 0) :
    fileEnd c n i len =
      i * numChunks c len * c + (n - i - 1) * (numChunks c len - 1) * c + len := by
  obtain ⟨r, hr, -, hLast, hEnd⟩ := exists_lastChunk (n := n) (i := i) hc hLen
  obtain ⟨m, hm⟩ : ∃ m, numChunks c len = m + 1 := by
    refine Nat.exists_eq_succ_of_ne_zero ?_
    rwa [Ne, numChunks_eq_zero]
  obtain ⟨d, rfl⟩ : ∃ d, n = i + 1 + d := ⟨n - (i + 1), by omega⟩
  rw [hm, Nat.add_sub_cancel] at hLast hEnd
  rw [hEnd, hm, Nat.add_sub_cancel, show i + 1 + d - i - 1 = d by omega]
  calc m * c * (i + 1 + d) + i * c + r
      = i * (m + 1) * c + d * m * c + (m * c + r) := by ring
    _ = i * (m + 1) * c + d * m * c + len := by rw [← hLast]

end Ends

/-! ## The file size -/

section FileSize

variable {c : Nat} {lens : List Nat}

theorem fileSize_eq_fileEnd {j len : Nat} (hj : lens[j]? = some len)
    (hLast : ∀ (i x : Nat), lens[i]? = some x →
      fileEnd c lens.length i x ≤ fileEnd c lens.length j len) :
    fileSize c lens = fileEnd c lens.length j len := by
  apply le_antisymm
  · refine max_le_of_forall_le _ _ fun y hy => ?_
    obtain ⟨i, hi⟩ := getElem?_of_mem hy
    rw [getElem?_mapIdx, map_eq_some_iff] at hi
    obtain ⟨x, hx, rfl⟩ := hi
    exact hLast i x hx
  · refine le_max_of_le (mem_of_getElem? (i := j) ?_) le_rfl
    rw [getElem?_mapIdx, hj]
    rfl

theorem fileSize_eq_zero (h : ∀ len ∈ lens, len = 0) : fileSize c lens = 0 := by
  apply Nat.le_zero.mp
  refine max_le_of_forall_le _ _ fun y hy => ?_
  obtain ⟨i, hi⟩ := getElem?_of_mem hy
  rw [getElem?_mapIdx, map_eq_some_iff] at hi
  obtain ⟨x, hx, rfl⟩ := hi
  rw [fileEnd, if_pos (h x (mem_of_getElem? hx))]

theorem fileSize_eq_of_lastMax {j len : Nat} (hc : 0 < c) (hj : lens[j]? = some len)
    (hLen : len ≠ 0)
    (hMax : ∀ (i x : Nat), lens[i]? = some x → numChunks c x ≤ numChunks c len)
    (hLast : ∀ (i x : Nat), lens[i]? = some x → j < i → numChunks c x < numChunks c len) :
    fileSize c lens = fileEnd c lens.length j len := by
  apply fileSize_eq_fileEnd hj
  intro i x hx
  apply fileEnd_le_of_numChunks hc (List.getElem?_eq_some_iff.mp hx).1 hLen
  rcases Nat.lt_trichotomy i j with hBefore | rfl | hAfter
  · rcases Nat.lt_or_eq_of_le (hMax i x hx) with hLess | hSame
    · exact Or.inl hLess
    · exact Or.inr ⟨hSame, Or.inl hBefore⟩
  · obtain rfl : x = len := some.inj (hx.symm.trans hj)
    exact Or.inr ⟨rfl, Or.inr ⟨rfl, rfl⟩⟩
  · exact Or.inl (hLast i x hx hAfter)

end FileSize

end Fhgfs.Striping
