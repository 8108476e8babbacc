import Mathlib.Data.List.GetD
import Mathlib.Data.UInt

/-!
# Files with holes

The content of a file, as the bytes below its end. A write behind the end and a truncation
to a larger size leave a hole, which reads as zeros. `at` reads zeros behind the end as well, so
that a file is its length and its bytes at all positions.
-/

namespace Fhgfs

open List

abbrev SparseFile (α : Type) := List α

namespace SparseFile

variable {α : Type} [Zero α]

def byteAt (f : SparseFile α) (pos : Nat) : α := f.getD pos 0

/-- The file up to a position, with a hole if it is shorter. -/
def ftruncate (f : SparseFile α) (length : Nat) : SparseFile α :=
  f.take length ++ List.replicate (length - f.length) 0

/-- A write of nothing leaves the end of the file alone. -/
def pwrite (f : SparseFile α) (data : List α) (offset : Nat) : SparseFile α :=
  match data with
  | [] => f
  | _ :: _ => f.ftruncate offset ++ data ++ f.drop (offset + data.length)

def pread (f : SparseFile α) (count offset : Nat) : List α := (f.drop offset).take count

section Lemmas

variable (f : SparseFile α) (data : List α) (offset pos : Nat)

theorem byteAt_of_length_le {f : SparseFile α} {pos : Nat} (h : f.length ≤ pos) :
    f.byteAt pos = 0 :=
  getD_eq_default _ _ h

theorem ext_byteAt {f g : SparseFile α} (hLength : f.length = g.length)
    (hBytes : ∀ pos, f.byteAt pos = g.byteAt pos) : f = g := by
  refine ext_getElem hLength fun pos hf hg => ?_
  have hHere := hBytes pos
  unfold byteAt at hHere
  rwa [getD_eq_getElem _ _ hf, getD_eq_getElem _ _ hg] at hHere

@[simp] theorem length_ftruncate (length : Nat) : (f.ftruncate length).length = length := by
  unfold ftruncate
  rw [length_append, length_take, length_replicate]
  omega

theorem byteAt_ftruncate (length : Nat) :
    (f.ftruncate length).byteAt pos = if pos < length then f.byteAt pos else 0 := by
  unfold ftruncate byteAt
  simp only [getD_eq_getElem?_getD, getElem?_append, length_take, getElem?_take, getElem?_replicate]
  split_ifs with hTake hPos hShort
  · rfl
  · omega
  · rw [getElem?_eq_none (by omega)]
    rfl
  · omega
  · omega
  · rfl

@[simp] theorem ftruncate_length : f.ftruncate f.length = f := by
  unfold ftruncate
  rw [take_length, Nat.sub_self, replicate_zero, append_nil]

theorem length_pwrite (hData : data ≠ []) :
    (f.pwrite data offset).length = max f.length (offset + data.length) := by
  cases data with
  | nil => exact absurd rfl hData
  | cons byte data =>
    unfold pwrite
    rw [length_append, length_append, length_ftruncate, length_drop]
    omega

theorem length_pwrite_length : (f.pwrite data f.length).length = f.length + data.length := by
  by_cases hData : data = []
  · subst hData
    rfl
  · rw [length_pwrite f data f.length hData]
    omega

theorem byteAt_pwrite :
    (f.pwrite data offset).byteAt pos =
      if offset ≤ pos ∧ pos < offset + data.length then data.getD (pos - offset) 0
      else f.byteAt pos := by
  cases data with
  | nil =>
    rw [if_neg (by simp)]
    rfl
  | cons byte data =>
    have hParts : (SparseFile.pwrite f (byte :: data) offset).byteAt pos =
        if pos < offset then (f.ftruncate offset).byteAt pos
        else if pos < offset + (byte :: data).length then (byte :: data).getD (pos - offset) 0
        else f.byteAt pos := by
      unfold pwrite byteAt
      simp only [getD_eq_getElem?_getD, append_assoc, getElem?_append,
        length_ftruncate, getElem?_drop]
      split_ifs with hBefore hIn
      · rfl
      · rfl
      · omega
      · omega
      · congr 2
        omega
    rw [hParts]
    split_ifs with hBefore hIn hIn
    · omega
    · rw [byteAt_ftruncate, if_pos hBefore]
    · rfl
    · omega
    · omega
    · rfl

omit [Zero α] in
theorem length_pread (count : Nat) :
    (f.pread count offset).length = min count (f.length - offset) := by
  unfold pread
  rw [length_take, length_drop]

omit [Zero α] in
theorem length_pread_le (count : Nat) : (f.pread count offset).length ≤ count := by
  rw [length_pread]
  exact min_le_left _ _

omit [Zero α] in
theorem pread_add (count count' : Nat) :
    f.pread (count + count') offset = f.pread count offset ++ f.pread count' (offset + count) := by
  unfold pread
  rw [take_add, drop_drop]

omit [Zero α] in
theorem pread_of_short {f : SparseFile α} {offset count : Nat} (more : Nat)
    (h : (f.pread count offset).length ≠ count) :
    f.pread (count + more) offset = f.pread count offset := by
  rw [length_pread] at h
  unfold pread
  rw [take_of_length_le, take_of_length_le] <;> rw [length_drop] <;> omega

theorem getD_pread (count : Nat) :
    (f.pread count offset).getD pos 0 = if pos < count then f.byteAt (offset + pos) else 0 := by
  unfold pread byteAt
  simp only [getD_eq_getElem?_getD, getElem?_take, getElem?_drop]
  split_ifs <;> rfl

omit [Zero α] in
theorem take_drop_pread {count skip more : Nat} (h : skip + more ≤ count) :
    ((f.pread count offset).drop skip).take more = f.pread more (offset + skip) := by
  unfold pread
  rw [drop_take, drop_drop, take_take, min_eq_left (by omega)]

@[simp] theorem pwrite_nil : f.pwrite [] offset = f := rfl

theorem pwrite_pwrite_within {data' : List α} {offset' : Nat} (hBegin : offset ≤ offset')
    (hEnd : offset' + data'.length ≤ offset + data.length) :
    (f.pwrite data' offset').pwrite data offset = f.pwrite data offset := by
  by_cases hNone : data' = []
  · rw [hNone, pwrite_nil]
  have hLength := length_pos_iff.mpr hNone
  have hSome : data ≠ [] := by
    rintro rfl
    rw [length_nil] at hEnd
    omega
  apply ext_byteAt
  · rw [length_pwrite _ _ _ hSome, length_pwrite _ _ _ hSome, length_pwrite _ _ _ hNone]
    omega
  · intro pos
    rw [byteAt_pwrite, byteAt_pwrite, byteAt_pwrite]
    split_ifs <;> first | rfl | omega

theorem pwrite_pwrite_next (more : List α) :
    (f.pwrite data offset).pwrite more (offset + data.length) = f.pwrite (data ++ more) offset := by
  by_cases hData : data = []
  · rw [hData, pwrite_nil, nil_append, length_nil, add_zero]
  by_cases hMore : more = []
  · rw [hMore, pwrite_nil, append_nil]
  have hBoth : data ++ more ≠ [] := append_ne_nil_of_left_ne_nil hData _
  apply ext_byteAt
  · rw [length_pwrite _ _ _ hMore, length_pwrite _ _ _ hData, length_pwrite _ _ _ hBoth,
      length_append]
    omega
  · intro pos
    rw [byteAt_pwrite, byteAt_pwrite, byteAt_pwrite, length_append]
    simp only [getD_eq_getElem?_getD, getElem?_append]
    split_ifs <;> first | rfl | omega | (congr 2; omega)

end Lemmas

/-! ## Parts of a write -/

section Parts

def pwriteSome (stored : Nat → Bool) : SparseFile α → List α → Nat → SparseFile α
  | f, [], _ => f
  | f, byte :: data, offset =>
    pwriteSome (fun k => stored (k + 1)) (if stored 0 then f.pwrite [byte] offset else f) data
      (offset + 1)

theorem pwriteSome_none {stored : Nat → Bool} {data : List α}
    (h : ∀ k < data.length, stored k = false) (f : SparseFile α) (offset : Nat) :
    pwriteSome stored f data offset = f := by
  induction data generalizing stored f offset with
  | nil => rfl
  | cons byte data ih =>
    unfold pwriteSome
    rw [h 0 (Nat.succ_pos _), if_neg Bool.false_ne_true]
    exact ih (fun k hk => h (k + 1) (Nat.succ_lt_succ hk)) f (offset + 1)

section

variable (stored : Nat → Bool) (f : SparseFile α)

theorem pwrite_pwriteSome_within {part data : List α}
    {offset' offset : Nat} (hBegin : offset ≤ offset')
    (hEnd : offset' + part.length ≤ offset + data.length) :
    (pwriteSome stored f part offset').pwrite data offset = f.pwrite data offset := by
  induction part generalizing stored f offset' with
  | nil => rfl
  | cons byte part ih =>
    rw [length_cons] at hEnd
    unfold pwriteSome
    rw [ih _ _ (by omega) (by omega)]
    split
    · apply pwrite_pwrite_within _ _ _ hBegin
      rw [length_singleton]
      omega
    · rfl

end

end Parts

/-! ## Writes in a row -/

/-- The file has got the data at an offset, and is as before below it. -/
structure WrittenAt (f g : SparseFile α) (offset : Nat) (data : List α) : Prop where
  bytes : ∀ i < data.length, g.byteAt (offset + i) = data.getD i 0
  below : ∀ pos < offset, g.byteAt pos = f.byteAt pos
  grows : f.length ≤ g.length
  length : data ≠ [] → offset + data.length ≤ g.length

namespace WrittenAt

variable {f g k : SparseFile α} {offset : Nat} {data more : List α}

theorem nil (f : SparseFile α) (offset : Nat) : WrittenAt f f offset [] :=
  ⟨nofun, fun _ _ => rfl, le_rfl, (absurd rfl ·)⟩

theorem pwrite (f : SparseFile α) (data : List α) (offset : Nat) :
    WrittenAt f (f.pwrite data offset) offset data where
  bytes i hi := by
    rw [byteAt_pwrite, if_pos (by omega), Nat.add_sub_cancel_left]
  below pos hPos := by
    rw [byteAt_pwrite, if_neg (by omega)]
  grows := by
    by_cases hData : data = []
    · exact hData ▸ le_rfl
    · rw [length_pwrite f data offset hData]
      omega
  length hData := by
    rw [length_pwrite f data offset hData]
    omega

theorem append (h : WrittenAt f g offset data) (h' : WrittenAt g k (offset + data.length) more) :
    WrittenAt f k offset (data ++ more) where
  bytes i hi := by
    rw [length_append] at hi
    by_cases hFirst : i < data.length
    · rw [getD_append _ _ _ _ hFirst, h'.below _ (by omega), h.bytes i hFirst]
    · have hNext := h'.bytes (i - data.length) (by omega)
      rw [getD_append_right _ _ _ _ (by omega), ← hNext]
      congr 1
      omega
  below pos hPos := by
    rw [h'.below pos (by omega), h.below pos hPos]
  grows := le_trans h.grows h'.grows
  length hBoth := by
    have hGrows := h'.grows
    rw [length_append]
    by_cases hMore : more = []
    · subst hMore
      have hData : data ≠ [] := by simpa using hBoth
      have hEnd := h.length hData
      rw [length_nil]
      omega
    · have hEnd := h'.length hMore
      omega

end WrittenAt

end SparseFile

end Fhgfs
