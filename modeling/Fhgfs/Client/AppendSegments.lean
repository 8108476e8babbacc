import Fhgfs.Client.CacheView

/-!
# Appends of several segments

`appendfileVecOffset` writes the segments one by one, and returns what it wrote of the last one.
An error and a result below the length are results of a remote write, which has then stored
nothing of the segment or as many of its first bytes as the result says.

* `appendfileVecOffset_reportsPrefix_iff`: when the result tells which bytes were appended.
-/

namespace Fhgfs.Client

open List

/-- The result of the remote write of a segment. -/
inductive SegmentWrite
  | stored (amount : Nat)
  | failed (err : Nat)
deriving DecidableEq

abbrev Segment := List UInt8 × SegmentWrite

structure AppendResult where
  writeRes : Int
  outNewOffset : Option Nat
  needsAppendLockCleanup : Bool
  file : SparseFile UInt8

namespace Segment

/-- The bytes of a segment that are in the file. -/
def appended : Segment → List UInt8
  | (data, .stored amount) => data.take amount
  | (_, .failed _) => []

def Fails : Segment → Prop
  | (_, .stored _) => False
  | (_, .failed _) => True

end Segment

/-- The loop over the segments. -/
def writeSegments : List Segment → Int → Nat → SparseFile UInt8 → Int × Nat × SparseFile UInt8
  | [], writeRes, size, file => (writeRes, size, file)
  | (data, .stored amount) :: rest, _, size, file =>
    writeSegments rest (data.take amount).length (size + (data.take amount).length)
      (file.pwrite (data.take amount) size)
  | (_, .failed err) :: _, _, size, file => (Int.negSucc err, size, file)

/-- The segments come with the results of their writes. A result is 0 or an error code. -/
def appendfileVecOffset (file : SparseFile UInt8) (segments : List Segment)
    (offsetFromEnd lockRes statRes unlockRes : Nat) : AppendResult :=
  if lockRes ≠ 0 then ⟨-lockRes, none, true, file⟩
  else if statRes ≠ 0 then ⟨-statRes, none, decide (unlockRes ≠ 0), file⟩
  else
    let written := writeSegments segments 0 (file.length + offsetFromEnd) file
    ⟨written.1, some written.2.1, decide (unlockRes ≠ 0), written.2.2⟩

/-! ## The appended prefix -/

/-- How many of the first bytes of all segments lie in each segment. -/
def firstBytes : Nat → List Nat → List Nat
  | _, [] => []
  | n, len :: lens => min len n :: firstBytes (n - len) lens

/-- The result is the number of bytes of the segments that were appended: the first ones, one
behind the other, up to the new offset. -/
def AppendResult.ReportsPrefix (r : AppendResult) (file : SparseFile UInt8)
    (segments : List Segment) (offset : Nat) : Prop :=
  ∃ n : Nat, r.writeRes = n ∧ r.outNewOffset = some (offset + n) ∧
    segments.map (·.appended.length) = firstBytes n (segments.map (·.1.length)) ∧
    r.file = file.pwrite ((segments.flatMap (·.1)).take n) offset

/-- Nothing was written before the last segment. If that one was written, it is the first one
that is not empty. -/
def OnlyLastWritten (segments : List Segment) : Prop :=
  ∀ init last, segments = init ++ [last] →
    (∀ p ∈ init, p.appended = []) ∧ (last.appended ≠ [] → ∀ p ∈ init, p.1 = [])

theorem firstBytes_concat {n len : Nat} (lens : List Nat) :
    replicate lens.length 0 ++ [n] = firstBytes n (lens ++ [len]) ↔
      n ≤ len ∧ (n = 0 ∨ ∀ x ∈ lens, x = 0) := by
  induction lens generalizing n with
  | nil =>
    show [n] = [min len n] ↔ _
    simp only [cons.injEq, and_true, not_mem_nil, false_implies, implies_true, or_true]
    omega
  | cons x lens ih =>
    rw [length_cons, replicate_succ, cons_append, cons_append, firstBytes,
      cons.injEq, forall_mem_cons]
    by_cases hNone : n = 0
    · rw [hNone, Nat.zero_sub, ih, Nat.min_zero]
      simp only [true_and, true_or]
    have hFirst : 0 = min x n ↔ x = 0 := by omega
    rw [hFirst, or_iff_right hNone]
    constructor
    · rintro ⟨rfl, hRest⟩
      rw [Nat.sub_zero, ih, or_iff_right hNone] at hRest
      exact ⟨hRest.1, rfl, hRest.2⟩
    · rintro ⟨hLen, rfl, hZero⟩
      refine ⟨rfl, ?_⟩
      rw [Nat.sub_zero, ih]
      exact ⟨hLen, .inr hZero⟩

namespace Segment

theorem appended_eq_take (p : Segment) : p.appended = p.1.take p.appended.length := by
  obtain ⟨data, amount | err⟩ := p
  · rw [appended, length_take, ← take_eq_take_min]
  · rfl

theorem length_appended_le (p : Segment) : p.appended.length ≤ p.1.length := by
  rw [appended_eq_take]
  exact length_take_le' _ _

end Segment

section

variable {segments : List Segment}

theorem writeSegments_stored (h : ∀ p ∈ segments, ¬ p.Fails)
    (writeRes : Int) (size : Nat) (file : SparseFile UInt8) :
    writeSegments segments writeRes size file =
      ((segments.getLast?.map fun p => (p.appended.length : Int)).getD writeRes,
        size + (segments.flatMap (·.appended)).length,
        file.pwrite (segments.flatMap (·.appended)) size) := by
  induction segments generalizing writeRes size file with
  | nil => rfl
  | cons p rest ih =>
    obtain ⟨hHead, hRest⟩ := forall_mem_cons.mp h
    obtain ⟨data, amount | err⟩ := p
    · rw [writeSegments, ih hRest, SparseFile.pwrite_pwrite_next, flatMap_cons,
        length_append, add_assoc, getLast?_cons]
      cases rest.getLast? <;> rfl
    · exact absurd trivial hHead

theorem writeSegments_failed (h : ∃ p ∈ segments, p.Fails)
    (writeRes : Int) (size : Nat) (file : SparseFile UInt8) :
    (writeSegments segments writeRes size file).1 < 0 := by
  induction segments generalizing writeRes size file with
  | nil => exact absurd h.choose_spec.1 not_mem_nil
  | cons p rest ih =>
    obtain ⟨data, amount | err⟩ := p
    · rw [writeSegments]
      exact ih ((exists_mem_cons_iff _ _ _).mp h |>.resolve_left id) _ _ _
    · exact Int.negSucc_lt_zero err

theorem reportsPrefix_stored_iff (h : ∀ p ∈ segments, ¬ p.Fails)
    (offset : Nat) (cleanup : Bool) (file : SparseFile UInt8) :
    let written := writeSegments segments 0 offset file
    AppendResult.ReportsPrefix ⟨written.1, some written.2.1, cleanup, written.2.2⟩ file segments
      offset ↔ OnlyLastWritten segments := by
  rw [writeSegments_stored h]
  rcases eq_nil_or_concat' segments with rfl | ⟨init, last, rfl⟩
  · exact iff_of_true ⟨0, rfl, rfl, rfl, rfl⟩ fun init last hEq => by simp at hEq
  have hOnly : OnlyLastWritten (init ++ [last]) ↔
      (∀ p ∈ init, p.appended = []) ∧ (last.appended ≠ [] → ∀ p ∈ init, p.1 = []) := by
    constructor
    · exact fun hLast => hLast init last rfl
    · rintro hLast init' last' hEq
      obtain ⟨rfl, hSame⟩ := append_inj' hEq rfl
      obtain rfl := singleton_inj.mp hSame
      exact hLast
  rw [hOnly]
  simp only [AppendResult.ReportsPrefix, getLast?_concat, Option.map_some, Option.getD_some,
    flatMap_append, flatMap_singleton, length_append, map_append,
    map_singleton, Option.some.injEq, Int.natCast_inj, exists_eq_left', Nat.add_left_cancel_iff]
  have hAmounts (hNone : ∀ p ∈ init, p.appended = []) : init.map (·.appended.length) ++
      [last.appended.length] = firstBytes last.appended.length
        (init.map (·.1.length) ++ [last.1.length]) ↔
      (last.appended ≠ [] → ∀ p ∈ init, p.1 = []) := by
    have hZero : init.map (·.appended.length) = replicate (init.map (·.1.length)).length 0 := by
      rw [length_map, map_congr_left fun p hp => congrArg length (hNone p hp)]
      exact map_const'
    rw [hZero, firstBytes_concat, and_iff_right last.length_appended_le, length_eq_zero_iff,
      or_iff_not_imp_left, forall_mem_map]
    exact imp_congr_right fun _ => forall₂_congr fun _ _ => length_eq_zero_iff
  constructor
  · rintro ⟨hTotal, hFirst, -⟩
    have hNone : ∀ p ∈ init, p.appended = [] := by
      rwa [Nat.add_eq_right, length_eq_zero_iff, flatMap_eq_nil_iff] at hTotal
    exact ⟨hNone, (hAmounts hNone).mp hFirst⟩
  · rintro ⟨hNone, hEmpty⟩
    rw [flatMap_eq_nil_iff.mpr hNone]
    refine ⟨zero_add _, (hAmounts hNone).mpr hEmpty, ?_⟩
    rw [nil_append]
    by_cases hLast : last.appended = []
    · rw [hLast, length_nil, take_zero]
    · rw [flatMap_eq_nil_iff.mpr (hEmpty hLast), nil_append, ← Segment.appended_eq_take]

end

/-- The result is the appended prefix, or an error, if the lock, the stat or a write fails, and
otherwise if and only if only the last segment was written, behind empty ones. -/
theorem appendfileVecOffset_reportsPrefix_iff (file : SparseFile UInt8) (segments : List Segment)
    (offsetFromEnd lockRes statRes unlockRes : Nat) :
    let r := appendfileVecOffset file segments offsetFromEnd lockRes statRes unlockRes
    (0 ≤ r.writeRes → r.ReportsPrefix file segments (file.length + offsetFromEnd)) ↔
      lockRes ≠ 0 ∨ statRes ≠ 0 ∨ (∃ p ∈ segments, p.Fails) ∨ OnlyLastWritten segments := by
  unfold appendfileVecOffset
  by_cases hLock : lockRes ≠ 0
  · rw [if_pos hLock]
    exact iff_of_true (fun h => absurd h (by dsimp only; omega)) (.inl hLock)
  rw [if_neg hLock, or_iff_right hLock]
  by_cases hStat : statRes ≠ 0
  · rw [if_pos hStat]
    exact iff_of_true (fun h => absurd h (by dsimp only; omega)) (.inl hStat)
  rw [if_neg hStat, or_iff_right hStat]
  by_cases hFails : ∃ p ∈ segments, p.Fails
  · have hNegative := writeSegments_failed hFails 0 (file.length + offsetFromEnd) file
    exact iff_of_true (fun h => absurd h (not_le.mpr hNegative)) (.inl hFails)
  have hStored : ∀ p ∈ segments, ¬ p.Fails := fun p hp hFail => hFails ⟨p, hp, hFail⟩
  have hNotNegative : 0 ≤ (writeSegments segments 0 (file.length + offsetFromEnd) file).1 := by
    rw [writeSegments_stored hStored]
    cases segments.getLast? with
    | none => exact le_refl 0
    | some last => exact Int.natCast_nonneg _
  rw [or_iff_right hFails]
  exact (imp_iff_right hNotNegative).trans (reportsPrefix_stored_iff hStored _ _ file)

/-- Two segments of one byte are appended, and the result is 1. -/
theorem not_appendfileVecOffset_reportsPrefix :
    ¬ ∀ (file : SparseFile UInt8) (segments : List Segment),
      0 ≤ (appendfileVecOffset file segments 0 0 0 0).writeRes →
        (appendfileVecOffset file segments 0 0 0 0).ReportsPrefix file segments file.length := by
  intro h
  obtain ⟨n, hResult, hOffset, -⟩ := h [] [([1], .stored 1), ([2], .stored 1)] (by decide)
  obtain rfl : n = 1 := Int.natCast_inj.mp hResult.symm
  exact absurd hOffset (by decide)

end Fhgfs.Client
