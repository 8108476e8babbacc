import Fhgfs.Fsck.SetFragment
import Fhgfs.Lib.Run

/-!
# Runs of one fragment

A fragment is to behave like a list in memory: appends at the end, a sort puts it in
ascending order, and all else leaves it as it is (`ListStep`). It does so over every run
whose steps are `InOrder`. The other steps are those that meet one of four slips: an append
behind a clean window that ends early, a sort behind a clean window, an append after a sort
that is compared with `lastItemKey` of before the sort, and a reopen that reads an outdated
flag, because `flush` does not write it when the items have been written already.
-/

namespace Fhgfs.Fsck

open List

inductive FragmentOp (Data κ : Type)
  | append (data : Data)
  | get (offset : Nat)
  | getByKey (key : κ)
  | flush
  | sort
  | reopen

namespace SetFragment

variable {Data κ : Type} [LinearOrder κ] (T : ItemType Data κ)

def step (f : SetFragment Data κ) : FragmentOp Data κ → SetFragment Data κ
  | .append data => f.append T data
  | .get offset => (f.get T offset).2
  | .getByKey key => (f.getByKey T key).2
  | .flush => f.flush
  | .sort => f.sort T
  | .reopen => f.reopen T

def items (f : SetFragment Data κ) : List Data :=
  (List.range f.itemCount).filterMap fun i => (f.get T i).1

/-! ## The list in memory -/

inductive ListStep (pkey : Data → κ) : List Data → FragmentOp Data κ → List Data → Prop
  | append (l : List Data) (data : Data) : ListStep pkey l (.append data) (l ++ [data])
  | get (l : List Data) (offset : Nat) : ListStep pkey l (.get offset) l
  | getByKey (l : List Data) (key : κ) : ListStep pkey l (.getByKey key) l
  | flush (l : List Data) : ListStep pkey l .flush l
  | sort {l l' : List Data} : l'.Perm l → (l'.Pairwise fun a b => pkey a ≤ pkey b) →
      ListStep pkey l .sort l'
  | reopen (l : List Data) : ListStep pkey l .reopen l

inductive ListRun (pkey : Data → κ) : List Data → List (FragmentOp Data κ) → List Data → Prop
  | nil (l : List Data) : ListRun pkey l [] l
  | cons {l l₁ l' : List Data} {op : FragmentOp Data κ} {ops : List (FragmentOp Data κ)} :
      ListStep pkey l op l₁ → ListRun pkey l₁ ops l' → ListRun pkey l (op :: ops) l'

/-- The fragment reads like the list, and its flag is set only while the list ascends. -/
structure ListLike (f : SetFragment Data κ) (l : List Data) : Prop where
  size : f.itemCount = l.length
  get {i : Nat} (hi : i < l.length) : (f.get T i).1 = some l[i]
  ascending : f.sorted = true → l.Pairwise fun a b => T.pkey a ≤ T.pkey b

/-! ## The steps that keep to the list -/

def Admitted (f : SetFragment Data κ) : FragmentOp Data κ → Prop
  | .get offset => offset < f.itemCount
  | _ => True

/-- An append whose key is above `lastItemKey` is not below the last item. -/
def LastKeyCurrent (f : SetFragment Data κ) (data : Data) : Prop :=
  f.sorted = true → ∀ key ∈ f.lastItemKey, key < T.pkey data →
    ∀ x ∈ (f.items T).getLast?, T.pkey x ≤ T.pkey data

def InOrder (f : SetFragment Data κ) : FragmentOp Data κ → Prop
  | .append data => f.AppendsInWindow ∧ f.LastKeyCurrent T data
  | .sort => f.sorted = false → f.firstDirtyItem ≠ none ∨ f.buffer = []
  | .reopen => f.firstDirtyItem = none → f.fileSorted = true →
      (f.items T).Pairwise fun a b => T.pkey a ≤ T.pkey b
  | _ => True

instance (f : SetFragment Data κ) : (op : FragmentOp Data κ) → Decidable (f.Admitted op)
  | .get _ => inferInstanceAs (Decidable (_ < _))
  | .append _ | .getByKey _ | .flush | .sort | .reopen => .isTrue trivial

instance (f : SetFragment Data κ) (data : Data) : Decidable (f.LastKeyCurrent T data) :=
  inferInstanceAs (Decidable (_ → ∀ key ∈ _, _ → ∀ x ∈ _, _))

instance (f : SetFragment Data κ) : (op : FragmentOp Data κ) → Decidable (f.InOrder T op)
  | .append _ => inferInstanceAs (Decidable (_ ∧ _))
  | .get _ | .getByKey _ | .flush => .isTrue trivial
  | .sort => inferInstanceAs (Decidable (_ → _ ∨ _))
  | .reopen => inferInstanceAs (Decidable (_ → _ → List.Pairwise _ _))

variable {T} {f : SetFragment Data κ} {l : List Data}

omit [LinearOrder κ] in
theorem filterMap_range_getElem? (l : List Data) :
    ((range l.length).filterMap fun i => l[i]?) = l := by
  induction l with
  | nil => rfl
  | cons x l ih =>
    rw [length_cons, range_succ_eq_map]
    simpa [filterMap_cons, filterMap_map, Function.comp_def] using ih

theorem items_eq (hSize : f.itemCount = l.length)
    (hGet : ∀ i (hi : i < l.length), (f.get T i).1 = some l[i]) : f.items T = l := by
  have hRead : ∀ i ∈ range f.itemCount, (f.get T i).1 = l[i]? := by
    intro i hi
    have hi : i < l.length := by simpa [hSize] using hi
    rw [hGet i hi, getElem?_eq_getElem hi]
  rw [items, filterMap_congr hRead, hSize]
  exact filterMap_range_getElem? l

theorem items_of_holds (h : Holds f l) : f.items T = l :=
  items_eq h.count fun _ hi => (get_spec h hi).1

theorem items_of_listLike (h : ListLike T f l) : f.items T = l :=
  items_eq h.size fun _ hi => h.get hi

theorem listLike_of_holds (h : Holds f l)
    (hAsc : f.sorted = true → l.Pairwise fun a b => T.pkey a ≤ T.pkey b) : ListLike T f l :=
  ⟨h.count, fun hi => (get_spec h hi).1, hAsc⟩

/-! ## The flag -/

theorem bufferFileRange_sorted (first : Nat) (last : Option Nat) :
    (f.bufferFileRange T first last).sorted = f.sorted :=
  flushBuffer_sorted

theorem get_sorted (i : Nat) : (f.get T i).2.sorted = f.sorted := by
  unfold get
  split
  · exact bufferFileRange_sorted _ _
  · rfl

theorem searchLoop_sorted {κ' : Type} [LinearOrder κ'] (key : κ') (fn : κ → κ')
    (n first last : Nat) :
    (f.searchLoop T key fn n first last).2.sorted = f.sorted := by
  induction n generalizing f first last with
  | zero => rfl
  | succ n ih =>
    unfold searchLoop
    split
    · rfl
    · simp only
      split <;> rw [ih, get_sorted, bufferFileRange_sorted]

theorem getByKey_sorted (key : κ) : (f.getByKey T key).2.sorted = f.sorted := by
  unfold getByKey getByKeyProjection
  split
  · rfl
  · simp only
    rw [get_sorted, searchLoop_sorted]

theorem append_sorted (data : Data) : (f.append T data).sorted =
    if f.itemCount > 0 ∧ f.sorted then f.lastItemKey.any fun key => key < T.pkey data
    else f.sorted := by
  generalize hWindow : (if f.itemCount > f.firstBufferedItem + f.buffer.length then
      { f.flushBuffer with firstBufferedItem := f.itemCount } else f) = f'
  have hSame : f'.itemCount = f.itemCount ∧ f'.sorted = f.sorted ∧
      f'.lastItemKey = f.lastItemKey := by
    rw [← hWindow]
    split <;> simp
  unfold append
  rw [hWindow, ← hSame.1, ← hSame.2.1, ← hSame.2.2]
  rw [apply_ite SetFragment.sorted, flushBuffer_sorted, ite_self]

theorem append_ascending (h : ListLike T f l) (hHolds : Holds f l) {data : Data}
    (hKey : f.LastKeyCurrent T data) (hSorted : (f.append T data).sorted = true) :
    (l ++ [data]).Pairwise fun a b => T.pkey a ≤ T.pkey b := by
  rcases eq_nil_or_concat' l with rfl | ⟨l₀, x, rfl⟩
  · simp
  have hCount : f.itemCount > 0 := by simp [hHolds.count]
  rw [append_sorted] at hSorted
  cases hFlag : f.sorted with
  | false => simp [hFlag] at hSorted
  | true =>
    have hAsc := h.ascending hFlag
    rw [if_pos ⟨hCount, hFlag⟩, Option.any_eq_true] at hSorted
    obtain ⟨key, hMem, hLt⟩ := hSorted
    simp only [decide_eq_true_eq] at hLt
    have hLast := hKey hFlag key hMem hLt x (by rw [items_of_holds hHolds]; simp)
    refine pairwise_append.mpr ⟨hAsc, pairwise_singleton _ _, fun a ha b hb => ?_⟩
    obtain rfl := mem_singleton.mp hb
    rcases mem_append.mp ha with ha | ha
    · exact ((pairwise_append.mp hAsc).2.2 a ha x (by simp)).trans hLast
    · rwa [mem_singleton.mp ha]

/-! ## Runs -/

theorem openFile_sorted (file : List Data) (fileSorted : Bool) :
    (openFile T file fileSorted).sorted = (file.length = 0 || fileSorted) := by
  unfold openFile
  by_cases hEmpty : file.length = 0
  · simp [hEmpty]
  · simp [hEmpty, Nat.pos_of_ne_zero hEmpty, get_sorted]

theorem step_spec (h : Holds f l)
    (hAsc : f.sorted = true → l.Pairwise fun a b => T.pkey a ≤ T.pkey b)
    {op : FragmentOp Data κ} (hAdmitted : f.Admitted op) (hOrder : f.InOrder T op) :
    ∃ l', ListStep T.pkey l op l' ∧ Holds (f.step T op) l' ∧
      ((f.step T op).sorted = true → l'.Pairwise fun a b => T.pkey a ≤ T.pkey b) := by
  cases op with
  | append data =>
    exact ⟨_, .append l data, append_holds h hOrder.1 data,
      append_ascending (listLike_of_holds h hAsc) h hOrder.2⟩
  | get offset =>
    have hOffset : offset < l.length := h.count ▸ hAdmitted
    have hFlag : (f.get T offset).2.sorted = f.sorted := get_sorted offset
    exact ⟨l, .get l offset, (get_spec h hOffset).2, fun hSorted => hAsc (hFlag ▸ hSorted)⟩
  | getByKey key =>
    have hHolds : Holds (f.getByKey T key).2 l := getByKeyProjection_holds key id h
    have hFlag : (f.getByKey T key).2.sorted = f.sorted := getByKey_sorted key
    exact ⟨l, .getByKey l key, hHolds, fun hSorted => hAsc (hFlag ▸ hSorted)⟩
  | flush =>
    have hFlag : f.flush.sorted = f.sorted := flush_sorted
    exact ⟨l, .flush l, flush_holds h, fun hSorted => hAsc (hFlag ▸ hSorted)⟩
  | sort =>
    cases hFlag : f.sorted with
    | true =>
      refine ⟨l, .sort (List.Perm.refl l) (hAsc hFlag), ?_, fun _ => hAsc hFlag⟩
      change Holds (f.sort T) l
      rw [sort_of_sorted hFlag]
      exact flush_holds h
    | false =>
      have hSorted := T.stdSort_ascending l
      exact ⟨_, .sort (T.stdSort_perm l) hSorted, sort_holds h hFlag (Or.inl (hOrder hFlag)),
        fun _ => hSorted⟩
  | reopen =>
    refine ⟨l, .reopen l, reopen_holds h, fun hSorted => ?_⟩
    change (openFile T f.flush.file f.flush.fileSorted).sorted = true at hSorted
    rw [openFile_sorted, (flush_holds h).clean flush_clean] at hSorted
    cases hDirty : f.firstDirtyItem with
    | none =>
      rw [flush_of_clean hDirty] at hSorted
      by_cases hEmpty : l = []
      · simp [hEmpty]
      · rw [← items_of_holds (T := T) h]
        exact hOrder hDirty (by simpa [hEmpty] using hSorted)
    | some d =>
      by_cases hEmpty : l = []
      · simp [hEmpty]
      · exact hAsc (by simpa [hEmpty, flush, hDirty] using hSorted)

/-- After any run from a new fragment whose steps are all in order, the fragment is the list
that the run makes in memory, and its flag is set only if this list ascends. -/
theorem listLike_run {ops : List (FragmentOp Data κ)}
    (hAdmitted : Run.EveryStep (step T) Admitted (create T) ops)
    (hOrder : Run.EveryStep (step T) (InOrder T) (create T) ops) :
    ∃ l, ListRun T.pkey [] ops l ∧ ListLike T (Run.after (step T) (create T) ops) l := by
  have hRun : ∀ {f : SetFragment Data κ} {l : List Data} {ops : List (FragmentOp Data κ)},
      Holds f l → (f.sorted = true → l.Pairwise fun a b => T.pkey a ≤ T.pkey b) →
      Run.EveryStep (step T) Admitted f ops → Run.EveryStep (step T) (InOrder T) f ops →
      ∃ l', ListRun T.pkey l ops l' ∧ ListLike T (Run.after (step T) f ops) l' := by
    intro f l ops h hAsc hAdmitted hOrder
    induction ops generalizing f l with
    | nil => exact ⟨l, .nil l, listLike_of_holds h hAsc⟩
    | cons op ops ih =>
      obtain ⟨l₁, hStep, h₁, hAsc₁⟩ := step_spec h hAsc hAdmitted.1 hOrder.1
      obtain ⟨l', hRest, hLike⟩ := ih h₁ hAsc₁ hAdmitted.2 hOrder.2
      exact ⟨l', .cons hStep hRest, hLike⟩
  exact hRun (openFile_holds [] false) (fun _ => List.Pairwise.nil) hAdmitted hOrder

/-! ## Runs out of order -/

/-- Items of eight bytes that are their own keys. -/
def natItems : ItemType Nat Nat where
  pkey := id
  size := 8
  BUFFER_SIZE := 4 * 1024 * 1024
  size_pos := by decide
  two_le := by decide
  stdSort := List.insertionSort (· ≤ ·)
  stdSort_perm := List.perm_insertionSort _
  stdSort_ascending l := List.pairwise_insertionSort (· ≤ ·) l

theorem listLike_run_sort : ∃ l, ListRun natItems.pkey [] [.append 2, .append 1, .sort] l ∧
    ListLike natItems (Run.after (step natItems) (create natItems)
      [.append 2, .append 1, .sort]) l :=
  listLike_run (by decide) (by decide)

/-- The flag of each of the first three runs is set over a list that does not ascend: after
an append that is compared with the key of before the sort, after a sort behind the window of
a read, and after a reopen that reads the flag of an earlier flush. In the last run the item
5 is written from the start of a window that ends early, and 1 is read in its place. -/
theorem not_listLike_run :
    (∀ ops ∈ [[FragmentOp.append 3, .append 1, .sort, .append 2],
        [.append 2, .append 1, .flush, .get 0, .sort],
        [.append 1, .append 2, .flush, .append 0, .get 0, .reopen]],
      ∀ l, ¬ ListLike natItems (Run.after (step natItems) (create natItems) ops) l) ∧
    ∀ l, ListRun natItems.pkey []
        [.append 1, .append 2, .append 3, .append 4, .flush, .getByKey 1, .append 5] l →
      ¬ ListLike natItems (Run.after (step natItems) (create natItems)
        [.append 1, .append 2, .append 3, .append 4, .flush, .getByKey 1, .append 5]) l := by
  have hFlag {ops : List (FragmentOp Nat Nat)} {l : List Nat}
      (hSorted : (Run.after (step natItems) (create natItems) ops).sorted = true)
      (hItems : ¬ ((Run.after (step natItems) (create natItems) ops).items natItems).Pairwise
        (· ≤ ·)) :
      ¬ ListLike natItems (Run.after (step natItems) (create natItems) ops) l := by
    intro h
    rw [items_of_listLike h] at hItems
    exact hItems (h.ascending hSorted)
  constructor
  · intro ops hOps l
    simp only [mem_cons, not_mem_nil, or_false] at hOps
    rcases hOps with rfl | rfl | rfl
    · exact hFlag (by decide) (by decide)
    · exact hFlag (by decide) (by decide)
    · exact hFlag (by decide) (by decide)
  · rintro l hList h
    have hItems : l = [1, 2, 3, 4, 1] := by
      rw [← items_of_listLike h]
      decide
    rcases hList with _ | ⟨⟨⟩, _ | ⟨⟨⟩, _ | ⟨⟨⟩, _ | ⟨⟨⟩, _ | ⟨⟨⟩, _ | ⟨⟨⟩, _ | ⟨⟨⟩, ⟨⟩⟩⟩⟩⟩⟩⟩⟩
    simp at hItems

end SetFragment

end Fhgfs.Fsck
