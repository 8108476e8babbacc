import Mathlib.Data.UInt

/-!
# SetFragment

A fragment is a file of items with one buffer, a window of the items from
`firstBufferedItem` on. While an item of the window is not in the file yet the window is
dirty, `firstDirtyItem` is set and all items up to the last one are in the window. `Holds`
says what list of items a fragment stands for; the invariant of the operations is that they
keep the window in step with the file.
-/

namespace Fhgfs.Fsck

open List

/-- What a fragment knows of its items: `sizeof(Data)`, the size of the buffer in bytes,
which has room for at least two items, the key, and what `std::sort` makes of a list. -/
structure ItemType (Data κ : Type) [LinearOrder κ] where
  pkey : Data → κ
  size : Nat
  BUFFER_SIZE : Nat
  size_pos : 0 < size
  two_le : 2 * size ≤ BUFFER_SIZE
  stdSort : List Data → List Data
  stdSort_perm (l : List Data) : (stdSort l).Perm l
  stdSort_ascending (l : List Data) : (stdSort l).Pairwise fun a b => pkey a ≤ pkey b

structure SetFragment (Data κ : Type) where
  /-- The items in the file, behind the config area. -/
  file : List Data
  /-- The first byte of the config area, zero until it is written. -/
  fileSorted : Bool
  itemCount : Nat
  sorted : Bool
  buffer : List Data
  firstBufferedItem : Nat
  /-- `none` stands for -1. -/
  firstDirtyItem : Option Nat
  lastDirtyItem : Nat
  /-- Not set by the constructor of an empty fragment. -/
  lastItemKey : Option κ
  deriving DecidableEq

namespace SetFragment

variable {Data κ : Type}

variable (f : SetFragment Data κ)

def readBlock (count start : Nat) : List Data :=
  (f.file.drop start).take count

def writeBlock (source : List Data) (start : Nat) : SetFragment Data κ :=
  { f with file := f.file.take start ++ source ++ f.file.drop (start + source.length) }

def flushBuffer : SetFragment Data κ :=
  match f.firstDirtyItem with
  | none => f
  | some firstDirtyItem =>
    let first := f.buffer.drop (firstDirtyItem - f.firstBufferedItem)
    { f.writeBlock (first.take (f.lastDirtyItem - firstDirtyItem + 1)) firstDirtyItem with
      buffer := []
      firstDirtyItem := none }

def flush : SetFragment Data κ :=
  match f.firstDirtyItem with
  | none => f
  | some _ => { f.flushBuffer with buffer := [], fileSorted := f.sorted }

variable [LinearOrder κ] (T : ItemType Data κ)

/-- `last` is the last item of the window, `none` stands for `size_t(-1)`. -/
def bufferFileRange (first : Nat) (last : Option Nat) (f : SetFragment Data κ) :
    SetFragment Data κ :=
  let f := f.flushBuffer
  let totalRead := match last with
    | none => T.BUFFER_SIZE / T.size
    | some last => min (last - first + 1) (T.BUFFER_SIZE / T.size)
  { f with
    buffer := f.readBlock totalRead first
    firstBufferedItem := first }

/-- `operator[]`, with `none` for an item that is not in the buffer even then. -/
def get (offset : Nat) (f : SetFragment Data κ) : Option Data × SetFragment Data κ :=
  let f :=
    if offset < f.firstBufferedItem ∨ offset ≥ f.firstBufferedItem + f.buffer.length then
      f.bufferFileRange T (if offset = 0 then 0 else offset - 1) none
    else
      f
  (f.buffer[offset - f.firstBufferedItem]?, f)

def append (data : Data) (f : SetFragment Data κ) : SetFragment Data κ :=
  let f :=
    if f.itemCount > f.firstBufferedItem + f.buffer.length then
      { f.flushBuffer with firstBufferedItem := f.itemCount }
    else
      f
  let f := { f with
    firstDirtyItem := some (f.firstDirtyItem.getD f.itemCount)
    lastDirtyItem := f.itemCount
    sorted :=
      if f.itemCount > 0 ∧ f.sorted then
        f.lastItemKey.any fun key => key < T.pkey data
      else
        f.sorted
    buffer := f.buffer ++ [data]
    itemCount := f.itemCount + 1
    lastItemKey := some (T.pkey data) }
  if f.buffer.length * T.size ≥ T.BUFFER_SIZE then f.flushBuffer else f

def sort (f : SetFragment Data κ) : SetFragment Data κ :=
  let f := f.flush
  if f.sorted then
    f
  else
    let data := f.readBlock f.itemCount 0
    let f := { f.writeBlock (T.stdSort data) 0 with sorted := true }
    f.flush

/-- The binary search, with the steps it may take: the index that it ends on. -/
def searchLoop {κ' : Type} [LinearOrder κ'] (key : κ') (fn : κ → κ') :
    Nat → Nat → Nat → SetFragment Data κ → Nat × SetFragment Data κ
  | 0, first, _, f => (first, f)
  | n + 1, first, last, f =>
    if first = last then
      (first, f)
    else
      let midIdx := first + (last - first) / 2
      let f := f.bufferFileRange T midIdx (some (midIdx + 1))
      let (mid, f) := f.get T midIdx
      if mid.any fun mid => fn (T.pkey mid) < key then
        searchLoop key fn n (midIdx + 1) last f
      else
        searchLoop key fn n first midIdx f

def getByKeyProjection {κ' : Type} [LinearOrder κ'] (key : κ') (fn : κ → κ')
    (f : SetFragment Data κ) : Option Data × SetFragment Data κ :=
  if f.itemCount = 0 then
    (none, f)
  else
    let (first, f) := f.searchLoop T key fn f.itemCount 0 (f.itemCount - 1)
    let (item, f) := f.get T first
    (item.filter fun item => fn (T.pkey item) = key, f)

def getByKey (key : κ) (f : SetFragment Data κ) : Option Data × SetFragment Data κ :=
  f.getByKeyProjection T key id

def openFile (file : List Data) (fileSorted : Bool) : SetFragment Data κ :=
  let f : SetFragment Data κ :=
    { file, fileSorted, itemCount := file.length,
      sorted := if file.length = 0 then true else fileSorted,
      buffer := [], firstBufferedItem := 0, firstDirtyItem := none, lastDirtyItem := 0,
      lastItemKey := none }
  if f.itemCount > 0 then
    let (item, f) := f.get T (f.itemCount - 1)
    { f with lastItemKey := item.map T.pkey }
  else
    f

def create : SetFragment Data κ := openFile T [] false

/-- The destructor, which flushes, and the constructor on the file it leaves. -/
def reopen (f : SetFragment Data κ) : SetFragment Data κ :=
  openFile T f.flush.file f.flush.fileSorted

end SetFragment

namespace SetFragment

variable {Data κ : Type}

/-! ## The items of a fragment -/

/-- The window of the buffer and the file together have the items `l`. -/
structure Holds (f : SetFragment Data κ) (l : List Data) : Prop where
  count : f.itemCount = l.length
  first_le : f.firstBufferedItem ≤ l.length
  buffer : f.buffer = (l.drop f.firstBufferedItem).take f.buffer.length
  clean : f.firstDirtyItem = none → f.file = l
  dirty {d : Nat} : f.firstDirtyItem = some d → f.firstBufferedItem ≤ d ∧ d < l.length ∧
    f.lastDirtyItem + 1 = l.length ∧ f.file = l.take d ∧
    f.firstBufferedItem + f.buffer.length = l.length

variable {f : SetFragment Data κ} {l : List Data}

theorem Holds.window_le (h : Holds f l) : f.firstBufferedItem + f.buffer.length ≤ l.length := by
  have hLen := congrArg length h.buffer
  simp only [length_take, length_drop] at hLen
  have := h.first_le
  omega

theorem flushBuffer_of_clean (h : f.firstDirtyItem = none) : f.flushBuffer = f := by
  simp [flushBuffer, h]

@[simp] theorem flushBuffer_sorted : f.flushBuffer.sorted = f.sorted := by
  cases hDirty : f.firstDirtyItem <;> simp [flushBuffer, writeBlock, hDirty]

@[simp] theorem flushBuffer_lastItemKey : f.flushBuffer.lastItemKey = f.lastItemKey := by
  cases hDirty : f.firstDirtyItem <;> simp [flushBuffer, writeBlock, hDirty]

@[simp] theorem flushBuffer_itemCount : f.flushBuffer.itemCount = f.itemCount := by
  cases hDirty : f.firstDirtyItem <;> simp [flushBuffer, writeBlock, hDirty]

theorem flushBuffer_spec (h : Holds f l) : f.flushBuffer = { f with
    file := l
    buffer := if f.firstDirtyItem = none then f.buffer else []
    firstDirtyItem := none } := by
  cases hDirty : f.firstDirtyItem with
  | none =>
    rw [flushBuffer_of_clean hDirty, if_pos rfl]
    obtain rfl := h.clean hDirty
    cases f
    simp_all
  | some d =>
    obtain ⟨hFirst, hd, hLast, hFile, hWindow⟩ := h.dirty hDirty
    have hAll : f.buffer = l.drop f.firstBufferedItem := by
      rw [h.buffer, take_of_length_le]
      rw [length_drop]
      omega
    have hDirtyItems : (f.buffer.drop (d - f.firstBufferedItem)).take
        (f.lastDirtyItem - d + 1) = l.drop d := by
      rw [hAll, drop_drop, Nat.add_sub_cancel' hFirst, take_of_length_le]
      rw [length_drop]
      omega
    have hTaken : (l.take d).drop (d + (l.length - d)) = [] := by
      rw [drop_eq_nil_iff, length_take]
      omega
    have hBack : (l.take d).take d ++ l.drop d = l := by
      rw [take_take, Nat.min_self, take_append_drop]
    simp only [flushBuffer, hDirty, writeBlock, hDirtyItems, hFile, length_drop, hTaken,
      append_nil, hBack, reduceCtorEq, if_false]

theorem flushBuffer_holds (h : Holds f l) : Holds f.flushBuffer l := by
  rw [flushBuffer_spec h]
  refine ⟨h.count, h.first_le, ?_, fun _ => rfl, by simp⟩
  change (if f.firstDirtyItem = none then f.buffer else []) =
    (l.drop f.firstBufferedItem).take (if f.firstDirtyItem = none then f.buffer else []).length
  split
  · exact h.buffer
  · simp

theorem flush_clean : f.flush.firstDirtyItem = none := by
  cases hDirty : f.firstDirtyItem <;> simp [flush, flushBuffer, hDirty]

theorem flush_of_clean (h : f.firstDirtyItem = none) : f.flush = f := by simp [flush, h]

@[simp] theorem flush_sorted : f.flush.sorted = f.sorted := by
  cases hDirty : f.firstDirtyItem <;> simp [flush, hDirty]

theorem flush_buffer (h : f.firstDirtyItem ≠ none ∨ f.buffer = []) : f.flush.buffer = [] := by
  cases hDirty : f.firstDirtyItem with
  | none => simpa [flush, hDirty] using h
  | some d => simp [flush, hDirty]

theorem flush_holds (h : Holds f l) : Holds f.flush l := by
  cases hDirty : f.firstDirtyItem with
  | none => rwa [flush_of_clean hDirty]
  | some d =>
    have hBack := flushBuffer_holds h
    have hClean : f.flushBuffer.firstDirtyItem = none := by simp [flushBuffer, hDirty]
    simp only [flush, hDirty]
    exact ⟨hBack.count, hBack.first_le, by simp, fun _ => hBack.clean hClean,
      fun hNone => by simp [hClean] at hNone⟩

theorem Holds.getElem? (h : Holds f l) {i : Nat} (hFirst : f.firstBufferedItem ≤ i)
    (hi : i < f.firstBufferedItem + f.buffer.length) :
    f.buffer[i - f.firstBufferedItem]? = l[i]? := by
  rw [h.buffer, getElem?_take_of_lt (by omega), getElem?_drop, Nat.add_sub_cancel' hFirst]

/-- The window ends behind the last item, or the next append opens a new one. -/
def AppendsInWindow (f : SetFragment Data κ) : Prop :=
  f.firstDirtyItem = none → f.buffer ≠ [] → f.itemCount ≤ f.firstBufferedItem + f.buffer.length

instance (f : SetFragment Data κ) : Decidable f.AppendsInWindow :=
  inferInstanceAs (Decidable (_ → _ → _))

theorem append_window (h : Holds f l) (hWindow : f.AppendsInWindow) :
    ∃ f', (if f.itemCount > f.firstBufferedItem + f.buffer.length then
        { f.flushBuffer with firstBufferedItem := f.itemCount } else f) = f' ∧
      Holds f' l ∧ f'.firstBufferedItem + f'.buffer.length = l.length := by
  have hCount := h.count
  have hLe := h.window_le
  split
  · rename_i hBehind
    have hClean : f.firstDirtyItem = none := by
      cases hDirty : f.firstDirtyItem with
      | none => rfl
      | some d =>
        obtain ⟨-, -, -, -, hEnd⟩ := h.dirty hDirty
        omega
    have hEmpty : f.buffer = [] := by
      by_contra hNe
      have := hWindow hClean hNe
      omega
    rw [flushBuffer_of_clean hClean]
    refine ⟨_, rfl, ⟨hCount, hCount.le, by simp [hEmpty], h.clean, fun hDirty => ?_⟩, ?_⟩
    · simp [hClean] at hDirty
    · simp [hEmpty, hCount]
  · exact ⟨f, rfl, h, by omega⟩

theorem push_holds (h : Holds f l) (hEnd : f.firstBufferedItem + f.buffer.length = l.length)
    (data : Data) (sorted : Bool) (key : Option κ) :
    Holds { f with
      firstDirtyItem := some (f.firstDirtyItem.getD f.itemCount)
      lastDirtyItem := f.itemCount
      sorted := sorted
      buffer := f.buffer ++ [data]
      itemCount := f.itemCount + 1
      lastItemKey := key } (l ++ [data]) := by
  have hCount := h.count
  have hFirst := h.first_le
  refine ⟨by simp [hCount], by simpa using hFirst.trans (Nat.le_succ _), ?_, by simp,
    fun {d} hDirty => ?_⟩
  · have hAll : f.buffer = l.drop f.firstBufferedItem := by
      rw [h.buffer, take_of_length_le]
      rw [length_drop]
      omega
    simp only
    rw [drop_append_of_le_length hFirst, ← hAll, take_of_length_le le_rfl]
  · obtain rfl : f.firstDirtyItem.getD f.itemCount = d := by simpa using hDirty
    simp only [length_append, length_singleton]
    cases hOld : f.firstDirtyItem with
    | none =>
      have hFile := h.clean hOld
      simp only [Option.getD_none, hCount]
      exact ⟨hFirst, by omega, trivial, by rw [hFile, take_left' rfl], by omega⟩
    | some d =>
      obtain ⟨hd, hdLt, -, hFile, -⟩ := h.dirty hOld
      simp only [Option.getD_some, hCount]
      exact ⟨hd, by omega, trivial, by rw [hFile, take_append_of_le_length hdLt.le], by omega⟩

variable [LinearOrder κ] {T : ItemType Data κ}

theorem capacity_two : 2 ≤ T.BUFFER_SIZE / T.size := (Nat.le_div_iff_mul_le T.size_pos).mpr T.two_le

theorem bufferFileRange_holds (h : Holds f l) {first : Nat} (hFirst : first ≤ l.length)
    (last : Option Nat) : Holds (f.bufferFileRange T first last) l := by
  have hSpec := flushBuffer_spec h
  unfold bufferFileRange
  rw [hSpec]
  refine ⟨h.count, hFirst, ?_, fun _ => rfl, by simp⟩
  simp [readBlock]

theorem get_spec (h : Holds f l) {i : Nat} (hi : i < l.length) :
    (f.get T i).1 = some l[i] ∧ Holds (f.get T i).2 l := by
  unfold get
  split
  · have hFirst : (if i = 0 then 0 else i - 1) ≤ l.length := by split <;> omega
    have hHolds := bufferFileRange_holds (T := T) h hFirst none
    refine ⟨?_, hHolds⟩
    rw [← getElem?_eq_getElem hi]
    refine hHolds.getElem? ?_ ?_
    · simp only [bufferFileRange]
      split <;> omega
    · -- the window starts at most one item early and has room for two
      have hTwo := capacity_two (T := T)
      simp only [bufferFileRange, readBlock, flushBuffer_spec h, length_take, length_drop]
      split <;> omega
  · rename_i hWindow
    rw [not_or, not_lt, not_le] at hWindow
    refine ⟨?_, h⟩
    rw [← getElem?_eq_getElem hi]
    exact h.getElem? hWindow.1 hWindow.2

section

variable {κ' : Type} [LinearOrder κ'] (key : κ') (fn : κ → κ')

theorem searchLoop_spec (h : Holds f l)
    {n first last : Nat} (hFirst : first ≤ last) (hLast : last < l.length) :
    (f.searchLoop T key fn n first last).1 < l.length ∧
      Holds (f.searchLoop T key fn n first last).2 l := by
  induction n generalizing f first last with
  | zero => exact ⟨hFirst.trans_lt hLast, h⟩
  | succ n ih =>
    unfold searchLoop
    split
    · exact ⟨hFirst.trans_lt hLast, h⟩
    have hMid : first + (last - first) / 2 < last := by omega
    have hWindow := bufferFileRange_holds (T := T) h (hMid.le.trans hLast.le)
      (some (first + (last - first) / 2 + 1))
    have hGet := (get_spec (T := T) hWindow (hMid.trans hLast)).2
    simp only
    split
    · exact ih hGet hMid hLast
    · exact ih hGet (by omega) (hMid.trans hLast)

theorem getByKeyProjection_holds (h : Holds f l) : Holds (f.getByKeyProjection T key fn).2 l := by
  unfold getByKeyProjection
  split
  · exact h
  · have hCount := h.count
    obtain ⟨hIndex, hSearch⟩ := searchLoop_spec (T := T) key fn h (n := f.itemCount)
      (Nat.zero_le (f.itemCount - 1)) (by omega)
    exact (get_spec hSearch hIndex).2

end

theorem append_holds (h : Holds f l) (hWindow : f.AppendsInWindow) (data : Data) :
    Holds (f.append T data) (l ++ [data]) := by
  obtain ⟨f', hPlaced, hHolds, hEnd⟩ := append_window h hWindow
  unfold append
  rw [hPlaced]
  simp only
  split
  · exact flushBuffer_holds (push_holds hHolds hEnd data _ _)
  · exact push_holds hHolds hEnd data _ _

theorem sort_of_sorted (h : f.sorted = true) : f.sort T = f.flush := by
  simp [sort, h]

/-- What the sort of `l` leaves in the window is right: nothing, or the items are not moved. -/
def SortsWindow (T : ItemType Data κ) (f : SetFragment Data κ) (l : List Data) : Prop :=
  (f.firstDirtyItem ≠ none ∨ f.buffer = []) ∨ T.stdSort l = l

theorem sort_holds (h : Holds f l) (hSorted : f.sorted = false) (hWindow : SortsWindow T f l) :
    Holds (f.sort T) (T.stdSort l) := by
  have hFlushed := flush_holds h
  have hFile := hFlushed.clean flush_clean
  have hBuffer : f.flush.buffer =
      ((T.stdSort l).drop f.flush.firstBufferedItem).take f.flush.buffer.length := by
    rcases hWindow with hEmpty | hSame
    · simp [flush_buffer hEmpty]
    · rw [hSame]
      exact hFlushed.buffer
  have hLen := (T.stdSort_perm l).length_eq
  have hRead : f.flush.readBlock f.flush.itemCount 0 = l := by
    simp [readBlock, hFile, hFlushed.count]
  unfold sort
  simp only [flush_sorted, hSorted, Bool.false_eq_true, if_false, hRead]
  rw [flush_of_clean (by exact flush_clean)]
  refine ⟨hFlushed.count.trans hLen.symm, hLen ▸ hFlushed.first_le, ?_, fun _ => ?_,
    fun hDirty => ?_⟩
  · exact hBuffer
  · simp [writeBlock, hFile, hLen]
  · simp [writeBlock, flush_clean] at hDirty

theorem openFile_holds (file : List Data) (fileSorted : Bool) :
    Holds (openFile T file fileSorted) file := by
  have hNew : Holds ({
      file, fileSorted, itemCount := file.length,
      sorted := if file.length = 0 then true else fileSorted,
      buffer := [], firstBufferedItem := 0, firstDirtyItem := none, lastDirtyItem := 0,
      lastItemKey := none } : SetFragment Data κ) file :=
    ⟨rfl, Nat.zero_le _, rfl, fun _ => rfl, by simp⟩
  unfold openFile
  simp only
  split
  · rename_i hPos
    have hGet := (get_spec (T := T) hNew (i := file.length - 1) (by omega)).2
    exact ⟨hGet.count, hGet.first_le, hGet.buffer, hGet.clean, hGet.dirty⟩
  · exact hNew

theorem reopen_holds (h : Holds f l) : Holds (f.reopen T) l := by
  have hFile := (flush_holds h).clean flush_clean
  unfold reopen
  rw [hFile]
  exact openFile_holds l _

end SetFragment

end Fhgfs.Fsck
