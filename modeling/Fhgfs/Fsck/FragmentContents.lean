import Fhgfs.Fsck.FragmentRuns
import Fhgfs.Fsck.RowCursors

/-!
# Fragments that are read by a cursor or built by appends

`SetFragment.cursor` is the cursor over a fragment with its buffer: the step to an item does
the read that `get` will do, so that the window moves with the cursor. Over a fragment that
`Holds` its items it reads like the cursor over the items. `Ready` fragments are those that a
sort can work on; a new fragment that is only appended to stays ready.
-/

namespace Fhgfs.Fsck

open SetFragmentCursor List
open Cursor (Spec Reads Position)

namespace SetFragment

variable {Data κ : Type} [LinearOrder κ] (T : ItemType Data κ)

def cursorStep (s : SetFragment Data κ × UInt64) : Bool × SetFragment Data κ × UInt64 :=
  match SetFragmentCursor.step s.1.itemCount s.2 with
  | (false, index) => (false, s.1, index)
  | (true, index) => (true, (s.1.get T index.toNat).2, index)

def cursor (f : SetFragment Data κ) : Cursor Data where
  State := SetFragment Data κ × UInt64
  Marker := UInt64
  init := some (f, -1)
  step s := some (cursorStep T s)
  get s := (s.1.get T s.2.toNat).1
  mark s := s.2
  restore mark s := some (cursorStep T (s.1, mark - 1)).2
  bound := f.itemCount

variable {T} {f : SetFragment Data κ} {l : List Data}

/-! ## Reading -/

def CursorAt (l : List Data) (s : SetFragment Data κ × UInt64) (p : Position Data) : Prop :=
  Holds s.1 l ∧ SetFragmentCursor.At l s.2 p

variable {s : SetFragment Data κ × UInt64}

theorem cursorStep_holds (h : Holds s.1 l)
    {ok : Bool} {index : UInt64} (hStep : SetFragmentCursor.step l.length s.2 = (ok, index))
    (hIndex : ok = true → index.toNat < l.length) :
    ∃ f', cursorStep T s = (ok, f', index) ∧ Holds f' l := by
  unfold cursorStep
  rw [h.count, hStep]
  cases ok with
  | false => exact ⟨s.1, rfl, h⟩
  | true => exact ⟨_, rfl, (get_spec h (hIndex rfl)).2⟩

theorem cursorStep_spec (hSize : l.length < 2 ^ 64) {p : Position Data} (hs : CursorAt l s p) :
    ∃ s', cursorStep T s = ((p.next l).isRow, s') ∧ CursorAt l s' (p.next l) := by
  obtain ⟨index, hStep, hAt⟩ := SetFragmentCursor.step_spec hSize hs.2
  obtain ⟨f', hCursor, hf'⟩ := cursorStep_holds (T := T) hs.1 hStep fun hRow => by
    cases hNext : p.next l with
    | start => exact absurd hNext (Position.next_ne_start l p)
    | ended => simp [hNext] at hRow
    | row x rest =>
      rw [hNext] at hAt
      obtain ⟨pre, hItems, hIndex⟩ := hAt
      simp [hItems, hIndex]
  exact ⟨(f', index), hCursor, hf', hAt⟩

theorem cursor_restore {m : UInt64} {p : Position Data}
    (hSize : l.length < 2 ^ 64) (h : Holds s.1 l) (hm : SetFragmentCursor.At l m p)
    (hStart : p ≠ .start) : CursorAt l (cursorStep T (s.1, m - 1)).2 p := by
  have hAt := SetFragmentCursor.restore_spec hSize hm hStart
  have hIndex : (SetFragmentCursor.step l.length (m - 1)).1 = true →
      (SetFragmentCursor.step l.length (m - 1)).2.toNat < l.length := by
    intro hOk
    refine SetFragmentCursor.lt_of_at ?_ hAt hStart
    rintro rfl
    simp [SetFragmentCursor.step] at hOk
  obtain ⟨f', hStep, hf'⟩ := cursorStep_holds (T := T) (s := (s.1, m - 1)) h rfl hIndex
  rw [hStep]
  exact ⟨hf', hAt⟩

theorem cursor_get (h : Holds s.1 l)
    (hIndex : s.2.toNat < l.length) : (s.1.get T s.2.toNat).1 = l[s.2.toNat]? := by
  rw [(get_spec h hIndex).1, getElem?_eq_getElem hIndex]

theorem cursor_reads (h : Holds f l) (hSize : l.length < 2 ^ 64) :
    Reads (f.cursor T) (spec l) (CursorAt l) where
  init := ⟨(f, (-1 : UInt64)), rfl, h, rfl⟩
  suffix := by
    rintro s x rest ⟨-, pre, hItems, -⟩
    exact ⟨pre, hItems.symm⟩
  get := by
    rintro s x rest ⟨hs, pre, hItems, hIndex⟩
    refine (cursor_get hs (by simp [hItems, hIndex])).trans ?_
    simp [hItems, hIndex]
  step := by
    intro s p hs
    obtain ⟨s', hStep, hs'⟩ := cursorStep_spec hSize hs
    exact ⟨s', congrArg some hStep, hs'⟩
  bound := h.count.ge
  residual := by
    rintro s s' x b ⟨hs, hAt⟩ hStep
    obtain ⟨hStay, hLast⟩ := residual_spec hSize hAt
    have hSame : cursorStep T s = (false, s) := by
      unfold cursorStep
      rw [hs.count, hStay]
      rfl
    obtain rfl := Cursor.state_eq_of_step (c := f.cursor T) (congrArg some hSame) hStep
    have hItems : l ≠ [] := by
      obtain ⟨pre, hItems, -⟩ := hAt
      simp [hItems]
    exact (cursor_get hs (lt_of_at hItems hAt (by simp))).trans hLast
  readable_of_rows h := h
  readable := by
    rintro s p hItems ⟨hs, hAt⟩ hStart
    have hIndex := lt_of_at hItems hAt hStart
    exact ⟨_, (get_spec hs hIndex).1⟩
  restore := by
    rintro s₀ x rest s p ⟨-, hAt⟩ ⟨hs, -⟩
    exact ⟨_, rfl, cursor_restore hSize hs hAt (by simp)⟩
  restore_ended := by
    rintro s₀ s p - ⟨-, hAt⟩ ⟨hs, -⟩ -
    exact ⟨_, rfl, cursor_restore hSize hs hAt (by simp)⟩

/-! ## Building -/

/-- What `sort` needs of a fragment with the items `l`: its flag is set only if they ascend,
and if it is not set then the sort leaves no window of before behind. -/
structure Ready (T : ItemType Data κ) (f : SetFragment Data κ) (l : List Data) : Prop where
  holds : Holds f l
  ascending : f.sorted = true → l.Pairwise fun a b => T.pkey a ≤ T.pkey b
  fresh : f.sorted = false → SortsWindow T f l

def appendAll (T : ItemType Data κ) (f : SetFragment Data κ) (rows : List Data) :
    SetFragment Data κ :=
  rows.foldl (fun f row => f.append T row) f

/-- A fragment that has been built by appends: its window is dirty or empty, and
`lastItemKey` is the key of its last item. -/
structure Built (T : ItemType Data κ) (f : SetFragment Data κ) (l : List Data) : Prop
    extends Ready T f l where
  window : f.firstDirtyItem ≠ none ∨ f.buffer = []
  lastKey : ∀ x ∈ l.getLast?, f.lastItemKey = some (T.pkey x)

theorem create_built : Built T (create T) [] where
  holds := openFile_holds [] false
  ascending _ := List.Pairwise.nil
  fresh _ := Or.inl (Or.inr rfl)
  window := Or.inr rfl
  lastKey := by simp

theorem append_window_spec (data : Data) :
    (f.append T data).firstDirtyItem ≠ none ∨ (f.append T data).buffer = [] := by
  unfold append
  generalize (if f.itemCount > f.firstBufferedItem + f.buffer.length then
    { f.flushBuffer with firstBufferedItem := f.itemCount } else f) = f'
  simp only
  split
  · exact Or.inr (by simp [flushBuffer])
  · exact Or.inl (by simp)

theorem append_lastItemKey (data : Data) : (f.append T data).lastItemKey = some (T.pkey data) := by
  unfold append
  generalize (if f.itemCount > f.firstBufferedItem + f.buffer.length then
    { f.flushBuffer with firstBufferedItem := f.itemCount } else f) = f'
  rw [apply_ite SetFragment.lastItemKey, flushBuffer_lastItemKey, ite_self]

theorem append_built (h : Built T f l) (data : Data) : Built T (f.append T data) (l ++ [data]) := by
  have hWindow : f.AppendsInWindow := fun hClean hNe => by
    rcases h.window with hDirty | hEmpty
    · exact absurd hClean hDirty
    · exact absurd hEmpty hNe
  have hKey : f.LastKeyCurrent T data := by
    intro _ key hMem hLt x hx
    rw [items_of_holds h.holds] at hx
    obtain rfl : T.pkey x = key := Option.some.inj ((h.lastKey x hx).symm.trans hMem)
    exact hLt.le
  exact {
    holds := append_holds h.holds hWindow data
    ascending := append_ascending (listLike_of_holds h.holds h.ascending) h.holds hKey
    fresh := fun _ => Or.inl (append_window_spec data)
    window := append_window_spec data
    lastKey := by simp [append_lastItemKey] }

theorem appendAll_built (h : Built T f l) (rows : List Data) :
    Built T (f.appendAll T rows) (l ++ rows) := by
  induction rows generalizing f l with
  | nil =>
    rwa [append_nil]
  | cons row rows ih =>
    have := ih (append_built h row)
    rwa [append_assoc, singleton_append] at this

theorem flush_ready (h : Ready T f l) : Ready T f.flush l where
  holds := flush_holds h.holds
  ascending hSorted := h.ascending (by simpa using hSorted)
  fresh hSorted := (h.fresh (by simpa using hSorted)).imp_left fun hWindow =>
    Or.inr (flush_buffer hWindow)

omit [LinearOrder κ] in
theorem flush_flush : f.flush.flush = f.flush := flush_of_clean flush_clean

theorem sort_flush : f.flush.sort T = f.sort T := by simp only [sort, flush_flush]

/-- The items after a sort, which does nothing if the flag is set. -/
def sortedItems (T : ItemType Data κ) (f : SetFragment Data κ) (l : List Data) : List Data :=
  if f.sorted then l else T.stdSort l

theorem sortedItems_perm : (f.sortedItems T l).Perm l := by
  unfold sortedItems
  split
  · exact List.Perm.refl l
  · exact T.stdSort_perm l

theorem sort_spec (hHolds : Holds f l) (hFresh : f.sorted = false → SortsWindow T f l) :
    Holds (f.sort T) (f.sortedItems T l) ∧ (f.sort T).sorted = true := by
  unfold sortedItems
  cases hFlag : f.sorted with
  | true =>
    rw [sort_of_sorted hFlag, flush_sorted]
    exact ⟨flush_holds hHolds, hFlag⟩
  | false =>
    refine ⟨sort_holds hHolds hFlag (hFresh hFlag), ?_⟩
    unfold sort
    simp [hFlag]

end SetFragment

end Fhgfs.Fsck
