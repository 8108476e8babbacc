import Fhgfs.Fsck.FragmentContents
import Fhgfs.Fsck.LeftJoinEq
import Fhgfs.Fsck.Union

/-!
# Windows that no cursor reads

The constructor of a fragment reads the last item for its key, which leaves a window of the last
two items. A sort changes the file behind this window. All cursors start with the first item, so
that a window that does not begin with it is read again before anything is taken from it:
`forgetWindow` empties such a window, and neither the rows of the queries nor what the fragment
is later show a difference. The window of a fragment of two items does begin with the first.
-/

namespace Fhgfs.Fsck

open LeftJoinEq SetFragmentCursor Union Bool

/-! ## Cursors over cursors -/

section

variable {α β κ : Type} [LinearOrder κ]

/-- The initial state of a union, from those of its inputs. -/
def Union.initFrom (left right : Cursor α) (i : Option left.State) (j : Option right.State) :
    Option (Union.State left right) := do
  let l ← i
  let r ← j
  let (ok, r) ← right.step r
  some { left := l, right := r, leftEnded := false, rightEnded := !ok, nextStepLeft := true,
         currentAtLeft := none }

theorem union_startingIn (left right : Cursor α) (k : α → κ) (i : Option left.State)
    (j : Option right.State) : union (left.startingIn i) (right.startingIn j) k =
      (union left right k).startingIn (initFrom left right i j) := rfl

theorem union_sameFirstStep {left right : Cursor α} (k : α → κ) {i : Option left.State}
    {j : Option right.State} (hLeft : left.SameFirstStep i) (hRight : right.SameFirstStep j) :
    (union left right k).SameFirstStep (initFrom left right i j) := by
  have hFirst (i : Option left.State) (j : Option right.State) :
      initFrom left right i j >>= step left right k =
        i >>= fun l => (j >>= right.step) >>= fun q => left.step l >>= fun p =>
          resetCurrent left right k
            { left := p.2, right := q.2, leftEnded := !p.1, rightEnded := !q.1,
              nextStepLeft := true, currentAtLeft := none } := by
    unfold initFrom
    simp only [bind_assoc]
    refine congrArg (i >>= ·) (funext fun l => congrArg (j >>= ·) (funext fun r =>
      congrArg (right.step r >>= ·) (funext fun q => ?_)))
    obtain ⟨_ | _, r⟩ := q <;> rfl
  show initFrom left right left.init right.init >>= step left right k =
    initFrom left right i j >>= step left right k
  rw [hFirst, hFirst, hRight]
  cases j >>= right.step with
  | none => cases left.init <;> cases i <;> rfl
  | some q => exact (hLeft.bind fun l => rfl).symm

variable (left : Cursor α)

variable (right : Cursor β)

/-- The initial state of a join, from those of its inputs. -/
def LeftJoinEq.initFrom (i : Option left.State)
    (j : Option right.State) : Option (LeftJoinEq.State α β κ left right) := do
  let l ← i
  let r ← j
  let (ok, r) ← right.step r
  some { left := l, right := r, current := none,
         state := if ok then .s_next_left else .s_only_left,
         hasRightMark := false, rightKeyAtMark := none, rightMark := none }

section

variable (leftKey : α → κ) (rightKey : β → κ) (i : Option left.State) (j : Option right.State)

theorem LeftJoinEq.step_startingIn :
    step (left.startingIn i) (right.startingIn j) leftKey rightKey =
      step left right leftKey rightKey := by
  have hFirst : firstRight (left.startingIn i) (right.startingIn j) leftKey rightKey =
      firstRight left right leftKey rightKey := by
    funext s
    refine congrArg (left.get s.left >>= ·) (funext fun l => ?_)
    rw [Cursor.skipWhile_startingIn]
    refine congrArg (right.skipWhile _ right.bound s.right >>= ·) (funext fun q => ?_)
    obtain ⟨_ | _, r⟩ := q <;> rfl
  have hNext : nextLeft (left.startingIn i) (right.startingIn j) leftKey rightKey =
      nextLeft left right leftKey rightKey := by
    funext s
    refine congrArg (left.step s.left >>= ·) (funext fun q => ?_)
    obtain ⟨_ | _, l⟩ := q
    · rfl
    · exact congrArg (left.get l >>= ·) (funext fun row => by rw [hFirst])
  funext s
  unfold step
  rw [hFirst, hNext]
  cases s.state with
  | s_only_left =>
    refine congrArg (left.step s.left >>= ·) (funext fun q => ?_)
    obtain ⟨_ | _, l⟩ := q <;> rfl
  | s_next_left => rfl
  | s_first_right => rfl
  | s_next_right =>
    refine congrArg (right.step s.right >>= ·) (funext fun q => ?_)
    obtain ⟨_ | _, r⟩ := q <;> rfl

theorem leftJoinEq_startingIn :
    leftJoinEq (left.startingIn i) (right.startingIn j) leftKey rightKey =
      (leftJoinEq left right leftKey rightKey).startingIn (initFrom left right i j) := by
  unfold leftJoinEq
  rw [step_startingIn]
  rfl

end

theorem leftJoinEq_sameFirstStep {left : Cursor α} {right : Cursor β} (leftKey : α → κ)
    (rightKey : β → κ) {i : Option left.State} {j : Option right.State}
    (hLeft : left.SameFirstStep i) (hRight : right.SameFirstStep j) :
    (leftJoinEq left right leftKey rightKey).SameFirstStep
      (LeftJoinEq.initFrom left right i j) := by
  -- with a right row the first step is that of `s_next_left`, without one that of `s_only_left`
  let first (q : Bool × right.State) (l : left.State) : LeftJoinEq.State α β κ left right :=
    { left := l, right := q.2, current := none,
      state := if q.1 then .s_next_left else .s_only_left,
      hasRightMark := false, rightKeyAtMark := none, rightMark := none }
  have hFirst (i : Option left.State) (j : Option right.State) :
      LeftJoinEq.initFrom left right i j >>= LeftJoinEq.step left right leftKey rightKey =
        i >>= fun l => (j >>= right.step) >>= fun q =>
          LeftJoinEq.step left right leftKey rightKey (first q l) := by
    unfold LeftJoinEq.initFrom
    simp only [bind_assoc]
    rfl
  have hOnlyLeft (r : right.State) (l : left.State) :
      LeftJoinEq.step left right leftKey rightKey (first (false, r) l) = left.step l >>= fun p =>
        if p.1 then do
          let s ← LeftJoinEq.makeCurrent left right false (first (false, r) p.2)
          some (true, s)
        else
          some (false, first (false, r) p.2) := by
    refine congrArg (left.step l >>= ·) (funext fun p => ?_)
    obtain ⟨_ | _, l⟩ := p <;> rfl
  have hNextLeft (r : right.State) (l : left.State) :
      LeftJoinEq.step left right leftKey rightKey (first (true, r) l) = left.step l >>= fun p =>
        if p.1 then
          left.get p.2 >>= fun _ =>
            LeftJoinEq.firstRight left right leftKey rightKey (first (true, r) p.2)
        else
          some (false, first (false, r) p.2) := by
    refine congrArg (left.step l >>= ·) (funext fun p => ?_)
    obtain ⟨_ | _, l⟩ := p <;> rfl
  show LeftJoinEq.initFrom left right left.init right.init >>=
    LeftJoinEq.step left right leftKey rightKey = _ >>= LeftJoinEq.step left right leftKey rightKey
  rw [hFirst, hFirst, hRight]
  cases j >>= right.step with
  | none => cases left.init <;> cases i <;> rfl
  | some q =>
    obtain ⟨_ | _, r⟩ := q
    · exact (hLeft.bind (hOnlyLeft r)).symm
    · exact (hLeft.bind (hNextLeft r)).symm

theorem filter_startingIn (source : Cursor α) (pred : α → Bool) (i : Option source.State) :
    filter (source.startingIn i) pred = (filter source pred).startingIn i := by
  have hStep : (filter (source.startingIn i) pred).step = (filter source pred).step := by
    funext s
    refine congrArg (source.step s >>= ·) (funext fun q => ?_)
    obtain ⟨_ | _, s⟩ := q
    · rfl
    · exact Cursor.skipWhile_startingIn source i _ _ s
  exact congrArg (fun step => ({ filter source pred with init := i, step } : Cursor α)) hStep

theorem filter_sameFirstStep {source : Cursor α} (pred : α → Bool) {i : Option source.State}
    (h : source.SameFirstStep i) : (filter source pred).SameFirstStep i :=
  (h.bind fun _ => rfl).symm

/-- The initial state of a projection, from that of its source. -/
def Select.initFrom (β : Type) (source : Cursor α) (i : Option source.State) :
    Option (SelectState β source.State) := do
  let source ← i
  some { source := source, current := none }

theorem select_startingIn (source : Cursor α) (fn : α → β) (i : Option source.State) :
    select (source.startingIn i) fn =
      (select source fn).startingIn (Select.initFrom β source i) := by
  have hStep : (select (source.startingIn i) fn).step = (select source fn).step := by
    funext s
    refine congrArg (source.step s.source >>= ·) (funext fun q => ?_)
    obtain ⟨_ | _, s⟩ := q <;> rfl
  exact congrArg (fun step => ({ select source fn with
    init := Select.initFrom β source i, step } : Cursor β)) hStep

theorem select_sameFirstStep {source : Cursor α} (fn : α → β) {i : Option source.State}
    (h : source.SameFirstStep i) :
    (select source fn).SameFirstStep (Select.initFrom β source i) := by
  have hFirst (s : source.State) : (select source fn).step { source := s, current := none } =
      source.step s >>= fun p =>
        if p.1 then do
          let row ← source.get p.2
          some (true, { source := p.2, current := some (fn row) })
        else
          some (false, { source := p.2, current := none }) := by
    refine congrArg (source.step s >>= ·) (funext fun p => ?_)
    obtain ⟨_ | _, s⟩ := p <;> rfl
  have hSteps (i : Option source.State) : Select.initFrom β source i >>= (select source fn).step =
      i >>= fun s => (select source fn).step { source := s, current := none } := by
    cases i <;> rfl
  exact (hSteps source.init).trans ((h.bind hFirst).symm.trans (hSteps i).symm)

end

/-! ## Fragments -/

namespace SetFragment

variable {Data κ : Type}

/-- The fragment without a window that does not begin with the first item, if a cursor finds a
first item. -/
def forgetWindow (f : SetFragment Data κ) : SetFragment Data κ :=
  if f.firstDirtyItem = none ∧ 0 < f.firstBufferedItem ∧
      (SetFragmentCursor.step f.itemCount (-1)).1 = true then
    { f with buffer := [] }
  else
    f

variable {f : SetFragment Data κ} {l : List Data}

@[simp] theorem forgetWindow_itemCount : f.forgetWindow.itemCount = f.itemCount := by
  unfold forgetWindow
  split <;> rfl

@[simp] theorem forgetWindow_sorted : f.forgetWindow.sorted = f.sorted := by
  unfold forgetWindow
  split <;> rfl

@[simp] theorem forgetWindow_file : f.forgetWindow.file = f.file := by
  unfold forgetWindow
  split <;> rfl

@[simp] theorem forgetWindow_fileSorted : f.forgetWindow.fileSorted = f.fileSorted := by
  unfold forgetWindow
  split <;> rfl

theorem forgetWindow_of_window (h : f.firstDirtyItem ≠ none ∨ f.buffer = []) :
    f.forgetWindow = f := by
  unfold forgetWindow
  split
  · rename_i hStale
    have hEmpty : f.buffer = [] := h.resolve_left fun hDirty => hDirty hStale.1
    rw [← hEmpty]
  · rfl

theorem forgetWindow_clean (h : f.firstDirtyItem = none) :
    f.forgetWindow.firstDirtyItem = none := by
  unfold forgetWindow
  split <;> exact h

@[simp] theorem forgetWindow_forgetWindow : f.forgetWindow.forgetWindow = f.forgetWindow := by
  by_cases hUnread : f.firstDirtyItem = none ∧ 0 < f.firstBufferedItem ∧
      (SetFragmentCursor.step f.itemCount (-1)).1 = true
  · have hForget : f.forgetWindow = { f with buffer := [] } := if_pos hUnread
    rw [hForget]
    exact forgetWindow_of_window (Or.inr rfl)
  · have hForget : f.forgetWindow = f := if_neg hUnread
    rw [hForget, hForget]

theorem forgetWindow_flush : f.flush.forgetWindow = f.forgetWindow.flush := by
  cases hDirty : f.firstDirtyItem with
  | none => rw [flush_of_clean hDirty, flush_of_clean (forgetWindow_clean hDirty)]
  | some d =>
    have hWindow : f.firstDirtyItem ≠ none ∨ f.buffer = [] := Or.inl (by simp [hDirty])
    rw [forgetWindow_of_window hWindow, forgetWindow_of_window (Or.inr (flush_buffer hWindow))]

theorem forgetWindow_holds (h : Holds f l) : Holds f.forgetWindow l := by
  unfold forgetWindow
  split
  · exact ⟨h.count, h.first_le, by simp, h.clean, fun hDirty => by simp_all⟩
  · exact h

variable [LinearOrder κ] {T : ItemType Data κ}

theorem forgetWindow_sort : (f.sort T).forgetWindow = f.forgetWindow.sort T := by
  cases hSorted : f.sorted with
  | true =>
    rw [sort_of_sorted hSorted, sort_of_sorted (forgetWindow_sorted.trans hSorted),
      forgetWindow_flush]
  | false =>
    have hClean := flush_clean (f := f)
    unfold sort
    simp only [← forgetWindow_flush, forgetWindow_sorted, flush_sorted, hSorted,
      false_eq_true, if_false]
    generalize f.flush = g at hClean
    rw [flush_of_clean (by exact hClean), flush_of_clean (by exact forgetWindow_clean hClean)]
    by_cases hUnread : g.firstDirtyItem = none ∧ 0 < g.firstBufferedItem ∧
        (SetFragmentCursor.step g.itemCount (-1)).1 = true
    · have hForget : g.forgetWindow = { g with buffer := [] } := if_pos hUnread
      rw [hForget]
      exact if_pos hUnread
    · have hForget : g.forgetWindow = g := if_neg hUnread
      rw [hForget]
      exact if_neg hUnread

theorem get_zero_forgetWindow : (f.forgetWindow.get T 0).2 = (f.get T 0).2 := by
  unfold forgetWindow
  split
  · rename_i hUnread
    obtain ⟨hClean, hFirst, -⟩ := hUnread
    have hEmpty : { f with buffer := [] }.flushBuffer = { f with buffer := [] } :=
      flushBuffer_of_clean hClean
    unfold get
    rw [if_pos (Or.inl hFirst), if_pos (Or.inl hFirst)]
    unfold bufferFileRange
    rw [hEmpty, flushBuffer_of_clean hClean]
    rfl
  · rfl

/-- The first step of a cursor reads a window again that does not begin with the first item. -/
theorem forgetWindow_cursorStep : cursorStep T (f.forgetWindow, -1) = cursorStep T (f, -1) := by
  unfold cursorStep
  rw [forgetWindow_itemCount]
  rcases hStep : SetFragmentCursor.step f.itemCount (-1) with ⟨_ | _, index⟩
  · have hSame : f.forgetWindow = f := if_neg (by simp [hStep])
    rw [hSame]
  have hIndex : index.toNat = 0 := by
    unfold SetFragmentCursor.step at hStep
    split at hStep
    · cases hStep
    · obtain ⟨-, rfl⟩ := Prod.mk.inj hStep
      rfl
  simp only [hIndex, get_zero_forgetWindow]

theorem forgetWindow_cursor :
    f.forgetWindow.cursor T = (f.cursor T).startingIn (some (f.forgetWindow, -1)) := by
  unfold cursor
  rw [forgetWindow_itemCount]

theorem forgetWindow_sameFirstStep : (f.cursor T).SameFirstStep (some (f.forgetWindow, -1)) :=
  congrArg some forgetWindow_cursorStep.symm

theorem forgetWindow_ready (h : Ready T f l) : Ready T f.forgetWindow l where
  holds := forgetWindow_holds h.holds
  ascending hSorted := h.ascending (by simpa using hSorted)
  fresh hSorted := by
    have hWindow := h.fresh (by simpa using hSorted)
    unfold forgetWindow
    split
    · exact Or.inl (Or.inr rfl)
    · exact hWindow

theorem forgetWindow_create : (create T).forgetWindow = create T :=
  forgetWindow_of_window (Or.inr rfl)

/-! ## Files that are opened again -/

/-- The flag that a flush leaves in the file is not set unless it is set in memory. -/
def FlagKept (f : SetFragment Data κ) : Prop := f.flush.fileSorted = true → f.sorted = true

omit [LinearOrder κ] in
theorem flagKept_of_unset (h : f.fileSorted = false) : FlagKept f := by
  intro hFlag
  cases hDirty : f.firstDirtyItem with
  | none =>
    rw [flush_of_clean hDirty, h] at hFlag
    cases hFlag
  | some d => simpa [flush, hDirty] using hFlag

omit [LinearOrder κ] in
theorem flush_flagKept (h : FlagKept f) : FlagKept f.flush := by
  unfold FlagKept
  rwa [flush_flush, flush_sorted]

theorem sort_flagKept : FlagKept (f.sort T) := by
  intro _
  unfold sort
  simp only
  split
  · assumption
  · rw [flush_sorted]

omit [LinearOrder κ] in
@[simp] theorem flushBuffer_fileSorted : f.flushBuffer.fileSorted = f.fileSorted := by
  cases hDirty : f.firstDirtyItem <;> simp [flushBuffer, writeBlock, hDirty]

theorem append_fileSorted (data : Data) : (f.append T data).fileSorted = f.fileSorted := by
  unfold append
  simp only
  split <;> split <;> simp

theorem appendAll_fileSorted (rows : List Data) :
    (f.appendAll T rows).fileSorted = f.fileSorted := by
  induction rows generalizing f with
  | nil => rfl
  | cons row rows ih => exact (ih (f := f.append T row)).trans (append_fileSorted row)

/-- The window that the constructor leaves begins with the first item, which is also the last but
one, and a sort will move the items behind it. -/
def Misread (T : ItemType Data κ) (file : List Data) (fileSorted : Bool) : Prop :=
  file.length = 2 ∧ fileSorted = false ∧ T.stdSort file ≠ file

theorem forgetWindow_reopen : f.forgetWindow.reopen T = f.reopen T := by
  unfold reopen
  rw [← forgetWindow_flush, forgetWindow_file, forgetWindow_fileSorted]

omit [LinearOrder κ] in
theorem flush_file (h : Holds f.forgetWindow l) : f.flush.file = l := by
  have hClean := (flush_holds h).clean flush_clean
  rwa [← forgetWindow_flush, forgetWindow_file] at hClean

section

variable (file : List Data) (fileSorted : Bool)

theorem openFile_window : (openFile T file fileSorted).firstDirtyItem = none ∧
      (openFile T file fileSorted).firstBufferedItem = file.length - 2 ∧
      (openFile T file fileSorted).fileSorted = fileSorted := by
  unfold openFile
  simp only
  split
  · rename_i hPos
    have hBehind : file.length - 1 < 0 ∨ file.length - 1 ≥ 0 + ([] : List Data).length :=
      Or.inr (Nat.zero_le _)
    simp only [get]
    rw [if_pos hBehind]
    refine ⟨rfl, ?_, rfl⟩
    show (if file.length - 1 = 0 then 0 else file.length - 1 - 1) = file.length - 2
    split <;> omega
  · exact ⟨rfl, by simp_all, rfl⟩

theorem openFile_flagKept : FlagKept (openFile T file fileSorted) := by
  obtain ⟨hClean, -, hFlag⟩ := openFile_window (T := T) file fileSorted
  unfold FlagKept
  rw [flush_of_clean hClean, hFlag, openFile_sorted]
  intro hSet
  rw [hSet, Bool.or_true]

end

/-- The window of a fragment that is opened again is right after a sort, or it is not read. -/
theorem openFile_ready {fileSorted : Bool} (hSize : l.length < 2 ^ 64)
    (hAsc : fileSorted = true → l.Pairwise fun a b => T.pkey a ≤ T.pkey b)
    (hMisread : ¬ Misread T l fileSorted) :
    Ready T (openFile T l fileSorted).forgetWindow l := by
  have hHolds := openFile_holds (T := T) l fileSorted
  obtain ⟨hClean, hFirst, -⟩ := openFile_window (T := T) l fileSorted
  have hFlag := openFile_sorted (T := T) l fileSorted
  refine ⟨forgetWindow_holds hHolds, fun hSorted => ?_, fun hUnsorted => ?_⟩
  · rw [forgetWindow_sorted, hFlag, or_eq_true] at hSorted
    rcases hSorted with hEmpty | hSet
    · obtain rfl : l = [] := by simpa using hEmpty
      exact List.Pairwise.nil
    · exact hAsc hSet
  · rw [forgetWindow_sorted, hFlag, or_eq_false_iff] at hUnsorted
    have hPos : 0 < l.length := Nat.pos_of_ne_zero (by simpa using hUnsorted.1)
    rcases lt_trichotomy l.length 2 with hOne | hTwo | hMore
    · -- one item is not moved
      obtain ⟨x, rfl⟩ := List.length_eq_one_iff.mp (by omega : l.length = 1)
      exact Or.inr (List.perm_singleton.mp (T.stdSort_perm [x]))
    · refine Or.inr ?_
      by_contra hMoved
      exact hMisread ⟨hTwo, hUnsorted.2, hMoved⟩
    · refine Or.inl (Or.inr ?_)
      have hStep : SetFragmentCursor.step (openFile T l fileSorted).itemCount (-1) =
          (true, -1 + 1) := by
        rw [hHolds.count]
        exact SetFragmentCursor.step_of_lt hSize (by simpa using hPos)
      have hForget : (openFile T l fileSorted).forgetWindow =
          { openFile T l fileSorted with buffer := [] } :=
        if_pos ⟨hClean, by omega, by rw [hStep]⟩
      rw [hForget]

end SetFragment

end Fhgfs.Fsck
