import Fhgfs.Lib.Cursor

/-!
# Union (`db::unionBy`)

A union keeps both inputs one row ahead: the right one is stepped in the constructor, the
left one by the first `step`. The smaller of the two rows is handed out, on equal keys the
right one. Once an input has ended it is neither stepped nor restored again, so nothing is
known about its state but that it has been stepped and restored only as a cursor may be.
-/

namespace Fhgfs.Fsck

open List Option
open Cursor (Spec Reads Position Simulates)

structure UnionState (σ τ : Type) where
  left : σ
  right : τ
  leftEnded : Bool
  rightEnded : Bool
  nextStepLeft : Bool
  /-- `none` until the first `resetCurrent`: the constructor does not set the field. -/
  currentAtLeft : Option Bool

structure UnionMark (μ ν : Type) where
  leftMark : μ
  rightMark : ν
  leftEnded : Bool
  rightEnded : Bool
  nextStepLeft : Bool

namespace Union

variable {α κ : Type} [LinearOrder κ] (left right : Cursor α) (keyExtract : α → κ)

abbrev State := UnionState left.State right.State

variable (s : State left right)

def resetCurrent : Option (Bool × State left right) :=
  if s.leftEnded ∧ s.rightEnded then
    some (false, s)
  else if s.leftEnded then
    some (true, { s with currentAtLeft := some false })
  else if s.rightEnded then
    some (true, { s with currentAtLeft := some true })
  else do
    let l ← left.get s.left
    let r ← right.get s.right
    if keyExtract l < keyExtract r then
      some (true, { s with currentAtLeft := some true, nextStepLeft := true })
    else
      some (true, { s with currentAtLeft := some false, nextStepLeft := false })

def stepLeft : Option (Bool × State left right) := do
  let (ok, l) ← left.step s.left
  resetCurrent left right keyExtract { s with left := l, leftEnded := !ok }

def stepRight : Option (Bool × State left right) := do
  let (ok, r) ← right.step s.right
  resetCurrent left right keyExtract { s with right := r, rightEnded := !ok }

def step : Option (Bool × State left right) :=
  if s.leftEnded ∧ s.rightEnded then
    some (false, s)
  else if s.leftEnded then
    stepRight left right keyExtract s
  else if s.rightEnded then
    stepLeft left right keyExtract s
  else if s.nextStepLeft then
    stepLeft left right keyExtract s
  else
    stepRight left right keyExtract s

def get (s : State left right) : Option α := do
  if ← s.currentAtLeft then left.get s.left else right.get s.right

def mark (s : State left right) : UnionMark left.Marker right.Marker where
  leftMark := left.mark s.left
  rightMark := right.mark s.right
  leftEnded := s.leftEnded
  rightEnded := s.rightEnded
  nextStepLeft := s.nextStepLeft

def restoreInput (c : Cursor α) (ended : Bool) (mark : c.Marker) (s : c.State) : Option c.State :=
  if ended then some s else c.restore mark s

def restore (mark : UnionMark left.Marker right.Marker) (s : State left right) :
    Option (State left right) := do
  let l ← restoreInput left mark.leftEnded mark.leftMark s.left
  let r ← restoreInput right mark.rightEnded mark.rightMark s.right
  let (_, s) ← resetCurrent left right keyExtract
    { s with left := l, right := r, leftEnded := mark.leftEnded,
             rightEnded := mark.rightEnded, nextStepLeft := mark.nextStepLeft }
  some s

end Union

def union {α κ : Type} [LinearOrder κ] (left right : Cursor α) (keyExtract : α → κ) : Cursor α where
  State := Union.State left right
  Marker := UnionMark left.Marker right.Marker
  init := do
    let l ← left.init
    let r ← right.init
    let (ok, r) ← right.step r
    some { left := l, right := r, leftEnded := false, rightEnded := !ok, nextStepLeft := true,
           currentAtLeft := none }
  step := Union.step left right keyExtract
  get := Union.get left right
  mark := Union.mark left right
  restore := Union.restore left right keyExtract
  bound := left.bound + right.bound

namespace Union

variable {α κ : Type} [LinearOrder κ] {left right : Cursor α} {keyExtract : α → κ}
  {lspec rspec : Spec α} {L : left.State → Position α → Prop}
  {R : right.State → Position α → Prop}

def mergeRows (keyExtract : α → κ) (l r : List α) : List α :=
  l.merge r fun a b => decide (keyExtract a < keyExtract b)

/-- The element behind the last row is the one of the input that had the last row. -/
def residual (keyExtract : α → κ) (el er : Option α) : List α → List α → Option α
  | [], _ => er
  | _ :: _, [] => el
  | x :: l, y :: r =>
    if keyExtract x < keyExtract y then
      residual keyExtract el er l (y :: r)
    else
      residual keyExtract el er (x :: l) r
termination_by l r => l.length + r.length

def spec (keyExtract : α → κ) (lspec rspec : Spec α) : Spec α where
  rows := mergeRows keyExtract lspec.rows rspec.rows
  residual := residual keyExtract lspec.residual rspec.residual lspec.rows rspec.rows
  Readable := mergeRows keyExtract lspec.rows rspec.rows ≠ []
  Restorable := True

@[simp] theorem mergeRows_nil_left (r : List α) : mergeRows keyExtract [] r = r := nil_merge r

@[simp] theorem mergeRows_nil_right (l : List α) : mergeRows keyExtract l [] = l := merge_right l

variable {l r : List α}

theorem mergeRows_of_lt {x y : α} (h : keyExtract x < keyExtract y) :
    mergeRows keyExtract (x :: l) (y :: r) = x :: mergeRows keyExtract l (y :: r) :=
  cons_merge_cons_pos _ l r (decide_eq_true h)

theorem mergeRows_of_not_lt {x y : α} (h : ¬ keyExtract x < keyExtract y) :
    mergeRows keyExtract (x :: l) (y :: r) = y :: mergeRows keyExtract (x :: l) r :=
  cons_merge_cons_neg _ l r (by simpa using h)

theorem mergeRows_eq_nil : mergeRows keyExtract l r = [] ↔ l = [] ∧ r = [] := by
  rw [mergeRows, ← length_eq_zero_iff, length_merge]
  simp

theorem mergeRows_perm (l r : List α) : (mergeRows keyExtract l r).Perm (l ++ r) :=
  merge_perm_append _

theorem mem_mergeRows {x : α} : x ∈ mergeRows keyExtract l r ↔ x ∈ l ∨ x ∈ r := by
  rw [(mergeRows_perm l r).mem_iff, mem_append]

theorem mergeRows_ascending_of {κ' : Type} [LinearOrder κ'] {key : α → κ'}
    (hLe : ∀ a b, keyExtract a ≤ keyExtract b → key a ≤ key b)
    (hl : l.Pairwise fun a b => key a ≤ key b) (hr : r.Pairwise fun a b => key a ≤ key b) :
    (mergeRows keyExtract l r).Pairwise fun a b => key a ≤ key b := by
  induction l generalizing r with
  | nil => simpa using hr
  | cons x l ihl =>
    induction r with
    | nil => simpa using hl
    | cons y r ihr =>
      obtain ⟨hx, hl'⟩ := pairwise_cons.mp hl
      obtain ⟨hy, hr'⟩ := pairwise_cons.mp hr
      by_cases hLt : keyExtract x < keyExtract y
      · have hxy := hLe x y hLt.le
        rw [mergeRows_of_lt hLt, pairwise_cons]
        refine ⟨fun a ha => ?_, ihl hl' hr⟩
        rcases mem_append.mp ((mergeRows_perm l (y :: r)).subset ha) with ha | ha
        · exact hx a ha
        · rcases mem_cons.mp ha with rfl | ha
          · exact hxy
          · exact hxy.trans (hy a ha)
      · have hyx := hLe y x (not_lt.mp hLt)
        rw [mergeRows_of_not_lt hLt, pairwise_cons]
        refine ⟨fun a ha => ?_, ihr hr'⟩
        rcases mem_append.mp ((mergeRows_perm (x :: l) r).subset ha) with ha | ha
        · rcases mem_cons.mp ha with rfl | ha
          · exact hyx
          · exact hyx.trans (hx a ha)
        · exact hy a ha

theorem mergeRows_ascending {key : α → κ} (hl : l.Pairwise fun a b => key a ≤ key b)
    (hr : r.Pairwise fun a b => key a ≤ key b) :
    (mergeRows key l r).Pairwise fun a b => key a ≤ key b :=
  mergeRows_ascending_of (fun _ _ h => h) hl hr

theorem left_sublist_mergeRows (l r : List α) : l.Sublist (mergeRows keyExtract l r) := by
  induction l generalizing r with
  | nil => exact nil_sublist _
  | cons x l ihl =>
    induction r with
    | nil => simp
    | cons y r ihr =>
      by_cases hLt : keyExtract x < keyExtract y
      · rw [mergeRows_of_lt hLt]
        exact (ihl (y :: r)).cons_cons x
      · rw [mergeRows_of_not_lt hLt]
        exact ihr.cons y

theorem right_sublist_mergeRows (l r : List α) : r.Sublist (mergeRows keyExtract l r) := by
  induction l generalizing r with
  | nil => simp
  | cons x l ihl =>
    induction r with
    | nil => exact nil_sublist _
    | cons y r ihr =>
      by_cases hLt : keyExtract x < keyExtract y
      · rw [mergeRows_of_lt hLt]
        exact (ihl (y :: r)).cons x
      · rw [mergeRows_of_not_lt hLt]
        exact ihr.cons_cons y

theorem mergeRows_ascending_iff {key : α → κ} :
    ((mergeRows key l r).Pairwise fun a b => key a ≤ key b) ↔
      (l.Pairwise fun a b => key a ≤ key b) ∧ r.Pairwise fun a b => key a ≤ key b :=
  ⟨fun h => ⟨h.sublist (left_sublist_mergeRows l r), h.sublist (right_sublist_mergeRows l r)⟩,
    fun h => mergeRows_ascending h.1 h.2⟩

/-! ## One input -/

/-- An input of the union with the rows that it has not handed out yet. -/
def Side {c : Cursor α} (R : c.State → Position α → Prop) (ended : Bool) (s : c.State) :
    List α → Prop
  | [] => ended = true ∧ ∃ p, R s p
  | x :: rest => ended = false ∧ R s (.row x rest)

theorem Side.exists_position {c : Cursor α} {R : c.State → Position α → Prop} {ended : Bool}
    {s : c.State} {l : List α} (h : Side R ended s l) : ∃ p, R s p := by
  cases l with
  | nil => exact h.2
  | cons x rest => exact ⟨_, h.2⟩

variable {p : Position α}

section

variable {c : Cursor α} {spec : Spec α} {R : c.State → Position α → Prop}

theorem side_of_step (h : Reads c spec R) {s : c.State} (hs : R s p) :
    ∃ ok s', c.step s = some (ok, s') ∧ Side R (!ok) s' (p.remaining spec.rows) := by
  obtain ⟨s', hStep, hs'⟩ := h.step hs
  rw [Position.next_eq] at hStep hs'
  refine ⟨_, s', hStep, ?_⟩
  cases hRest : p.remaining spec.rows with
  | nil =>
    rw [hRest] at hs'
    exact ⟨rfl, _, hs'⟩
  | cons x rest =>
    rw [hRest] at hs'
    exact ⟨rfl, hs'⟩

theorem Side.restore (h : Reads c spec R) {ended : Bool} {s₀ s : c.State} {l : List α}
    (hs₀ : Side R ended s₀ l) (hs : R s p) :
    ∃ s', restoreInput c ended (c.mark s₀) s = some s' ∧ Side R ended s' l := by
  cases l with
  | nil => exact ⟨s, if_pos hs₀.1, hs₀.1, _, hs⟩
  | cons x rest =>
    obtain ⟨s', hRestore, hs'⟩ := h.restore hs₀.2 hs
    exact ⟨s', by simp [restoreInput, hs₀.1, hRestore], hs₀.1, hs'⟩

end

/-! ## Both inputs -/

/-- The inputs have `l` and `r` to hand out, and with them the union its last rows. -/
structure Pending (keyExtract : α → κ) (lspec rspec : Spec α)
    (L : left.State → Position α → Prop) (R : right.State → Position α → Prop)
    (s : State left right) (l r : List α) : Prop where
  left : Side L s.leftEnded s.left l
  right : Side R s.rightEnded s.right r
  suffix : mergeRows keyExtract l r <:+ mergeRows keyExtract lspec.rows rspec.rows
  residual : residual keyExtract lspec.residual rspec.residual l r =
    (spec keyExtract lspec rspec).residual

/-- The input that has the current row; `nextStepLeft` matters only while both have one. -/
def Chosen (keyExtract : α → κ) (s : State left right) : List α → List α → Prop
  | [], _ => s.currentAtLeft = some false
  | _ :: _, [] => s.currentAtLeft = some true
  | x :: _, y :: _ => s.currentAtLeft = some (decide (keyExtract x < keyExtract y)) ∧
      s.nextStepLeft = decide (keyExtract x < keyExtract y)

def At (keyExtract : α → κ) (lspec rspec : Spec α) (L : left.State → Position α → Prop)
    (R : right.State → Position α → Prop) (s : State left right) : Position α → Prop
  | .start => L s.left .start ∧ s.leftEnded = false ∧ s.nextStepLeft = true ∧
      Side R s.rightEnded s.right rspec.rows
  | .row x rest => ∃ l r, Pending keyExtract lspec rspec L R s l r ∧ Chosen keyExtract s l r ∧
      mergeRows keyExtract l r = x :: rest
  | .ended => s.leftEnded = true ∧ s.rightEnded = true ∧ (∃ p, L s.left p) ∧
      (∃ p, R s.right p) ∧ (mergeRows keyExtract lspec.rows rspec.rows ≠ [] →
        ∃ x, get left right s = some x)

variable {s : State left right}

section

variable (hl : Reads left lspec L)
include hl

variable (hr : Reads right rspec R)
include hr

theorem resetCurrent_spec
    (hs : Pending keyExtract lspec rspec L R s l r) (hNe : mergeRows keyExtract l r ≠ []) :
    ∃ s', resetCurrent left right keyExtract s = some (true, s') ∧
      At keyExtract lspec rspec L R s' (.ofList (mergeRows keyExtract l r)) := by
  obtain ⟨hLeft, hRight, hSuffix, hLast⟩ := hs
  rcases l with _ | ⟨x, l⟩ <;> rcases r with _ | ⟨y, r⟩
  · simp at hNe
  · rw [mergeRows_nil_left]
    refine ⟨{ s with currentAtLeft := some false }, ?_, _, _,
      ⟨hLeft, hRight, hSuffix, hLast⟩, rfl, by simp⟩
    simp [resetCurrent, hLeft.1, hRight.1]
  · rw [mergeRows_nil_right]
    refine ⟨{ s with currentAtLeft := some true }, ?_, _, _,
      ⟨hLeft, hRight, hSuffix, hLast⟩, rfl, by simp⟩
    simp [resetCurrent, hLeft.1, hRight.1]
  · by_cases hLt : keyExtract x < keyExtract y
    · rw [mergeRows_of_lt hLt]
      refine ⟨{ s with currentAtLeft := some true, nextStepLeft := true }, ?_, _, _,
        ⟨hLeft, hRight, hSuffix, hLast⟩, ?_, mergeRows_of_lt hLt⟩
      · simp [resetCurrent, hLeft.1, hRight.1, hl.get hLeft.2, hr.get hRight.2, hLt]
      · simp [Chosen, hLt]
    · rw [mergeRows_of_not_lt hLt]
      refine ⟨{ s with currentAtLeft := some false, nextStepLeft := false }, ?_, _, _,
        ⟨hLeft, hRight, hSuffix, hLast⟩, ?_, mergeRows_of_not_lt hLt⟩
      · simp [resetCurrent, hLeft.1, hRight.1, hl.get hLeft.2, hr.get hRight.2, hLt]
      · simp [Chosen, hLt]

section

variable (hSuffix : mergeRows keyExtract l r <:+ mergeRows keyExtract lspec.rows rspec.rows)
  (hLast : residual keyExtract lspec.residual rspec.residual l r =
    (spec keyExtract lspec rspec).residual) (hNe : mergeRows keyExtract l r ≠ [])
include hSuffix hLast hNe

theorem stepLeft_spec (hLeft : L s.left p) (hl' : p.remaining lspec.rows = l)
    (hRight : Side R s.rightEnded s.right r) :
    ∃ s', stepLeft left right keyExtract s = some (true, s') ∧
      At keyExtract lspec rspec L R s' (.ofList (mergeRows keyExtract l r)) := by
  obtain ⟨ok, left', hStep, hSide⟩ := side_of_step hl hLeft
  rw [hl'] at hSide
  obtain ⟨s', hReset, hs'⟩ := resetCurrent_spec hl hr
    (s := { s with left := left', leftEnded := !ok }) ⟨hSide, hRight, hSuffix, hLast⟩ hNe
  exact ⟨s', by simp [stepLeft, hStep, hReset], hs'⟩

theorem stepRight_spec (hRight : R s.right p) (hr' : p.remaining rspec.rows = r)
    (hLeft : Side L s.leftEnded s.left l) :
    ∃ s', stepRight left right keyExtract s = some (true, s') ∧
      At keyExtract lspec rspec L R s' (.ofList (mergeRows keyExtract l r)) := by
  obtain ⟨ok, right', hStep, hSide⟩ := side_of_step hr hRight
  rw [hr'] at hSide
  obtain ⟨s', hReset, hs'⟩ := resetCurrent_spec hl hr
    (s := { s with right := right', rightEnded := !ok }) ⟨hLeft, hSide, hSuffix, hLast⟩ hNe
  exact ⟨s', by simp [stepRight, hStep, hReset], hs'⟩

end

theorem step_last {x : α} (hs : At keyExtract lspec rspec L R s (.row x [])) :
    ∃ s', step left right keyExtract s = some (false, s') ∧
      At keyExtract lspec rspec L R s' .ended ∧
      get left right s' = (spec keyExtract lspec rspec).residual := by
  obtain ⟨l, r, ⟨hLeft, hRight, hSuffix, hLast⟩, hChosen, hRows⟩ := hs
  rw [← hLast]
  have hLen := congrArg length hRows
  rw [mergeRows, length_merge, length_cons, length_nil] at hLen
  rcases l with _ | ⟨y, l⟩
  · obtain ⟨z, rfl⟩ := length_eq_one_iff.mp (by simpa using hLen)
    obtain ⟨hEnded, p, hp⟩ := hLeft
    obtain ⟨right', hStep, hs'⟩ := hr.step hRight.2
    have hGet := hr.residual hRight.2 hStep
    change s.currentAtLeft = some false at hChosen
    refine ⟨{ s with right := right', rightEnded := true }, ?_,
      ⟨hEnded, rfl, ⟨p, hp⟩, ⟨_, hs'⟩, fun _ => ?_⟩, ?_⟩
    · simp [step, hEnded, hRight.1, stepRight, hStep, resetCurrent]
    · have hNe : rspec.rows ≠ [] := ne_nil_of_length_pos
        (lt_of_lt_of_le (by simp) (hr.suffix hRight.2).length_le)
      simpa [get, hChosen] using hr.readable (hr.readable_of_rows hNe) hs' (by simp)
    · simp [get, hChosen, hGet, residual]
  · obtain ⟨rfl, rfl⟩ : l = [] ∧ r = [] := by
      simp only [length_cons] at hLen
      exact ⟨length_eq_zero_iff.mp (by omega), length_eq_zero_iff.mp (by omega)⟩
    obtain ⟨hEnded, p, hp⟩ := hRight
    obtain ⟨left', hStep, hs'⟩ := hl.step hLeft.2
    have hGet := hl.residual hLeft.2 hStep
    change s.currentAtLeft = some true at hChosen
    refine ⟨{ s with left := left', leftEnded := true }, ?_,
      ⟨rfl, hEnded, ⟨_, hs'⟩, ⟨p, hp⟩, fun _ => ?_⟩, ?_⟩
    · simp [step, hEnded, hLeft.1, stepLeft, hStep, resetCurrent]
    · have hNe : lspec.rows ≠ [] := ne_nil_of_length_pos
        (lt_of_lt_of_le (by simp) (hl.suffix hLeft.2).length_le)
      simpa [get, hChosen] using hl.readable (hl.readable_of_rows hNe) hs' (by simp)
    · simp [get, hChosen, hGet, residual]

theorem step_row {x y : α} {rest : List α}
    (hs : At keyExtract lspec rspec L R s (.row x (y :: rest))) :
    ∃ s', step left right keyExtract s = some (true, s') ∧
      At keyExtract lspec rspec L R s' (.row y rest) := by
  obtain ⟨l, r, ⟨hLeft, hRight, hSuffix, hLast⟩, hChosen, hRows⟩ := hs
  have hRest : y :: rest <:+ mergeRows keyExtract lspec.rows rspec.rows :=
    (suffix_cons x _).trans (hRows ▸ hSuffix)
  rcases l with _ | ⟨a, l⟩ <;> rcases r with _ | ⟨b, r⟩
  · simp at hRows
  · obtain ⟨rfl, rfl⟩ : b = x ∧ r = y :: rest := by simpa using hRows
    obtain ⟨s', hStep, hs'⟩ := stepRight_spec (l := []) hl hr
      (by simpa [Position.remaining] using hRest) (by simpa [residual] using hLast)
      (by simp [Position.remaining]) hRight.2 rfl hLeft
    exact ⟨s', by simpa [step, hLeft.1, hRight.1] using hStep,
      by simpa [Position.remaining] using hs'⟩
  · obtain ⟨rfl, rfl⟩ : a = x ∧ l = y :: rest := by simpa using hRows
    obtain ⟨s', hStep, hs'⟩ := stepLeft_spec (r := []) hl hr
      (by simpa [Position.remaining] using hRest)
      (by simpa [residual, Position.remaining] using hLast) (by simp [Position.remaining])
      hLeft.2 rfl hRight
    exact ⟨s', by simpa [step, hLeft.1, hRight.1] using hStep,
      by simpa [Position.remaining] using hs'⟩
  · have hNext := hChosen.2
    by_cases hLt : keyExtract a < keyExtract b
    · rw [mergeRows_of_lt hLt] at hRows
      obtain ⟨rfl, hTail⟩ := cons.inj hRows
      rw [residual, if_pos hLt] at hLast
      obtain ⟨s', hStep, hs'⟩ := stepLeft_spec hl hr
        (by simpa [hTail] using hRest) hLast
        (by simp [hTail]) hLeft.2 rfl hRight
      exact ⟨s', by simpa [step, hLeft.1, hRight.1, hNext, hLt] using hStep,
        by simpa [Position.remaining, hTail] using hs'⟩
    · rw [mergeRows_of_not_lt hLt] at hRows
      obtain ⟨rfl, hTail⟩ := cons.inj hRows
      rw [residual, if_neg hLt] at hLast
      obtain ⟨s', hStep, hs'⟩ := stepRight_spec hl hr
        (by simpa [hTail] using hRest) hLast
        (by simp [hTail]) hRight.2 rfl hLeft
      exact ⟨s', by simpa [step, hLeft.1, hRight.1, hNext, hLt] using hStep,
        by simpa [Position.remaining, hTail] using hs'⟩

theorem step_start (hs : At keyExtract lspec rspec L R s .start) :
    ∃ s', step left right keyExtract s = some
        ((Position.ofList (mergeRows keyExtract lspec.rows rspec.rows)).isRow, s') ∧
      At keyExtract lspec rspec L R s' (.ofList (mergeRows keyExtract lspec.rows rspec.rows)) := by
  obtain ⟨hLeft, hEnded, hNext, hRight⟩ := hs
  -- the left input is stepped, whether or not the right one has a row
  have hStep : step left right keyExtract s = stepLeft left right keyExtract s := by
    simp [step, hEnded, hNext]
  rw [hStep]
  by_cases hNil : mergeRows keyExtract lspec.rows rspec.rows = []
  · obtain ⟨hl', hr'⟩ := mergeRows_eq_nil.mp hNil
    rw [hr'] at hRight
    obtain ⟨hRightEnded, p, hp⟩ := hRight
    obtain ⟨left', hStep, hs'⟩ := hl.step hLeft
    rw [Position.next_start, hl'] at hStep hs'
    rw [hNil]
    exact ⟨{ s with left := left', leftEnded := true },
      by simp [stepLeft, hStep, resetCurrent, hRightEnded],
      rfl, hRightEnded, ⟨_, hs'⟩, ⟨p, hp⟩, fun hNe => absurd hNil hNe⟩
  · obtain ⟨s', hStep, hs'⟩ := stepLeft_spec hl hr suffix_rfl rfl hNil hLeft rfl hRight
    obtain ⟨x, rest, hRows⟩ := exists_cons_of_ne_nil hNil
    refine ⟨s', ?_, hs'⟩
    rw [hStep, hRows]
    rfl

theorem step_spec (hs : At keyExtract lspec rspec L R s p) :
    ∃ s', step left right keyExtract s =
        some ((p.next (spec keyExtract lspec rspec).rows).isRow, s') ∧
      At keyExtract lspec rspec L R s' (p.next (spec keyExtract lspec rspec).rows) := by
  cases p with
  | start => exact step_start hl hr hs
  | row x rest =>
    cases rest with
    | nil =>
      obtain ⟨s', hStep, hs', -⟩ := step_last hl hr hs
      exact ⟨s', hStep, hs'⟩
    | cons y rest => exact step_row hl hr hs
  | ended => exact ⟨s, by simp [step, hs.1, hs.2.1], hs⟩

end

theorem at_inputs
    (hs : At keyExtract lspec rspec L R s p) : (∃ p, L s.left p) ∧ ∃ p, R s.right p := by
  cases p with
  | start => exact ⟨⟨_, hs.1⟩, hs.2.2.2.exists_position⟩
  | row x rest =>
    obtain ⟨l, r, hs, -⟩ := hs
    exact ⟨hs.left.exists_position, hs.right.exists_position⟩
  | ended => exact ⟨hs.2.2.1, hs.2.2.2.1⟩

section

variable (hl : Reads left lspec L)
include hl

variable (hr : Reads right rspec R)
include hr

theorem get_spec {x : α} {rest : List α} (hs : At keyExtract lspec rspec L R s (.row x rest)) :
    get left right s = some x := by
  obtain ⟨l, r, ⟨hLeft, hRight, -, -⟩, hChosen, hRows⟩ := hs
  rcases l with _ | ⟨a, l⟩ <;> rcases r with _ | ⟨b, r⟩
  · simp at hRows
  · obtain ⟨rfl, -⟩ : b = x ∧ _ := by simpa using hRows
    change s.currentAtLeft = some false at hChosen
    simp [get, hChosen, hr.get hRight.2]
  · obtain ⟨rfl, -⟩ : a = x ∧ _ := by simpa using hRows
    change s.currentAtLeft = some true at hChosen
    simp [get, hChosen, hl.get hLeft.2]
  · have hCurrent := hChosen.1
    by_cases hLt : keyExtract a < keyExtract b
    · rw [mergeRows_of_lt hLt] at hRows
      obtain ⟨rfl, -⟩ := cons.inj hRows
      simp [get, hCurrent, hLt, hl.get hLeft.2]
    · rw [mergeRows_of_not_lt hLt] at hRows
      obtain ⟨rfl, -⟩ := cons.inj hRows
      simp [get, hCurrent, hLt, hr.get hRight.2]

theorem readable_spec (hs : At keyExtract lspec rspec L R s p)
    (hRows : mergeRows keyExtract lspec.rows rspec.rows ≠ []) (hStart : p ≠ .start) :
    ∃ x, get left right s = some x := by
  cases p with
  | start => exact absurd rfl hStart
  | row x rest => exact ⟨x, get_spec hl hr hs⟩
  | ended => exact hs.2.2.2.2 hRows

theorem restore_spec {s₀ s : State left right} {x : α} {rest : List α}
    (hs₀ : At keyExtract lspec rspec L R s₀ (.row x rest))
    (hs : At keyExtract lspec rspec L R s p) :
    ∃ s', restore left right keyExtract (mark left right s₀) s = some s' ∧
      At keyExtract lspec rspec L R s' (.row x rest) := by
  obtain ⟨l, r, hPending, -, hRows⟩ := hs₀
  obtain ⟨⟨p, hp⟩, q, hq⟩ := at_inputs hs
  obtain ⟨left', hLeft, hLeft'⟩ := hPending.left.restore hl hp
  obtain ⟨right', hRight, hRight'⟩ := hPending.right.restore hr hq
  obtain ⟨s', hReset, hs'⟩ := resetCurrent_spec hl hr
    (s := { s with left := left', right := right', leftEnded := s₀.leftEnded,
                   rightEnded := s₀.rightEnded, nextStepLeft := s₀.nextStepLeft })
    ⟨hLeft', hRight', hPending.suffix, hPending.residual⟩ (by simp [hRows])
  rw [hRows] at hs'
  exact ⟨s', by simp [restore, mark, hLeft, hRight, hReset], hs'⟩

theorem reads :
    Reads (union left right keyExtract) (spec keyExtract lspec rspec)
      (At keyExtract lspec rspec L R) where
  init := by
    obtain ⟨l, hInitL, hL⟩ := hl.init
    obtain ⟨r, hInitR, hR⟩ := hr.init
    obtain ⟨ok, r', hStep, hSide⟩ := side_of_step hr hR
    exact ⟨⟨l, r', false, !ok, true, none⟩, by simp [union, hInitL, hInitR, hStep],
      hL, rfl, rfl, hSide⟩
  suffix := by
    rintro s x rest ⟨l, r, hs, -, hRows⟩
    exact hRows ▸ hs.suffix
  get := get_spec hl hr
  step := step_spec hl hr
  bound := by
    have := hl.bound
    have := hr.bound
    simp only [spec, mergeRows, length_merge, union]
    omega
  residual := by
    intro s s' x b hs hStep
    obtain ⟨s'', hLast, -, hGet⟩ := step_last hl hr hs
    obtain rfl := Cursor.state_eq_of_step hLast hStep
    exact hGet
  readable_of_rows h := h
  readable hRows hs hStart := readable_spec hl hr hs hRows hStart
  restore := restore_spec hl hr
  restore_ended := by
    intro s₀ s p _ hs₀ hs hStart
    obtain ⟨hp, hq⟩ := at_inputs hs
    refine ⟨{ s with leftEnded := true, rightEnded := true, nextStepLeft := s₀.nextStepLeft },
      ?_, rfl, rfl, hp, hq, fun hRows => ?_⟩
    · simp [union, restore, restoreInput, mark, hs₀.1, hs₀.2.1, resetCurrent]
    · exact readable_spec (s := s) hl hr hs hRows hStart

end

theorem settled (hs : At keyExtract lspec rspec L R s .ended) :
    (union left right keyExtract).Settled s := by
  obtain ⟨hLeft, hRight, -⟩ := hs
  have hReset : resetCurrent left right keyExtract s = some (false, s) := if_pos ⟨hLeft, hRight⟩
  refine ⟨if_pos ⟨hLeft, hRight⟩, ?_⟩
  obtain ⟨_, _, _, _, _, _⟩ := s
  simp_all [union, restore, restoreInput, mark]

/-! ## Inputs that do the same -/

section Simulation

variable {c d : Cursor α} {f : left.State → c.State} {g : right.State → d.State}
  {m : left.Marker → c.Marker} {m' : right.Marker → d.Marker}

def mapState (f : left.State → c.State) (g : right.State → d.State) (s : State left right) :
    State c d :=
  { s with left := f s.left, right := g s.right }

def mapMark (m : left.Marker → c.Marker) (m' : right.Marker → d.Marker)
    (mark : UnionMark left.Marker right.Marker) : UnionMark c.Marker d.Marker :=
  { mark with leftMark := m mark.leftMark, rightMark := m' mark.rightMark }

variable (hl : Simulates left c f m) (hr : Simulates right d g m')
include hl hr

variable {s s' : State left right}

theorem resetCurrent_simulates {b : Bool}
    (h : resetCurrent left right keyExtract s = some (b, s')) :
    resetCurrent c d keyExtract (mapState f g s) = some (b, mapState f g s') := by
  unfold resetCurrent at h ⊢
  by_cases hBoth : s.leftEnded = true ∧ s.rightEnded = true
  · rw [if_pos hBoth] at h
    cases h
    exact if_pos hBoth
  rw [if_neg hBoth] at h
  refine (if_neg hBoth).trans ?_
  by_cases hLeft : s.leftEnded = true
  · rw [if_pos hLeft] at h
    cases h
    exact if_pos hLeft
  rw [if_neg hLeft] at h
  refine (if_neg hLeft).trans ?_
  by_cases hRight : s.rightEnded = true
  · rw [if_pos hRight] at h
    cases h
    exact if_pos hRight
  rw [if_neg hRight] at h
  refine (if_neg hRight).trans ?_
  obtain ⟨x, hx, hRest⟩ := bind_eq_some_iff.mp h
  obtain ⟨y, hy, hNext⟩ := bind_eq_some_iff.mp hRest
  refine bind_eq_some_iff.mpr ⟨x, hl.get hx, bind_eq_some_iff.mpr ⟨y, hr.get hy, ?_⟩⟩
  by_cases hLt : keyExtract x < keyExtract y
  · rw [if_pos hLt] at hNext
    cases hNext
    exact if_pos hLt
  · rw [if_neg hLt] at hNext
    cases hNext
    exact if_neg hLt

theorem stepLeft_simulates {b : Bool} (h : stepLeft left right keyExtract s = some (b, s')) :
    stepLeft c d keyExtract (mapState f g s) = some (b, mapState f g s') := by
  obtain ⟨⟨ok, l⟩, hStep, hNext⟩ := bind_eq_some_iff.mp h
  exact bind_eq_some_iff.mpr ⟨_, hl.step hStep, resetCurrent_simulates hl hr hNext⟩

theorem stepRight_simulates {b : Bool} (h : stepRight left right keyExtract s = some (b, s')) :
    stepRight c d keyExtract (mapState f g s) = some (b, mapState f g s') := by
  obtain ⟨⟨ok, r⟩, hStep, hNext⟩ := bind_eq_some_iff.mp h
  exact bind_eq_some_iff.mpr ⟨_, hr.step hStep, resetCurrent_simulates hl hr hNext⟩

theorem simulates : Simulates (union left right keyExtract) (union c d keyExtract)
    (mapState f g) (mapMark m m') where
  init {s} hInit := by
    obtain ⟨l, hLeft, hRest⟩ := bind_eq_some_iff.mp hInit
    obtain ⟨r, hRight, hNext⟩ := bind_eq_some_iff.mp hRest
    obtain ⟨⟨ok, r'⟩, hStep, hSome⟩ := bind_eq_some_iff.mp hNext
    cases hSome
    exact bind_eq_some_iff.mpr ⟨_, hl.init hLeft, bind_eq_some_iff.mpr
      ⟨_, hr.init hRight, bind_eq_some_iff.mpr ⟨_, hr.step hStep, rfl⟩⟩⟩
  step {s b s'} hStep := by
    change step left right keyExtract s = some (b, s') at hStep
    show step c d keyExtract (mapState f g s) = some (b, mapState f g s')
    unfold step at hStep ⊢
    by_cases hBoth : s.leftEnded = true ∧ s.rightEnded = true
    · rw [if_pos hBoth] at hStep
      cases hStep
      exact if_pos hBoth
    rw [if_neg hBoth] at hStep
    refine (if_neg hBoth).trans ?_
    by_cases hLeft : s.leftEnded = true
    · rw [if_pos hLeft] at hStep
      exact (if_pos hLeft).trans (stepRight_simulates hl hr hStep)
    rw [if_neg hLeft] at hStep
    refine (if_neg hLeft).trans ?_
    by_cases hRight : s.rightEnded = true
    · rw [if_pos hRight] at hStep
      exact (if_pos hRight).trans (stepLeft_simulates hl hr hStep)
    rw [if_neg hRight] at hStep
    refine (if_neg hRight).trans ?_
    by_cases hNext : s.nextStepLeft = true
    · rw [if_pos hNext] at hStep
      exact (if_pos hNext).trans (stepLeft_simulates hl hr hStep)
    · rw [if_neg hNext] at hStep
      exact (if_neg hNext).trans (stepRight_simulates hl hr hStep)
  get {s x} hGet := by
    obtain ⟨atLeft, hSide, hElem⟩ := bind_eq_some_iff.mp hGet
    refine bind_eq_some_iff.mpr ⟨atLeft, hSide, ?_⟩
    cases atLeft with
    | true => exact hl.get hElem
    | false => exact hr.get hElem
  mark s := by
    show Union.mark c d (mapState f g s) = mapMark m m' (Union.mark left right s)
    simp only [Union.mark, mapState, mapMark, hl.mark, hr.mark]
  bound := by
    show left.bound + right.bound = c.bound + d.bound
    rw [hl.bound, hr.bound]

end Simulation

end Union

end Fhgfs.Fsck
