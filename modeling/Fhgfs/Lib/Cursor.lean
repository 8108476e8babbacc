import Mathlib.Data.List.Infix
import Mathlib.Order.Lattice

/-!
# Cursors with marks

A cursor hands out the rows of a query one at a time: `step` moves on and says whether there
is a row, `get` reads the row it stands on, `mark` names the place and `restore` goes back
there. Cursors are built over cursors, and an operation of the outer one can read a row that
the inner one does not have; such an operation has the result `none`.

`Reads` is what one cursor has to promise so that another can be built over it: its states
stand at positions of a list of rows, and marks of a state lead back to its position. From it
follow, for any cursor, `Yields` (the rows that come out when it is stepped to the end) and
`RestoresMarks` (after a restore the same rows come out as at the time of the mark).
-/

namespace Fhgfs

structure Cursor (α : Type) where
  State : Type
  Marker : Type
  init : Option State
  step : State → Option (Bool × State)
  get : State → Option α
  mark : State → Marker
  restore : Marker → State → Option State
  /-- At least the number of rows: the fuel of the loops over this cursor. -/
  bound : Nat

namespace Cursor

variable {α : Type} (c : Cursor α)

/-- `while(p(*get())) if(!step()) return false; return true;` -/
def skipWhile (p : α → Bool) : Nat → c.State → Option (Bool × c.State)
  | 0, _ => none
  | n + 1, s => do
    let x ← c.get s
    if p x then
      match ← c.step s with
      | (false, s) => some (false, s)
      | (true, s) => skipWhile p n s
    else
      some (true, s)

/-- The rows that come out of `s` until `step` returns false. -/
inductive Yields : c.State → List α → Prop
  | done {s s' : c.State} : c.step s = some (false, s') → Yields s []
  | row {s s' : c.State} {x : α} {out : List α} : c.step s = some (true, s') →
      c.get s' = some x → Yields s' out → Yields s (x :: out)

def YieldsAll (out : List α) : Prop := ∃ s, c.init = some s ∧ c.Yields s out

/-- The states that stepping gets to, with the rows that have come out on the way. -/
inductive Walked : List α → c.State → Prop
  | init {s : c.State} : c.init = some s → Walked [] s
  | row {out : List α} {s s' : c.State} {x : α} : Walked out s → c.step s = some (true, s') →
      c.get s' = some x → Walked (out ++ [x]) s'
  | ended {out : List α} {s s' : c.State} : Walked out s → c.step s = some (false, s') →
      Walked out s'

/-- `Yields` by running the cursor, for at most `n` steps. -/
def collect : Nat → c.State → Option (List α)
  | 0, _ => none
  | n + 1, s => do
    match ← c.step s with
    | (false, _) => some []
    | (true, s) =>
      let x ← c.get s
      let out ← collect n s
      some (x :: out)

/-- The rows of a loop `while(step())` over the whole cursor. -/
def readAll : Option (List α) := c.init >>= c.collect (c.bound + 1)

/-- The rows that come out of `s`, and the state behind them. -/
def drain : Nat → c.State → Option (List α × c.State)
  | 0, _ => none
  | n + 1, s => do
    match ← c.step s with
    | (false, s) => some ([], s)
    | (true, s) =>
      let x ← c.get s
      let (out, s) ← drain n s
      some (x :: out, s)

/-- As `readAll`, with the state in which the loop leaves the cursor. -/
def drainAll : Option (List α × c.State) := c.init >>= c.drain (c.bound + 1)

/-- Neither a step nor a restore of its own mark changes the ended cursor. -/
def Settled (s : c.State) : Prop :=
  c.step s = some (false, s) ∧ c.restore (c.mark s) s = some s

variable {c}

theorem state_eq_of_step {a b : Bool} {s s₁ s₂ : c.State} (h₁ : c.step s = some (a, s₁))
    (h₂ : c.step s = some (b, s₂)) : s₁ = s₂ :=
  (Prod.mk.inj (Option.some.inj (h₁.symm.trans h₂))).2

theorem Yields.functional {s : c.State} {out out' : List α} (h : c.Yields s out)
    (h' : c.Yields s out') : out = out' := by
  induction h generalizing out' with
  | done hStep =>
    cases h' with
    | done _ => rfl
    | row hStep' _ _ => simp [hStep] at hStep'
  | row hStep hGet _ ih =>
    cases h' with
    | done hStep' => simp [hStep] at hStep'
    | row hStep' hGet' hRest =>
      obtain rfl : _ = _ := by simpa [hStep] using hStep'
      obtain rfl : _ = _ := by simpa [hGet] using hGet'
      rw [ih hRest]

theorem Yields.of_cons {s : c.State} {x : α} {out : List α} (h : c.Yields s (x :: out)) :
    ∃ s', c.step s = some (true, s') ∧ c.get s' = some x ∧ c.Yields s' out := by
  cases h with
  | row hStep hGet hRest => exact ⟨_, hStep, hGet, hRest⟩

theorem YieldsAll.functional {out out' : List α} (h : c.YieldsAll out)
    (h' : c.YieldsAll out') : out = out' := by
  obtain ⟨s, hs, hOut⟩ := h
  obtain ⟨s', hs', hOut'⟩ := h'
  obtain rfl : s = s' := by simpa [hs] using hs'
  exact hOut.functional hOut'

section

variable {n : Nat} {s : c.State} {out : List α}

theorem yields_of_collect (h : c.collect n s = some out) : c.Yields s out := by
  induction n generalizing s out with
  | zero => simp [collect] at h
  | succ n ih =>
    unfold collect at h
    rcases hStep : c.step s with _ | ⟨_ | _, s'⟩
    · simp [hStep] at h
    · obtain rfl : [] = out := by simpa [hStep] using h
      exact .done hStep
    rw [hStep] at h
    rcases hGet : c.get s' with _ | x
    · simp [hGet] at h
    · rcases hRest : c.collect n s' with _ | rest
      · simp [hGet, hRest] at h
      · obtain rfl : x :: rest = out := by simpa [hGet, hRest] using h
        exact .row hStep hGet (ih hRest)

theorem collect_of_yields (h : c.Yields s out)
    (hn : out.length < n) : c.collect n s = some out := by
  induction h generalizing n with
  | done hStep =>
    obtain ⟨n, rfl⟩ := Nat.exists_eq_succ_of_ne_zero (Nat.ne_zero_of_lt hn)
    simp [collect, hStep]
  | row hStep hGet _ ih =>
    obtain ⟨n, rfl⟩ := Nat.exists_eq_succ_of_ne_zero (Nat.ne_zero_of_lt hn)
    simp [collect, hStep, hGet, ih (by simpa using hn)]

end

theorem yieldsAll_of_collect {n : Nat} {out : List α}
    (h : (c.init >>= c.collect n) = some out) : c.YieldsAll out := by
  rcases hs : c.init with _ | s
  · simp [hs] at h
  · exact ⟨s, hs, yields_of_collect (by simpa [hs] using h)⟩

/-! ## Positions -/

/-- Where a cursor stands: before the first row, on `x` with `rest` to come, or behind the
last row. -/
inductive Position (α : Type)
  | start
  | row (x : α) (rest : List α)
  | ended

namespace Position

def ofList : List α → Position α
  | [] => ended
  | x :: rest => row x rest

variable (rows : List α)

/-- The position after one more step over `rows`. -/
def next : Position α → Position α
  | start => ofList rows
  | row _ rest => ofList rest
  | ended => ended

def isRow : Position α → Bool
  | row _ _ => true
  | _ => false

/-- The rows that are still to come. -/
def remaining : Position α → List α
  | start => rows
  | row _ rest => rest
  | ended => []

@[simp] theorem ofList_nil : ofList ([] : List α) = ended := rfl

@[simp] theorem ofList_cons (x : α) (rest : List α) : ofList (x :: rest) = row x rest := rfl

@[simp] theorem next_start : start.next rows = ofList rows := rfl

@[simp] theorem next_row (x : α) (rest : List α) : (row x rest).next rows = ofList rest := rfl

@[simp] theorem next_ended : ended.next rows = ended := rfl

@[simp] theorem isRow_row (x : α) (rest : List α) : (row x rest).isRow = true := rfl

@[simp] theorem isRow_ended : (ended : Position α).isRow = false := rfl

@[simp] theorem ofList_ne_start (l : List α) : ofList l ≠ start := by cases l <;> simp [ofList]

theorem next_eq (p : Position α) : p.next rows = ofList (p.remaining rows) := by
  cases p <;> rfl

theorem next_ne_start (p : Position α) : p.next rows ≠ start := by
  rw [next_eq]
  exact ofList_ne_start _

theorem remaining_ofList (rows l : List α) : (ofList l).remaining rows = l.tail := by
  cases l <;> rfl

end Position

/-! ## Cursors over a list of rows -/

/-- What a cursor is to do: its rows, what `get` finds behind the last row, whether `get`
finds something wherever the cursor has been stepped to, and whether a mark made behind the
last row can be restored. -/
structure Spec (α : Type) where
  rows : List α
  residual : Option α
  Readable : Prop
  Restorable : Prop

/-- Stepping `c` visits the positions of `rows` in order; `R` tells which states stand
where. -/
structure Steps (c : Cursor α) (rows : List α) (R : c.State → Position α → Prop) : Prop where
  init : ∃ s, c.init = some s ∧ R s .start
  suffix {s x rest} : R s (.row x rest) → x :: rest <:+ rows
  get {s x rest} : R s (.row x rest) → c.get s = some x
  step {s p} : R s p → ∃ s', c.step s = some ((p.next rows).isRow, s') ∧ R s' (p.next rows)

structure Reads (c : Cursor α) (spec : Spec α) (R : c.State → Position α → Prop) : Prop
    extends Steps c spec.rows R where
  bound : spec.rows.length ≤ c.bound
  residual {s s' x b} : R s (.row x []) → c.step s = some (b, s') → c.get s' = spec.residual
  readable_of_rows : spec.rows ≠ [] → spec.Readable
  readable {s p} : spec.Readable → R s p → p ≠ .start → ∃ x, c.get s = some x
  restore {s₀ x rest s p} : R s₀ (.row x rest) → R s p →
    ∃ s', c.restore (c.mark s₀) s = some s' ∧ R s' (.row x rest)
  restore_ended {s₀ s p} : spec.Restorable → R s₀ .ended → R s p → p ≠ .start →
    ∃ s', c.restore (c.mark s₀) s = some s' ∧ R s' .ended

namespace Steps

variable {rows : List α} {R : c.State → Position α → Prop}

variable (h : Steps c rows R)
include h

theorem yields {s : c.State} {p : Position α} (hs : R s p) : c.Yields s (p.remaining rows) := by
  generalize hOut : p.remaining rows = out
  induction out generalizing s p with
  | nil =>
    obtain ⟨s', hStep, -⟩ := h.step hs
    rw [Position.next_eq, hOut] at hStep
    exact .done hStep
  | cons x out ih =>
    obtain ⟨s', hStep, hs'⟩ := h.step hs
    rw [Position.next_eq, hOut] at hStep hs'
    exact .row hStep (h.get hs') (ih hs' rfl)

theorem yieldsAll : c.YieldsAll rows := by
  obtain ⟨s, hs, hStart⟩ := h.init
  exact ⟨s, hs, h.yields hStart⟩

theorem drain {n : Nat} {s : c.State} {p : Position α} (hs : R s p)
    (hn : (p.remaining rows).length < n) :
    ∃ s', c.drain n s = some (p.remaining rows, s') ∧ R s' .ended := by
  induction n generalizing s p with
  | zero => omega
  | succ n ih =>
    obtain ⟨s₁, hStep, hs₁⟩ := h.step hs
    unfold Cursor.drain
    simp only [hStep, Option.bind_eq_bind, Option.bind_some]
    rw [Position.next_eq] at hs₁ ⊢
    cases hOut : p.remaining rows with
    | nil =>
      rw [hOut] at hs₁
      exact ⟨s₁, rfl, hs₁⟩
    | cons x out =>
      rw [hOut] at hs₁ hn
      obtain ⟨s', hRest, hs'⟩ := ih hs₁ (Nat.lt_of_succ_lt_succ hn)
      rw [Position.remaining_ofList, List.tail_cons] at hRest
      exact ⟨s', by simp [h.get hs₁, hRest], hs'⟩

theorem skipWhile (p : α → Bool) {n : Nat} {s : c.State} {x : α}
    {rest : List α} (hs : R s (.row x rest)) (hn : rest.length < n) :
    ∃ s', c.skipWhile p n s = some ((Position.ofList ((x :: rest).dropWhile p)).isRow, s') ∧
      R s' (.ofList ((x :: rest).dropWhile p)) ∧
      ((x :: rest).dropWhile p = [] → ∃ s₀ y b, R s₀ (.row y []) ∧ c.step s₀ = some (b, s')) := by
  induction n generalizing s x rest with
  | zero => omega
  | succ n ih =>
    unfold Cursor.skipWhile
    simp only [h.get hs, Option.bind_eq_bind, Option.bind_some]
    cases hp : p x with
    | false =>
      rw [List.dropWhile_cons_of_neg (by simp [hp])]
      exact ⟨s, rfl, hs, by simp⟩
    | true =>
      rw [List.dropWhile_cons_of_pos hp]
      obtain ⟨s', hStep, hs'⟩ := h.step hs
      cases rest with
      | nil =>
        exact ⟨s', by simp [hStep], by simpa using hs', fun _ => ⟨s, x, _, hs, hStep⟩⟩
      | cons y rest =>
        obtain ⟨s'', hLoop, hs'', hEnd⟩ := ih hs' (by simpa using hn)
        exact ⟨s'', by simp [hStep, hLoop], hs'', hEnd⟩

theorem length_lt {n : Nat} (hn : rows.length ≤ n) {s : c.State} {x : α}
    {rest : List α} (hs : R s (.row x rest)) : rest.length < n := by
  have := (h.suffix hs).length_le
  simp only [List.length_cons] at this
  omega

end Steps

/-! ## Marks -/

/-- The states of a cursor over any run of steps and restores; the flag says that the cursor
stands on a row, so that a mark may be made. -/
inductive Visited (c : Cursor α) : Bool → c.State → Prop
  | init {s : c.State} : c.init = some s → Visited c false s
  | step {b b' : Bool} {s s' : c.State} : Visited c b s → c.step s = some (b', s') →
      Visited c b' s'
  | restore {b : Bool} {s₀ s s' : c.State} : Visited c true s₀ → Visited c b s →
      c.restore (c.mark s₀) s = some s' → Visited c true s'

/-- From any state, restoring a mark that was made on a row brings back this row and all the
output that followed it. -/
def RestoresMarks (c : Cursor α) : Prop :=
  ∀ {b : Bool} {s₀ s : c.State}, Visited c true s₀ → Visited c b s →
    ∃ s' x out, c.restore (c.mark s₀) s = some s' ∧ c.get s₀ = some x ∧ c.get s' = some x ∧
      c.Yields s₀ out ∧ c.Yields s' out

namespace Reads

variable {spec : Spec α} {R : c.State → Position α → Prop}

section

variable (h : Reads c spec R)
include h

theorem visited {b : Bool} {s : c.State} (hs : Visited c b s) :
    ∃ p, R s p ∧ (b = true → ∃ x rest, p = .row x rest) := by
  induction hs with
  | init hInit =>
    obtain ⟨s', hs', hStart⟩ := h.init
    obtain rfl : _ = _ := by simpa [hInit] using hs'
    exact ⟨.start, hStart, by simp⟩
  | @step b b' s s' _ hStep ih =>
    obtain ⟨p, hp, -⟩ := ih
    obtain ⟨s'', hStep', hs''⟩ := h.step hp
    obtain ⟨rfl, rfl⟩ : b' = _ ∧ s' = s'' := by simpa [hStep] using hStep'
    refine ⟨_, hs'', fun hRow => ?_⟩
    cases hNext : p.next spec.rows with
    | row x rest => exact ⟨x, rest, rfl⟩
    | start => exact absurd hNext (Position.next_ne_start _ _)
    | ended => simp [hNext] at hRow
  | restore _ _ hRestore ih₀ ih =>
    obtain ⟨p₀, hp₀, hRow⟩ := ih₀
    obtain ⟨x, rest, rfl⟩ := hRow rfl
    obtain ⟨p, hp, -⟩ := ih
    obtain ⟨s'', hs'', hR⟩ := h.restore hp₀ hp
    obtain rfl : _ = _ := by simpa [hRestore] using hs''
    exact ⟨_, hR, fun _ => ⟨x, rest, rfl⟩⟩

theorem restoresMarks : RestoresMarks c := by
  intro b s₀ s hs₀ hs
  obtain ⟨p₀, hp₀, hRow⟩ := h.visited hs₀
  obtain ⟨x, rest, rfl⟩ := hRow rfl
  obtain ⟨p, hp, -⟩ := h.visited hs
  obtain ⟨s', hRestore, hs'⟩ := h.restore hp₀ hp
  exact ⟨s', x, rest, hRestore, h.get hp₀, h.get hs', h.yields hp₀, h.yields hs'⟩

theorem readAll : c.readAll = some spec.rows := by
  obtain ⟨s, hInit, hOut⟩ := h.yieldsAll
  have hCollect := collect_of_yields hOut (Nat.lt_succ_of_le h.bound)
  simp [Cursor.readAll, hInit, hCollect]

theorem drainAll : ∃ s, c.drainAll = some (spec.rows, s) ∧ R s .ended := by
  obtain ⟨s, hInit, hs⟩ := h.init
  obtain ⟨s', hDrain, hs'⟩ := h.toSteps.drain (n := c.bound + 1) hs (Nat.lt_succ_of_le h.bound)
  refine ⟨s', ?_, hs'⟩
  rwa [Cursor.drainAll, hInit]

theorem skipWhile (p : α → Bool) {s : c.State} {x : α} {rest : List α} (hs : R s (.row x rest)) :
    ∃ s', c.skipWhile p c.bound s = some ((Position.ofList ((x :: rest).dropWhile p)).isRow, s') ∧
      R s' (.ofList ((x :: rest).dropWhile p)) ∧
      ((x :: rest).dropWhile p = [] → c.get s' = spec.residual) := by
  obtain ⟨s', hLoop, hs', hEnd⟩ := h.toSteps.skipWhile p hs (h.length_lt h.bound hs)
  refine ⟨s', hLoop, hs', fun hNil => ?_⟩
  obtain ⟨s₀, y, b, hs₀, hStep⟩ := hEnd hNil
  exact h.residual hs₀ hStep

end

end Reads

/-! ## Snapshots as marks -/

/-- The cursor with whole states as marks, which a restore takes back. -/
def withSnapshots (c : Cursor α) : Cursor α where
  State := c.State
  Marker := c.State
  init := c.init
  step := c.step
  get := c.get
  mark := id
  restore mark _ := some mark
  bound := c.bound

theorem Steps.reads_withSnapshots {spec : Spec α} {R : c.State → Position α → Prop}
    (h : Steps c spec.rows R) (hBound : spec.rows.length ≤ c.bound)
    (hResidual : ∀ {s s' x b}, R s (.row x []) → c.step s = some (b, s') → c.get s' = spec.residual)
    (hOfRows : spec.rows ≠ [] → spec.Readable)
    (hReadable : ∀ {s p}, spec.Readable → R s p → p ≠ .start → ∃ x, c.get s = some x) :
    Reads c.withSnapshots spec R where
  init := h.init
  suffix := h.suffix
  get := h.get
  step := h.step
  bound := hBound
  residual := hResidual
  readable_of_rows := hOfRows
  readable := hReadable
  restore hs _ := ⟨_, rfl, hs⟩
  restore_ended _ hs _ _ := ⟨_, rfl, hs⟩

/-- `d` does what `c` does, with the states `f s` and the marks `m a` for `s` and `a`. -/
structure Simulates (c d : Cursor α) (f : c.State → d.State) (m : c.Marker → d.Marker) :
    Prop where
  init {s} : c.init = some s → d.init = some (f s)
  step {s b s'} : c.step s = some (b, s') → d.step (f s) = some (b, f s')
  get {s x} : c.get s = some x → d.get (f s) = some x
  mark (s) : d.mark (f s) = m (c.mark s)
  bound : c.bound = d.bound

theorem withSnapshots_simulates (c : Cursor α) :
    Simulates c.withSnapshots c (fun s => s) c.mark where
  init h := h
  step h := h
  get h := h
  mark _ := rfl
  bound := rfl

namespace Simulates

variable {c d : Cursor α} {f : c.State → d.State} {m : c.Marker → d.Marker}
  (h : Simulates c d f m)
include h

theorem yields {s : c.State} {out : List α} (hOut : c.Yields s out) : d.Yields (f s) out := by
  induction hOut with
  | done hStep => exact .done (h.step hStep)
  | row hStep hGet _ ih => exact .row (h.step hStep) (h.get hGet) ih

theorem yieldsAll {out : List α} (hOut : c.YieldsAll out) : d.YieldsAll out := by
  obtain ⟨s, hs, hRows⟩ := hOut
  exact ⟨f s, h.init hs, h.yields hRows⟩

theorem skipWhile (p : α → Bool) {n : Nat} {s s' : c.State} {b : Bool}
    (hLoop : c.skipWhile p n s = some (b, s')) : d.skipWhile p n (f s) = some (b, f s') := by
  induction n generalizing s with
  | zero => cases hLoop
  | succ n ih =>
    unfold Cursor.skipWhile at hLoop ⊢
    rcases hGet : c.get s with _ | x
    · simp [hGet] at hLoop
    simp only [hGet, h.get hGet, Option.bind_eq_bind, Option.bind_some] at hLoop ⊢
    split_ifs at hLoop ⊢ with hp
    · rcases hStep : c.step s with _ | ⟨_ | _, s₁⟩
      · simp [hStep] at hLoop
      · simp only [hStep, h.step hStep, Option.bind_some, Option.some.injEq,
          Prod.mk.injEq] at hLoop ⊢
        exact ⟨hLoop.1, congrArg f hLoop.2⟩
      · simp only [hStep, h.step hStep, Option.bind_some] at hLoop ⊢
        exact ih hLoop
    · rw [Option.some.injEq, Prod.mk.injEq] at hLoop ⊢
      exact ⟨hLoop.1, congrArg f hLoop.2⟩

end Simulates

/-! ## Cursors that differ before the first step only -/

/-- The cursor `c`, made with another state. -/
abbrev startingIn (c : Cursor α) (init : Option c.State) : Cursor α := { c with init }

section

variable (c : Cursor α) (init : Option c.State)

theorem collect_startingIn (n : Nat) (s : c.State) :
    (c.startingIn init).collect n s = c.collect n s := by
  induction n generalizing s with
  | zero => rfl
  | succ n ih =>
    refine congrArg (c.step s >>= ·) (funext fun r => ?_)
    obtain ⟨_ | _, s⟩ := r
    · rfl
    · exact congrArg (c.get s >>= ·) (funext fun x => congrArg (· >>= _) (ih s))

theorem drain_startingIn (n : Nat) (s : c.State) : (c.startingIn init).drain n s = c.drain n s := by
  induction n generalizing s with
  | zero => rfl
  | succ n ih =>
    refine congrArg (c.step s >>= ·) (funext fun r => ?_)
    obtain ⟨_ | _, s⟩ := r
    · rfl
    · exact congrArg (c.get s >>= ·) (funext fun x => congrArg (· >>= _) (ih s))

theorem skipWhile_startingIn (p : α → Bool) (n : Nat)
    (s : c.State) : (c.startingIn init).skipWhile p n s = c.skipWhile p n s := by
  induction n generalizing s with
  | zero => rfl
  | succ n ih =>
    refine congrArg (c.get s >>= ·) (funext fun x => ?_)
    refine ite_congr rfl (fun _ => ?_) fun _ => rfl
    refine congrArg (c.step s >>= ·) (funext fun r => ?_)
    obtain ⟨_ | _, s⟩ := r
    · rfl
    · exact ih s

end

/-- The first step from `init` leads to the same as that from the state that `c` is made with. -/
def SameFirstStep (c : Cursor α) (init : Option c.State) : Prop :=
  (c.init >>= c.step) = (init >>= c.step)

theorem SameFirstStep.refl (c : Cursor α) : c.SameFirstStep c.init := rfl

section

variable {init : Option c.State} (h : c.SameFirstStep init)
include h

theorem SameFirstStep.bind {β : Type}
    {g : c.State → Option β} {k : Bool × c.State → Option β} (hg : ∀ s, g s = c.step s >>= k) :
    init >>= g = c.init >>= g := by
  rw [funext hg, ← bind_assoc, ← bind_assoc, h]

theorem SameFirstStep.readAll : (c.startingIn init).readAll = c.readAll := by
  unfold Cursor.readAll
  rw [funext (collect_startingIn c init _)]
  exact h.bind fun s => rfl

theorem SameFirstStep.drainAll : (c.startingIn init).drainAll = c.drainAll := by
  unfold Cursor.drainAll
  rw [funext (drain_startingIn c init _)]
  exact h.bind fun s => rfl

end

end Cursor

end Fhgfs
