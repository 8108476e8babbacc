import Fhgfs.Lib.Cursor
import Mathlib.Data.List.TakeWhile

/-!
# Group (`db::groupBy`)

A group cursor reads its source until the key changes and hands out one row for the run of
equal keys. The source then stands on the first row of the next group, so a mark is not the
mark of the source now but the one taken at the first row of the group, `currentMark`.
-/

namespace Fhgfs.Fsck

open List Option
open Cursor (Spec Reads Position)

/-- The operations of a group, with the state of the object that has them. -/
structure GroupOps (α κ π γ : Type) where
  State : Type
  initial : State
  key : α → κ
  project : α → π
  step : State → α → State
  finish : State → γ × State
  /-- After `finish` the object answers like a new one. -/
  finish_asNew (s : State) (rows : List α) :
    (finish (rows.foldl step (finish s).2)).1 = (finish (rows.foldl step initial)).1

namespace GroupOps

variable {α κ π γ : Type} (ops : GroupOps α κ π γ)

def value (rows : List α) : γ := (ops.finish (rows.foldl ops.step ops.initial)).1

def AsNew (s : ops.State) : Prop :=
  ∀ rows : List α, (ops.finish (rows.foldl ops.step s)).1 = ops.value rows

end GroupOps

structure GroupState (ρ σ μ τ : Type) where
  source : σ
  ops : τ
  current : Option ρ
  currentMark : Option μ
  sourceIsActive : Bool

namespace Group

variable {α κ π γ : Type} [DecidableEq κ] (source : Cursor α) (ops : GroupOps α κ π γ)

/-- The loop of `groupCurrentSet`, with the new `sourceIsActive`. -/
def groupLoop (currentKey : κ) :
    Nat → source.State → ops.State → Option (Bool × source.State × ops.State)
  | 0, _, _ => none
  | n + 1, src, st => do
    match ← source.step src with
    | (false, src) => some (false, src, st)
    | (true, src) =>
      let row ← source.get src
      if ¬ currentKey = ops.key row then
        some (true, src, st)
      else
        groupLoop currentKey n src (ops.step st row)

abbrev State := GroupState (π × γ) source.State source.Marker ops.State

def groupCurrentSet (s : State source ops) : Option (State source ops) := do
  let row ← source.get s.source
  let (active, src, st) ←
    groupLoop source ops (ops.key row) source.bound s.source (ops.step s.ops row)
  let (result, st) := ops.finish st
  some {
    source := src
    ops := st
    current := some (ops.project row, result)
    currentMark := some (source.mark s.source)
    sourceIsActive := active }

end Group

def group {α κ π γ : Type} [DecidableEq κ] (source : Cursor α) (ops : GroupOps α κ π γ) :
    Cursor (π × γ) where
  State := Group.State source ops
  Marker := Option source.Marker
  init := do
    let source ← source.init
    some { source, ops := ops.initial, current := none, currentMark := none,
           sourceIsActive := false }
  step s := do
    if s.sourceIsActive then
      let s ← Group.groupCurrentSet source ops s
      some (true, s)
    else
      match ← source.step s.source with
      | (false, src) => some (false, { s with source := src })
      | (true, src) =>
        let s ← Group.groupCurrentSet source ops { s with source := src }
        some (true, s)
  get s := s.current
  mark s := s.currentMark
  restore mark s := do
    let src ← source.restore (← mark) s.source
    Group.groupCurrentSet source ops { s with source := src }
  bound := source.bound

namespace Group

variable {α κ π γ : Type} [DecidableEq κ] {source : Cursor α} {ops : GroupOps α κ π γ}
  {src : Spec α} {R : source.State → Position α → Prop}

def groupRows (ops : GroupOps α κ π γ) : List α → List (π × γ)
  | [] => []
  | x :: rest =>
    (ops.project x, ops.value (x :: rest.takeWhile fun y => ops.key x = ops.key y)) ::
      groupRows ops (rest.dropWhile fun y => ops.key x = ops.key y)
termination_by rows => rows.length
decreasing_by
  simpa [Nat.lt_succ_iff] using (List.dropWhile_suffix _).length_le

theorem groupRows_nil : groupRows ops [] = [] := by rw [groupRows]

theorem groupRows_cons (x : α) (rest : List α) : groupRows ops (x :: rest) =
    (ops.project x, ops.value (x :: rest.takeWhile fun y => ops.key x = ops.key y)) ::
      groupRows ops (rest.dropWhile fun y => ops.key x = ops.key y) := by rw [groupRows]

theorem groupRows_eq_nil {rows : List α} : groupRows ops rows = [] ↔ rows = [] := by
  cases rows with
  | nil => simp [groupRows_nil]
  | cons x rest => simp [groupRows_cons]

/-- A group has the projection of its first row, so the groups go through the rows in order. -/
theorem groupRows_firsts_sublist (ops : GroupOps α κ π γ) (rows : List α) :
    ((groupRows ops rows).map Prod.fst).Sublist (rows.map ops.project) := by
  fun_induction groupRows ops rows with
  | case1 => exact List.Sublist.refl []
  | case2 x rest ih =>
    exact (ih.trans ((dropWhile_sublist _).map _)).cons_cons (ops.project x)

theorem exists_groupRows (ops : GroupOps α κ π γ) {rows : List α} {x : α} (h : x ∈ rows) :
    ∃ y ∈ rows, ops.key y = ops.key x ∧ ops.project y ∈ (groupRows ops rows).map Prod.fst := by
  fun_induction groupRows ops rows with
  | case1 => cases h
  | case2 y rest ih =>
    by_cases hHere : ops.key y = ops.key x
    · exact ⟨y, mem_cons_self, hHere, mem_cons_self⟩
    have hLater : x ∈ rest.dropWhile fun z => decide (ops.key y = ops.key z) := by
      rcases mem_cons.mp h with rfl | hRest
      · exact absurd rfl hHere
      · rw [← takeWhile_append_dropWhile (p := fun z => decide (ops.key y = ops.key z))
          (l := rest)] at hRest
        refine (mem_append.mp hRest).resolve_left fun hTake => hHere ?_
        simpa using mem_takeWhile_imp hTake
    obtain ⟨z, hz, hKey, hProject⟩ := ih hLater
    exact ⟨z, mem_cons_of_mem y ((dropWhile_suffix _).subset hz), hKey, mem_cons_of_mem _ hProject⟩

theorem length_groupRows_le (rows : List α) : (groupRows ops rows).length ≤ rows.length := by
  fun_induction groupRows ops rows with
  | case1 => simp
  | case2 x rest ih =>
    have := (dropWhile_suffix (l := rest) fun y => ops.key x = ops.key y).length_le
    simp only [length_cons]
    omega

/-- The current row, the mark of its first source row, and the source behind the group. -/
structure OnGroup (src : Spec α) (R : source.State → Position α → Prop) (s : State source ops)
    (g : π × γ) (rest : List (π × γ)) (behind : List α) : Prop where
  suffix : g :: rest <:+ groupRows ops src.rows
  current : s.current = some g
  mark : ∃ s₀ x t, R s₀ (.row x t) ∧ s.currentMark = some (source.mark s₀) ∧
    groupRows ops (x :: t) = g :: rest
  active : s.sourceIsActive = (Position.ofList behind).isRow
  source : R s.source (.ofList behind)
  rest : groupRows ops behind = rest
  asNew : ops.AsNew s.ops

def At (src : Spec α) (R : source.State → Position α → Prop) (s : State source ops) :
    Position (π × γ) → Prop
  | .start => R s.source .start ∧ s.sourceIsActive = false ∧ ops.AsNew s.ops
  | .row g rest => ∃ behind, OnGroup src R s g rest behind
  | .ended => R s.source .ended ∧ s.sourceIsActive = false ∧ ops.AsNew s.ops ∧
      (src.rows ≠ [] → ∃ g, OnGroup src R s g [] [])

def spec (ops : GroupOps α κ π γ) (src : Spec α) : Spec (π × γ) where
  rows := groupRows ops src.rows
  residual := (groupRows ops src.rows).getLast?
  Readable := src.rows ≠ []
  Restorable := src.rows ≠ []

theorem groupLoop_spec (h : Reads source src R) (k : κ) {n : Nat} {s : source.State} {x : α}
    {rest : List α} (st : ops.State) (hs : R s (.row x rest)) (hn : rest.length < n) :
    ∃ s', groupLoop source ops k n s st =
        some ((Position.ofList (rest.dropWhile fun y => k = ops.key y)).isRow, s',
          (rest.takeWhile fun y => k = ops.key y).foldl ops.step st) ∧
      R s' (.ofList (rest.dropWhile fun y => k = ops.key y)) := by
  induction n generalizing s x rest st with
  | zero => omega
  | succ n ih =>
    obtain ⟨s', hStep, hs'⟩ := h.step hs
    unfold groupLoop
    cases rest with
    | nil => exact ⟨s', by simp [hStep], by simpa using hs'⟩
    | cons y rest =>
      by_cases hy : k = ops.key y
      · obtain ⟨s'', hLoop, hs''⟩ := ih (ops.step st y) hs' (by simpa using hn)
        rw [dropWhile_cons_of_pos (by simpa using hy), takeWhile_cons_of_pos (by simpa using hy)]
        refine ⟨s'', ?_, hs''⟩
        simpa [hStep, h.get hs', hy] using hLoop
      · rw [dropWhile_cons_of_neg (by simpa using hy), takeWhile_cons_of_neg (by simpa using hy)]
        exact ⟨s', by simp [hStep, h.get hs', hy], hs'⟩

variable {s : State source ops}

theorem groupCurrentSet_spec (h : Reads source src R) {x : α}
    {t : List α} (hs : R s.source (.row x t)) (hNew : ops.AsNew s.ops)
    (hSuffix : groupRows ops (x :: t) <:+ groupRows ops src.rows) :
    ∃ s', groupCurrentSet source ops s = some s' ∧
      At src R s' (.ofList (groupRows ops (x :: t))) := by
  obtain ⟨s', hLoop, hs'⟩ := groupLoop_spec h (ops.key x) (ops.step s.ops x) hs
    (h.length_lt h.bound hs)
  refine ⟨_, by simp only [groupCurrentSet, h.get hs, hLoop, bind_eq_bind,
    bind_some]; rfl, ?_⟩
  rw [groupRows_cons] at hSuffix ⊢
  refine ⟨t.dropWhile fun y => ops.key x = ops.key y, hSuffix, ?_, ?_, rfl, hs', rfl, ?_⟩
  · have := hNew (x :: t.takeWhile fun y => ops.key x = ops.key y)
    rw [foldl_cons] at this
    simp [this]
  · exact ⟨s.source, x, t, hs, rfl, groupRows_cons x t⟩
  · intro rows
    exact ops.finish_asNew _ rows

theorem ended_of_row {g : π × γ} (hs : At src R s (.row g [])) : At src R s .ended := by
  obtain ⟨behind, hs⟩ := hs
  obtain rfl : behind = [] := groupRows_eq_nil.mp hs.rest
  exact ⟨hs.source, hs.active, hs.asNew, fun _ => ⟨g, hs⟩⟩

variable {p : Position (π × γ)}

theorem at_source (hs : At src R s p) : ∃ p₀, R s.source p₀ ∧ ops.AsNew s.ops := by
  cases p with
  | start => exact ⟨_, hs.1, hs.2.2⟩
  | row g rest =>
    obtain ⟨behind, hs⟩ := hs
    exact ⟨_, hs.source, hs.asNew⟩
  | ended => exact ⟨_, hs.1, hs.2.2.1⟩

variable (h : Reads source src R)
include h

theorem step_ended (hs : At src R s .ended) :
    ∃ s', (group source ops).step s = some (false, s') ∧ At src R s' .ended ∧
      s'.current = s.current := by
  obtain ⟨hSource, hActive, hNew, hLast⟩ := hs
  obtain ⟨src', hStep, hs'⟩ := h.step hSource
  refine ⟨{ s with source := src' }, by simp [group, hActive, hStep],
    ⟨hs', hActive, hNew, fun hRows => ?_⟩, rfl⟩
  obtain ⟨g, hg⟩ := hLast hRows
  exact ⟨g, hg.suffix, hg.current, hg.mark, hActive, hs', groupRows_nil, hNew⟩

theorem step_spec (hs : At src R s p) :
    ∃ s', (group source ops).step s = some ((p.next (spec ops src).rows).isRow, s') ∧
      At src R s' (p.next (spec ops src).rows) := by
  cases p with
  | start =>
    obtain ⟨hSource, hActive, hNew⟩ := hs
    obtain ⟨src', hStep, hs'⟩ := h.step hSource
    change ∃ s', _ = some ((Position.ofList (groupRows ops src.rows)).isRow, s') ∧
      At src R s' (.ofList (groupRows ops src.rows))
    cases hRows : src.rows with
    | nil =>
      simp only [Position.next_start, hRows] at hStep hs'
      rw [groupRows_nil]
      exact ⟨{ s with source := src' }, by simp [group, hActive, hStep],
        hs', hActive, hNew, fun hNe => absurd hRows hNe⟩
    | cons x t =>
      simp only [Position.next_start, hRows] at hStep hs'
      obtain ⟨s', hSet, hAt⟩ := groupCurrentSet_spec h (s := { s with source := src' }) hs' hNew
        (by rw [hRows])
      simp only [hActive] at hSet
      refine ⟨s', ?_, hAt⟩
      simp [group, hActive, hStep, hSet, groupRows_cons]
  | row g rest =>
    obtain ⟨behind, hs⟩ := hs
    obtain rfl := hs.rest
    cases behind with
    | nil =>
      have hEnd : At src R s .ended := ended_of_row ⟨[], by simpa [groupRows_nil] using hs⟩
      obtain ⟨s', hStep, hs', -⟩ := step_ended h hEnd
      rw [Position.next_row, groupRows_nil]
      exact ⟨s', hStep, hs'⟩
    | cons y u =>
      obtain ⟨s', hSet, hAt⟩ := groupCurrentSet_spec h hs.source hs.asNew
        ((suffix_cons _ _).trans hs.suffix)
      have hActive : s.sourceIsActive = true := hs.active
      refine ⟨s', ?_, hAt⟩
      simp [group, hActive, hSet, groupRows_cons]
  | ended =>
    obtain ⟨s', hStep, hs', -⟩ := step_ended h hs
    exact ⟨s', hStep, hs'⟩

theorem restore_spec {s₀ : State source ops} {g : π × γ}
    {rest : List (π × γ)} {behind : List α} (hs₀ : OnGroup src R s₀ g rest behind)
    (hs : At src R s p) :
    ∃ s', (group source ops).restore ((group source ops).mark s₀) s = some s' ∧
      At src R s' (.row g rest) := by
  obtain ⟨m, x, t, hm, hMark, hRows⟩ := hs₀.mark
  obtain ⟨p₀, hSource, hNew⟩ := at_source hs
  obtain ⟨src', hRestore, hs'⟩ := h.restore hm hSource
  obtain ⟨s', hSet, hAt⟩ := groupCurrentSet_spec h (s := { s with source := src' }) hs' hNew
    (hRows ▸ hs₀.suffix)
  rw [hRows] at hAt
  exact ⟨s', by simp [group, hMark, hRestore, hSet], hAt⟩

theorem reads : Reads (group source ops) (spec ops src) (At src R) where
  init := by
    obtain ⟨s, hInit, hs⟩ := h.init
    exact ⟨_, by simp only [group, hInit, bind_eq_bind, bind_some]; rfl, hs, rfl,
      fun _ => rfl⟩
  suffix := fun ⟨_, hs⟩ => hs.suffix
  get := fun ⟨_, hs⟩ => hs.current
  step := step_spec h
  bound := (length_groupRows_le src.rows).trans h.bound
  residual := by
    intro s s' g b hs hStep
    obtain ⟨s'', hLast, -, hCurrent⟩ := step_ended h (ended_of_row hs)
    obtain rfl := Cursor.state_eq_of_step hLast hStep
    obtain ⟨_, hs⟩ := hs
    obtain ⟨pre, hRows⟩ := hs.suffix
    change s''.current = (groupRows ops src.rows).getLast?
    rw [hCurrent, hs.current, ← hRows]
    simp
  readable_of_rows hRows := fun hNil => hRows (groupRows_eq_nil.mpr hNil)
  readable := by
    intro s p hRows hs hStart
    cases p with
    | start => exact absurd rfl hStart
    | row g rest =>
      obtain ⟨_, hs⟩ := hs
      exact ⟨g, hs.current⟩
    | ended =>
      obtain ⟨g, hg⟩ := hs.2.2.2 hRows
      exact ⟨g, hg.current⟩
  restore := fun ⟨_, hs₀⟩ hs => restore_spec h hs₀ hs
  restore_ended := by
    intro s₀ s p hRows hs₀ hs _
    obtain ⟨g, hg⟩ := hs₀.2.2.2 hRows
    obtain ⟨s', hRestore, hs'⟩ := restore_spec h hg hs
    exact ⟨s', hRestore, ended_of_row hs'⟩

end Group

end Fhgfs.Fsck
