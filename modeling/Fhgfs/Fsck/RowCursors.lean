import Fhgfs.Lib.Cursor
import Mathlib.Data.List.TakeWhile
import Mathlib.Algebra.Group.Nat.Defs

/-!
# The cursors that pass single rows on

`SetFragmentCursor` walks the items of a fragment, `Filter` (`db::where`) and `Select` work
on one row after the other, and `Distinct` drops rows that repeat the key of the row before.
A fragment cursor counts in `size_t` and starts at -1, the index in front of the first item.
-/

namespace Fhgfs.Fsck

open List Option Cursor
open Cursor (Spec Reads Position Simulates)

/-! ## SetFragmentCursor -/

namespace SetFragmentCursor

def step (size : Nat) (currentGetIndex : UInt64) : Bool × UInt64 :=
  if currentGetIndex + 1 ≥ UInt64.ofNat size then
    (false, currentGetIndex)
  else
    (true, currentGetIndex + 1)

def restore (size : Nat) (mark : UInt64) : UInt64 := (step size (mark - 1)).2

end SetFragmentCursor

/-- The cursor over a fragment that has these items and keeps them. -/
def setFragmentCursor {Data : Type} (items : List Data) : Cursor Data where
  State := UInt64
  Marker := UInt64
  init := some (-1)
  step currentGetIndex := some (SetFragmentCursor.step items.length currentGetIndex)
  get currentGetIndex := items[currentGetIndex.toNat]?
  mark currentGetIndex := currentGetIndex
  restore mark _ := some (SetFragmentCursor.restore items.length mark)
  bound := items.length

namespace SetFragmentCursor

variable {Data : Type} {items : List Data}

def At (items : List Data) (s : UInt64) : Position Data → Prop
  | .start => s = -1
  | .row x rest => ∃ pre, items = pre ++ x :: rest ∧ s.toNat = pre.length
  | .ended => items = [] ∨ s.toNat + 1 = items.length

def spec (items : List Data) : Spec Data where
  rows := items
  residual := items.getLast?
  Readable := items ≠ []
  Restorable := True

variable {s : UInt64}

theorem step_of_lt (hSize : items.length < 2 ^ 64)
    (hs : (s + 1).toNat < items.length) : step items.length s = (true, s + 1) := by
  refine if_neg ?_
  rw [ge_iff_le, UInt64.le_iff_toNat_le, UInt64.toNat_ofNat_of_lt' hSize]
  omega

theorem step_of_le (hSize : items.length < 2 ^ 64)
    (hs : items.length ≤ (s + 1).toNat) : step items.length s = (false, s) := by
  refine if_pos ?_
  rwa [ge_iff_le, UInt64.le_iff_toNat_le, UInt64.toNat_ofNat_of_lt' hSize]

theorem restore_of_lt {m : UInt64} (hSize : items.length < 2 ^ 64)
    (hm : m.toNat < items.length) : restore items.length m = m := by
  have hBack : m - 1 + 1 = m := by simp
  rw [restore, step_of_lt hSize (by rwa [hBack]), hBack]

theorem toNat_succ (hs : s.toNat + 1 < 2 ^ 64) : (s + 1).toNat = s.toNat + 1 := by
  rw [UInt64.toNat_add]
  exact Nat.mod_eq_of_lt hs

variable {p : Position Data}

theorem step_spec (hSize : items.length < 2 ^ 64) (hs : At items s p) :
    ∃ s', step items.length s = ((p.next items).isRow, s') ∧ At items s' (p.next items) := by
  cases p with
  | start =>
    obtain rfl : s = -1 := hs
    cases items with
    | nil => exact ⟨-1, step_of_le hSize (by simp), Or.inl rfl⟩
    | cons x rest =>
      have hIndex : ((-1 : UInt64) + 1).toNat = 0 := rfl
      exact ⟨-1 + 1, step_of_lt hSize (by simp), [], rfl, hIndex⟩
  | row x rest =>
    obtain ⟨pre, hItems, hs⟩ := hs
    have hLen : items.length = pre.length + (rest.length + 1) := by simp [hItems]
    have hIndex := toNat_succ (s := s) (by omega)
    cases rest with
    | nil =>
      refine ⟨s, step_of_le hSize ?_, Or.inr ?_⟩ <;> simp [hIndex, hs, hLen]
    | cons y rest =>
      refine ⟨s + 1, step_of_lt hSize ?_, pre ++ [x], ?_, ?_⟩
      · simp [hIndex, hs, hLen]
      · simp [hItems]
      · simp [hIndex, hs]
  | ended =>
    rcases hs with rfl | hs
    · exact ⟨s, step_of_le hSize (by simp), Or.inl rfl⟩
    · exact ⟨s, step_of_le hSize (by rw [toNat_succ (by omega), hs]), Or.inr hs⟩

theorem residual_spec {x : Data} (hSize : items.length < 2 ^ 64) (hs : At items s (.row x [])) :
    step items.length s = (false, s) ∧ items[s.toNat]? = items.getLast? := by
  obtain ⟨pre, hItems, hs⟩ := hs
  have hLen : items.length = pre.length + 1 := by simp [hItems]
  refine ⟨step_of_le hSize ?_, ?_⟩
  · rw [toNat_succ (by omega)]
    omega
  · rw [hs, hItems]
    simp

theorem lt_of_at (hItems : items ≠ []) (hs : At items s p)
    (hStart : p ≠ .start) : s.toNat < items.length := by
  cases p with
  | start => exact absurd rfl hStart
  | row x rest =>
    obtain ⟨pre, h, hs⟩ := hs
    simp [h, hs]
  | ended =>
    rcases hs with h | h
    · exact absurd h hItems
    · omega

theorem restore_spec (hSize : items.length < 2 ^ 64)
    (hs : At items s p) (hStart : p ≠ .start) : At items (restore items.length s) p := by
  by_cases hItems : items = []
  · cases p with
    | start => exact absurd rfl hStart
    | row x rest =>
      obtain ⟨pre, h, -⟩ := hs
      simp [hItems] at h
    | ended => exact Or.inl hItems
  · rwa [restore_of_lt hSize (lt_of_at hItems hs hStart)]

theorem reads (hSize : items.length < 2 ^ 64) :
    Reads (setFragmentCursor items) (spec items) (At items) where
  init := ⟨(-1 : UInt64), rfl, rfl⟩
  suffix := by
    rintro s x rest ⟨pre, hItems, -⟩
    exact ⟨pre, hItems.symm⟩
  get := by
    rintro s x rest ⟨pre, hItems, hs⟩
    simp [setFragmentCursor, hItems, hs]
  step := by
    intro s p hs
    obtain ⟨s', hStep, hs'⟩ := step_spec hSize hs
    exact ⟨s', congrArg some hStep, hs'⟩
  bound := le_rfl
  residual := by
    intro s s' x b hs hStep
    obtain ⟨hStay, hLast⟩ := residual_spec hSize hs
    obtain rfl := state_eq_of_step (congrArg some hStay) hStep
    exact hLast
  readable_of_rows h := h
  readable hItems hs hStart := ⟨_, getElem?_eq_getElem (lt_of_at hItems hs hStart)⟩
  restore hs _ := ⟨_, rfl, restore_spec hSize hs (by simp)⟩
  restore_ended _ hs _ _ := ⟨_, rfl, restore_spec hSize hs (by simp)⟩

end SetFragmentCursor

/-! ## Filter -/

def filter {α : Type} (source : Cursor α) (pred : α → Bool) : Cursor α where
  State := source.State
  Marker := source.Marker
  init := source.init
  step s := do
    -- while(source.step()) if(pred(*get())) return true;
    match ← source.step s with
    | (false, s) => some (false, s)
    | (true, s) => source.skipWhile (fun row => !pred row) source.bound s
  get := source.get
  mark := source.mark
  restore := source.restore
  bound := source.bound

namespace Filter

variable {α : Type} {source : Cursor α} {src : Spec α} {R : source.State → Position α → Prop}
  {pred : α → Bool}

def At (R : source.State → Position α → Prop) (pred : α → Bool) (s : source.State) :
    Position α → Prop
  | .start => R s .start
  | .row x rest => pred x = true ∧ ∃ rest₀, R s (.row x rest₀) ∧ rest = rest₀.filter pred
  | .ended => R s .ended

def spec (src : Spec α) (pred : α → Bool) : Spec α where
  rows := src.rows.filter pred
  residual := src.residual
  Readable := src.Readable
  Restorable := src.Restorable

variable {s : source.State}

theorem at_dropWhile {l : List α} (hs : R s (.ofList (l.dropWhile fun row => !pred row))) :
    At R pred s (.ofList (l.filter pred)) ∧
      (Position.ofList (l.dropWhile fun row => !pred row)).isRow =
        (Position.ofList (l.filter pred)).isRow := by
  induction l with
  | nil => exact ⟨hs, rfl⟩
  | cons x l ih =>
    cases hx : pred x with
    | false =>
      rw [dropWhile_cons_of_pos (by simp [hx])] at hs ⊢
      rw [filter_cons_of_neg (by simp [hx])]
      exact ih hs
    | true =>
      rw [dropWhile_cons_of_neg (by simp [hx])] at hs ⊢
      rw [filter_cons_of_pos hx]
      exact ⟨⟨hx, l, hs, rfl⟩, rfl⟩

theorem dropWhile_eq_nil {l : List α} (h : l.filter pred = []) :
    l.dropWhile (fun row => !pred row) = [] := by
  rw [dropWhile_eq_nil_iff]
  intro x hx
  simpa using filter_eq_nil_iff.mp h x hx

theorem step_spec (h : Reads source src R) {p : Position α} (hs : R s p) :
    ∃ s', (filter source pred).step s =
        some ((Position.ofList ((p.remaining src.rows).filter pred)).isRow, s') ∧
      At R pred s' (.ofList ((p.remaining src.rows).filter pred)) := by
  obtain ⟨s', hStep, hs'⟩ := h.step hs
  rw [Position.next_eq] at hStep hs'
  cases hRest : p.remaining src.rows with
  | nil =>
    rw [hRest] at hStep hs'
    exact ⟨s', by simp [filter, hStep], hs'⟩
  | cons x rest =>
    rw [hRest] at hStep hs'
    obtain ⟨s'', hLoop, hs'', -⟩ := h.skipWhile (fun row => !pred row) hs'
    obtain ⟨hAt, hRow⟩ := at_dropWhile hs''
    refine ⟨s'', ?_, hAt⟩
    rw [← hRow]
    simpa [filter, hStep] using hLoop

theorem at_source (src : Spec α) {p : Position α} (hs : At R pred s p) :
    ∃ p₀, R s p₀ ∧ (p₀.remaining src.rows).filter pred = p.remaining (spec src pred).rows ∧
      (p ≠ .start → p₀ ≠ .start) := by
  cases p with
  | start => exact ⟨.start, hs, rfl, id⟩
  | row x rest =>
    obtain ⟨-, rest₀, hs, rfl⟩ := hs
    exact ⟨_, hs, rfl, fun _ => by simp⟩
  | ended => exact ⟨.ended, hs, rfl, fun _ => by simp⟩

theorem reads (h : Reads source src R) :
    Reads (filter source pred) (spec src pred) (At R pred) where
  init := h.init
  suffix := by
    rintro s x rest ⟨hx, rest₀, hs, rfl⟩
    have := (h.suffix hs).filter pred
    rwa [filter_cons_of_pos hx] at this
  get := by
    rintro s x rest ⟨-, rest₀, hs, -⟩
    exact h.get hs
  step := by
    intro s p hs
    obtain ⟨p₀, hs₀, hRest, -⟩ := at_source src hs
    rw [Position.next_eq, ← hRest]
    exact step_spec h hs₀
  bound := (length_filter_le _ _).trans h.bound
  residual := by
    rintro s s' x b ⟨hx, rest₀, hs, hNil⟩ hStep
    obtain ⟨s₁, hSource, hs₁⟩ := h.step hs
    cases rest₀ with
    | nil =>
      have hLast : (filter source pred).step s = some (false, s₁) := by simp [filter, hSource]
      obtain rfl := state_eq_of_step hLast hStep
      exact h.residual hs hSource
    | cons y rest₀ =>
      obtain ⟨s₂, hLoop, -, hEnd⟩ := h.skipWhile (fun row => !pred row) hs₁
      have hDrop := dropWhile_eq_nil hNil.symm
      rw [hDrop] at hLoop
      have hLast : (filter source pred).step s = some (false, s₂) := by
        simp [filter, hSource, hLoop]
      obtain rfl := state_eq_of_step hLast hStep
      exact hEnd hDrop
  readable_of_rows hRows := by
    refine h.readable_of_rows fun hNil => hRows ?_
    simp [spec, hNil]
  readable := by
    intro s p hReadable hs hStart
    obtain ⟨p₀, hs₀, -, hp₀⟩ := at_source src hs
    exact h.readable hReadable hs₀ (hp₀ hStart)
  restore := by
    rintro s₀ x rest s p ⟨hx, rest₀, hs₀, rfl⟩ hs
    obtain ⟨p₀, hp₀, -⟩ := at_source src hs
    obtain ⟨s', hRestore, hs'⟩ := h.restore hs₀ hp₀
    exact ⟨s', hRestore, hx, rest₀, hs', rfl⟩
  restore_ended := by
    intro s₀ s p hRestorable hs₀ hs hStart
    obtain ⟨p₀, hp₀, -, hNe⟩ := at_source src hs
    exact h.restore_ended hRestorable hs₀ hp₀ (hNe hStart)

theorem simulates {d : Cursor α} {f : source.State → d.State} {m : source.Marker → d.Marker}
    (h : Simulates source d f m) : Simulates (filter source pred) (filter d pred) f m where
  init := h.init
  step {s b s'} hStep := by
    obtain ⟨⟨ok, s₁⟩, hSource, hNext⟩ := bind_eq_some_iff.mp hStep
    refine bind_eq_some_iff.mpr ⟨_, h.step hSource, ?_⟩
    cases ok with
    | false =>
      cases hNext
      rfl
    | true =>
      rw [← h.bound]
      exact h.skipWhile _ hNext
  get := h.get
  mark := h.mark
  bound := h.bound

end Filter

/-! ## Select -/

structure SelectState (β σ : Type) where
  source : σ
  current : Option β

def select {α β : Type} (source : Cursor α) (fn : α → β) : Cursor β where
  State := SelectState β source.State
  Marker := source.Marker
  init := do
    let source ← source.init
    some { source := source, current := none }
  step s := do
    match ← source.step s.source with
    | (false, src) => some (false, { s with source := src })
    | (true, src) =>
      let row ← source.get src
      some (true, { source := src, current := some (fn row) })
  get s := s.current
  mark s := source.mark s.source
  restore mark s := do
    let src ← source.restore mark s.source
    let row ← source.get src
    some { source := src, current := some (fn row) }
  bound := source.bound

namespace Select

variable {α β : Type} {source : Cursor α} {src : Spec α} {R : source.State → Position α → Prop}
  {fn : α → β}

def At (src : Spec α) (R : source.State → Position α → Prop) (fn : α → β)
    (s : SelectState β source.State) : Position β → Prop
  | .start => R s.source .start
  | .row y rest =>
    ∃ x rest₀, R s.source (.row x rest₀) ∧ fn x = y ∧ rest₀.map fn = rest ∧ s.current = some y
  | .ended => R s.source .ended ∧ (src.rows ≠ [] → ∃ y, s.current = some y)

def spec (src : Spec α) (fn : α → β) : Spec β where
  rows := src.rows.map fn
  residual := (src.rows.map fn).getLast?
  Readable := src.rows ≠ []
  Restorable := src.Restorable ∧ src.Readable

theorem at_source {s : SelectState β source.State} {p : Position β} (hs : At src R fn s p) :
    ∃ p₀, R s.source p₀ ∧ (p₀.remaining src.rows).map fn = p.remaining (spec src fn).rows ∧
      (p ≠ .start → p₀ ≠ .start) := by
  cases p with
  | start => exact ⟨.start, hs, rfl, (absurd rfl ·)⟩
  | row y rest =>
    obtain ⟨x, rest₀, hs, -, rfl, -⟩ := hs
    exact ⟨_, hs, rfl, fun _ => by simp⟩
  | ended => exact ⟨.ended, hs.1, rfl, fun _ => by simp⟩

theorem step_spec (h : Reads source src R) {s : SelectState β source.State} {p : Position β}
    (hs : At src R fn s p) :
    ∃ s', (select source fn).step s = some ((p.next (spec src fn).rows).isRow, s') ∧
      At src R fn s' (p.next (spec src fn).rows) := by
  obtain ⟨p₀, hs₀, hRest, -⟩ := at_source hs
  obtain ⟨src', hStep, hs'⟩ := h.step hs₀
  rw [Position.next_eq] at hStep hs' ⊢
  rw [← hRest]
  cases hNext : p₀.remaining src.rows with
  | nil =>
    rw [hNext] at hStep hs'
    refine ⟨{ s with source := src' }, by simp [select, hStep], hs', fun hRows => ?_⟩
    -- rows were passed, so `current` was set
    cases p with
    | start =>
      have hNil : src.rows.map fn = [] := by
        rw [hNext] at hRest
        exact hRest.symm
      exact absurd (map_eq_nil_iff.mp hNil) hRows
    | row y rest =>
      obtain ⟨-, -, -, -, -, hCurrent⟩ := hs
      exact ⟨y, hCurrent⟩
    | ended => exact hs.2 hRows
  | cons x rest =>
    rw [hNext] at hStep hs'
    exact ⟨⟨src', some (fn x)⟩, by simp [select, hStep, h.get hs'], x, rest, hs', rfl, rfl, rfl⟩

theorem reads (h : Reads source src R) : Reads (select source fn) (spec src fn) (At src R fn) where
  init := by
    obtain ⟨s, hInit, hs⟩ := h.init
    exact ⟨⟨s, none⟩, by simp [select, hInit], hs⟩
  suffix := by
    rintro s y rest ⟨x, rest₀, hs, rfl, rfl, -⟩
    exact (h.suffix hs).map fn
  get := by
    rintro s y rest ⟨-, -, -, -, -, hCurrent⟩
    exact hCurrent
  step := step_spec h
  bound := (length_map fn).trans_le h.bound
  residual := by
    rintro s s' y b ⟨x, rest₀, hs, rfl, hNil, hCurrent⟩ hStep
    obtain rfl : rest₀ = [] := map_eq_nil_iff.mp hNil
    obtain ⟨src', hSource, -⟩ := h.step hs
    have hLast : (select source fn).step s = some (false, { s with source := src' }) := by
      simp [select, hSource]
    obtain rfl := state_eq_of_step hLast hStep
    obtain ⟨pre, hRows⟩ := h.suffix hs
    change s.current = (src.rows.map fn).getLast?
    simp [hCurrent, ← hRows]
  readable_of_rows hRows := by simpa [spec] using hRows
  readable := by
    intro s p hRows hs hStart
    cases p with
    | start => exact absurd rfl hStart
    | row y rest =>
      obtain ⟨-, -, -, -, -, hCurrent⟩ := hs
      exact ⟨y, hCurrent⟩
    | ended => exact hs.2 hRows
  restore := by
    rintro s₀ y rest s p ⟨x, rest₀, hs₀, rfl, rfl, -⟩ hs
    obtain ⟨p₀, hp₀, -⟩ := at_source hs
    obtain ⟨src', hRestore, hs'⟩ := h.restore hs₀ hp₀
    exact ⟨⟨src', some (fn x)⟩, by simp [select, hRestore, h.get hs'], x, rest₀, hs', rfl, rfl, rfl⟩
  restore_ended := by
    rintro s₀ s p ⟨hRestorable, hReadable⟩ ⟨hs₀, -⟩ hs hStart
    obtain ⟨p₀, hp₀, -, hNe⟩ := at_source hs
    obtain ⟨src', hRestore, hs'⟩ := h.restore_ended hRestorable hs₀ hp₀ (hNe hStart)
    obtain ⟨x, hGet⟩ := h.readable hReadable hs' (by simp)
    exact ⟨⟨src', some (fn x)⟩, by simp [select, hRestore, hGet], hs', fun _ => ⟨_, rfl⟩⟩

theorem simulates {d : Cursor α} {f : source.State → d.State} {m : source.Marker → d.Marker}
    (h : Simulates source d f m) :
    Simulates (select source fn) (select d fn) (fun s => ⟨f s.source, s.current⟩) m where
  init {s} hInit := by
    obtain ⟨src, hSource, hNext⟩ := bind_eq_some_iff.mp hInit
    cases hNext
    exact bind_eq_some_iff.mpr ⟨_, h.init hSource, rfl⟩
  step {s b s'} hStep := by
    obtain ⟨⟨ok, src⟩, hSource, hNext⟩ := bind_eq_some_iff.mp hStep
    refine bind_eq_some_iff.mpr ⟨_, h.step hSource, ?_⟩
    cases ok with
    | false =>
      cases hNext
      rfl
    | true =>
      obtain ⟨row, hGet, hRow⟩ := bind_eq_some_iff.mp hNext
      cases hRow
      exact bind_eq_some_iff.mpr ⟨row, h.get hGet, rfl⟩
  get hGet := hGet
  mark s := h.mark s.source
  bound := h.bound

end Select

/-! ## Distinct -/

structure DistinctState (κ σ : Type) where
  source : σ
  /-- `none` stands for `hasKey` being false. -/
  key : Option κ

def distinct {α κ : Type} [DecidableEq κ] (source : Cursor α) (keyExtract : α → κ) : Cursor α where
  State := DistinctState κ source.State
  Marker := source.Marker
  init := do
    let source ← source.init
    some { source := source, key := none }
  step s := do
    match ← source.step s.source with
    | (false, src) => some (false, { s with source := src })
    | (true, src) =>
      -- while(hasKey && key == keyExtract(*source.get())) if(!source.step()) return false;
      match ← source.skipWhile (fun row => s.key == some (keyExtract row)) source.bound src with
      | (false, src) => some (false, { s with source := src })
      | (true, src) =>
        let row ← source.get src
        some (true, { source := src, key := some (keyExtract row) })
  get s := source.get s.source
  mark s := source.mark s.source
  restore mark s := do
    let src ← source.restore mark s.source
    let row ← source.get src
    some { source := src, key := some (keyExtract row) }
  bound := source.bound

namespace Distinct

variable {α κ : Type} [DecidableEq κ] {source : Cursor α} {src : Spec α}
  {R : source.State → Position α → Prop} {keyExtract : α → κ}

/-- The rows whose key differs from the key of the row in front of them; `key` is that of the
row in front of the list. -/
def rowsFrom (keyExtract : α → κ) : Option κ → List α → List α
  | _, [] => []
  | key, x :: rest =>
    if key = some (keyExtract x) then
      rowsFrom keyExtract key rest
    else
      x :: rowsFrom keyExtract (some (keyExtract x)) rest

def At (src : Spec α) (R : source.State → Position α → Prop) (keyExtract : α → κ)
    (s : DistinctState κ source.State) : Position α → Prop
  | .start => R s.source .start ∧ s.key = none
  | .row x rest => s.key = some (keyExtract x) ∧
      x :: rest <:+ rowsFrom keyExtract none src.rows ∧
      ∃ rest₀, R s.source (.row x rest₀) ∧ rowsFrom keyExtract s.key rest₀ = rest
  | .ended => R s.source .ended

def spec (src : Spec α) (keyExtract : α → κ) : Spec α where
  rows := rowsFrom keyExtract none src.rows
  residual := src.residual
  Readable := src.Readable
  Restorable := src.Restorable ∧ src.Readable

theorem rowsFrom_sublist (key : Option κ) (l : List α) : (rowsFrom keyExtract key l).Sublist l := by
  induction l generalizing key with
  | nil => exact List.Sublist.refl _
  | cons x rest ih =>
    unfold rowsFrom
    split
    · exact (ih key).cons x
    · exact (ih _).cons_cons x

theorem rowsFrom_dropWhile (key : Option κ) (l : List α) :
    rowsFrom keyExtract key (l.dropWhile fun row => key == some (keyExtract row)) =
      rowsFrom keyExtract key l := by
  induction l with
  | nil => rfl
  | cons x rest ih =>
    by_cases hx : key = some (keyExtract x)
    · rw [dropWhile_cons_of_pos (by simpa using hx), ih, rowsFrom, if_pos hx]
    · rw [dropWhile_cons_of_neg (by simpa using hx)]

theorem rowsFrom_cons_of_ne {key : Option κ} {x : α} {rest : List α}
    (h : (key == some (keyExtract x)) = false) :
    rowsFrom keyExtract key (x :: rest) = x :: rowsFrom keyExtract (some (keyExtract x)) rest :=
  if_neg (by simpa using h)

theorem at_source {s : DistinctState κ source.State} {p : Position α}
    (hs : At src R keyExtract s p) :
    ∃ p₀, R s.source p₀ ∧ rowsFrom keyExtract s.key (p₀.remaining src.rows) =
        p.remaining (spec src keyExtract).rows ∧
      p.remaining (spec src keyExtract).rows <:+ rowsFrom keyExtract none src.rows ∧
      (p ≠ .start → p₀ ≠ .start) := by
  cases p with
  | start => exact ⟨.start, hs.1, by rw [hs.2]; rfl, suffix_rfl, id⟩
  | row x rest =>
    obtain ⟨-, hSuffix, rest₀, hs, rfl⟩ := hs
    exact ⟨_, hs, rfl, (suffix_cons _ _).trans hSuffix, fun _ => by simp⟩
  | ended => exact ⟨.ended, hs, rfl, nil_suffix, fun _ => by simp⟩

theorem step_source (h : Reads source src R) {s : DistinctState κ source.State} {p : Position α}
    (hs : R s.source p)
    (hSuffix : rowsFrom keyExtract s.key (p.remaining src.rows) <:+
      rowsFrom keyExtract none src.rows) :
    ∃ s', (distinct source keyExtract).step s =
        some ((Position.ofList (rowsFrom keyExtract s.key (p.remaining src.rows))).isRow, s') ∧
      At src R keyExtract s' (.ofList (rowsFrom keyExtract s.key (p.remaining src.rows))) ∧
      (∀ x, p = .row x [] ∨ p ≠ .start ∧ p.remaining src.rows ≠ [] →
        rowsFrom keyExtract s.key (p.remaining src.rows) = [] →
        source.get s'.source = src.residual) := by
  obtain ⟨src₁, hStep, hs₁⟩ := h.step hs
  rw [Position.next_eq] at hStep hs₁
  cases hRest : p.remaining src.rows with
  | nil =>
    rw [hRest] at hStep hs₁
    refine ⟨{ s with source := src₁ }, by simp [distinct, hStep, rowsFrom], hs₁, ?_⟩
    rintro x (rfl | ⟨-, hNe⟩) -
    · exact h.residual hs hStep
    · exact absurd rfl hNe
  | cons x rest =>
    rw [hRest] at hStep hs₁
    obtain ⟨src₂, hLoop, hs₂, hEnd⟩ := h.skipWhile (fun row => s.key == some (keyExtract row)) hs₁
    rw [hRest, ← rowsFrom_dropWhile] at hSuffix
    rw [← rowsFrom_dropWhile]
    cases hDrop : (x :: rest).dropWhile fun row => s.key == some (keyExtract row) with
    | nil =>
      rw [hDrop] at hLoop hs₂
      exact ⟨{ s with source := src₂ }, by simp [distinct, hStep, hLoop, rowsFrom], hs₂,
        fun _ _ _ => hEnd hDrop⟩
    | cons y t =>
      have hKey := head_dropWhile_not (l := x :: rest)
        (fun row => s.key == some (keyExtract row)) (by simp [hDrop])
      simp only [hDrop, head_cons] at hKey
      rw [hDrop] at hLoop hs₂
      rw [hDrop, rowsFrom_cons_of_ne hKey] at hSuffix
      rw [rowsFrom_cons_of_ne hKey]
      exact ⟨⟨src₂, some (keyExtract y)⟩, by simp [distinct, hStep, hLoop, h.get hs₂],
        ⟨rfl, hSuffix, t, hs₂, rfl⟩, fun _ _ hNil => by simp at hNil⟩

theorem reads (h : Reads source src R) :
    Reads (distinct source keyExtract) (spec src keyExtract) (At src R keyExtract) where
  init := by
    obtain ⟨s, hInit, hs⟩ := h.init
    exact ⟨⟨s, none⟩, by simp [distinct, hInit], hs, rfl⟩
  suffix := by
    rintro s x rest ⟨-, hSuffix, -⟩
    exact hSuffix
  get := by
    rintro s x rest ⟨-, -, rest₀, hs, -⟩
    exact h.get hs
  step := by
    intro s p hs
    obtain ⟨p₀, hs₀, hRest, hSuffix, -⟩ := at_source hs
    obtain ⟨s', hStep, hs', -⟩ := step_source h hs₀ (hRest ▸ hSuffix)
    rw [Position.next_eq, ← hRest]
    exact ⟨s', hStep, hs'⟩
  bound := (rowsFrom_sublist none src.rows).length_le.trans h.bound
  residual := by
    rintro s s' x b ⟨hKey, -, rest₀, hs, hNil⟩ hStep
    have hSuffix : rowsFrom keyExtract s.key rest₀ <:+ rowsFrom keyExtract none src.rows := by
      simp [hNil]
    obtain ⟨s'', hLast, -, hEnd⟩ := step_source h hs hSuffix
    obtain rfl := state_eq_of_step hLast hStep
    refine hEnd x ?_ hNil
    cases rest₀ with
    | nil => exact Or.inl rfl
    | cons y t => exact Or.inr ⟨by simp, by simp [Position.remaining]⟩
  readable_of_rows hRows := by
    refine h.readable_of_rows fun hNil => hRows ?_
    simp [spec, hNil, rowsFrom]
  readable := by
    intro s p hReadable hs hStart
    obtain ⟨p₀, hs₀, -, -, hp₀⟩ := at_source hs
    exact h.readable hReadable hs₀ (hp₀ hStart)
  restore := by
    rintro s₀ x rest s p ⟨hKey, hSuffix, rest₀, hs₀, rfl⟩ hs
    obtain ⟨p₀, hp₀, -⟩ := at_source hs
    obtain ⟨src', hRestore, hs'⟩ := h.restore hs₀ hp₀
    exact ⟨⟨src', some (keyExtract x)⟩, by simp [distinct, hRestore, h.get hs'], rfl,
      hSuffix, rest₀, hs', by rw [hKey]⟩
  restore_ended := by
    rintro s₀ s p ⟨hRestorable, hReadable⟩ hs₀ hs hStart
    obtain ⟨p₀, hp₀, -, -, hNe⟩ := at_source hs
    obtain ⟨src', hRestore, hs'⟩ := h.restore_ended hRestorable hs₀ hp₀ (hNe hStart)
    obtain ⟨x, hGet⟩ := h.readable hReadable hs' (by simp)
    exact ⟨⟨src', some (keyExtract x)⟩, by simp [distinct, hRestore, hGet], hs'⟩

theorem simulates {d : Cursor α} {f : source.State → d.State} {m : source.Marker → d.Marker}
    (h : Simulates source d f m) :
    Simulates (distinct source keyExtract) (distinct d keyExtract)
      (fun s => ⟨f s.source, s.key⟩) m where
  init {s} hInit := by
    obtain ⟨src, hSource, hNext⟩ := bind_eq_some_iff.mp hInit
    cases hNext
    exact bind_eq_some_iff.mpr ⟨_, h.init hSource, rfl⟩
  step {s b s'} hStep := by
    obtain ⟨⟨ok, src⟩, hSource, hNext⟩ := bind_eq_some_iff.mp hStep
    refine bind_eq_some_iff.mpr ⟨_, h.step hSource, ?_⟩
    cases ok with
    | false =>
      cases hNext
      rfl
    | true =>
      obtain ⟨⟨found, src'⟩, hLoop, hRow⟩ := bind_eq_some_iff.mp hNext
      refine bind_eq_some_iff.mpr ⟨(found, f src'), ?_, ?_⟩
      · rw [← h.bound]
        exact h.skipWhile _ hLoop
      · cases found with
        | false =>
          cases hRow
          rfl
        | true =>
          obtain ⟨row, hGet, hKey⟩ := bind_eq_some_iff.mp hRow
          cases hKey
          exact bind_eq_some_iff.mpr ⟨row, h.get hGet, rfl⟩
  get hGet := h.get hGet
  mark s := h.mark s.source
  bound := h.bound

/-! ### Ascending rows -/

section

variable {α κ : Type} [LinearOrder κ] {key : α → κ}

theorem rowsFrom_keys {l : List α} {k : κ} (hAsc : l.Pairwise fun a b => key a ≤ key b)
    (hk : ∀ x ∈ l, k ≤ key x) :
    ((rowsFrom key (some k) l).map key).Pairwise (· < ·) ∧
      ∀ k', k' ∈ (rowsFrom key (some k) l).map key ↔ k' ∈ l.map key ∧ k' ≠ k := by
  induction l generalizing k with
  | nil => simp [rowsFrom]
  | cons x l ih =>
    obtain ⟨hx, hl⟩ := pairwise_cons.mp hAsc
    unfold rowsFrom
    by_cases hEq : k = key x
    · rw [if_pos (congrArg some hEq)]
      obtain ⟨hPair, hMem⟩ := ih hl fun y hy => hk y (mem_cons_of_mem x hy)
      refine ⟨hPair, fun k' => ?_⟩
      rw [hMem, map_cons, mem_cons, hEq]
      tauto
    rw [if_neg (fun h => hEq (some.inj h))]
    obtain ⟨hPair, hMem⟩ := ih hl hx
    rw [map_cons, pairwise_cons]
    refine ⟨⟨fun k' hk' => ?_, hPair⟩, fun k' => ?_⟩
    · obtain ⟨hIn, hNe⟩ := (hMem k').mp hk'
      obtain ⟨y, hy, rfl⟩ := mem_map.mp hIn
      exact lt_of_le_of_ne (hx y hy) (Ne.symm hNe)
    · have hLt : k < key x := lt_of_le_of_ne (hk x mem_cons_self) hEq
      rw [mem_cons, map_cons, mem_cons, hMem]
      constructor
      · rintro (rfl | ⟨hIn, hNe⟩)
        · exact ⟨Or.inl rfl, hLt.ne'⟩
        · obtain ⟨y, hy, rfl⟩ := mem_map.mp hIn
          exact ⟨Or.inr hIn, (hLt.trans_le (hx y hy)).ne'⟩
      · rintro ⟨rfl | hIn, -⟩
        · exact Or.inl rfl
        · by_cases hSame : k' = key x
          · exact Or.inl hSame
          · exact Or.inr ⟨hIn, hSame⟩

theorem distinctRows_keys {l : List α} (hAsc : l.Pairwise fun a b => key a ≤ key b) :
    ((rowsFrom key none l).map key).Pairwise (· < ·) ∧
      ∀ k, k ∈ (rowsFrom key none l).map key ↔ k ∈ l.map key := by
  cases l with
  | nil => simp [rowsFrom]
  | cons x l =>
    obtain ⟨hx, hl⟩ := pairwise_cons.mp hAsc
    obtain ⟨hPair, hMem⟩ := rowsFrom_keys hl hx
    simp only [rowsFrom, reduceCtorEq, if_false, map_cons, pairwise_cons, mem_cons, hMem]
    refine ⟨⟨fun k hk => ?_, hPair⟩, fun k => ?_⟩
    · obtain ⟨hIn, hNe⟩ := hk
      obtain ⟨y, hy, rfl⟩ := mem_map.mp hIn
      exact lt_of_le_of_ne (hx y hy) (Ne.symm hNe)
    · by_cases hSame : k = key x <;> simp [hSame]

end

end Distinct

end Fhgfs.Fsck
