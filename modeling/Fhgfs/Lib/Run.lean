import Mathlib.Data.List.Perm.Basic

/-!
# Runs of a deterministic step function

A component that answers one input at a time is a function `step : σ → ι → σ`. This module
has the induction rules for its runs, for arbitrary states and inputs.

* `Reachable.invariant`: a property of the initial states that every admitted step preserves
  holds in every reachable state.
* `throughout_iff_everyStep`: when a stronger invariant `J` is kept by exactly the steps that
  meet a condition, and a step that misses the condition breaks the property, then the
  property holds in all states of a run if and only if all its steps meet the condition.
* `everyStep_imp`: what holds of one step from an invariant state holds of every step of a run.
* `along_view`: what a view of the state goes through, step by step.
* `after_component`: inputs that each change a component of their own.
* `collect_perm`: a balance `in + before = after + out` of one step, as multisets, adds up
  over a run.
* `endsIn_of_decreasing`: all runs of a relation end if every step makes something smaller.
-/

namespace Fhgfs.Run

open List

variable {σ ι β : Type*} (step : σ → ι → σ)

def after (s : σ) (is : List ι) : σ := is.foldl step s

@[simp] theorem after_nil (s : σ) : after step s [] = s := rfl

@[simp] theorem after_cons (s : σ) (i : ι) (is : List ι) :
    after step s (i :: is) = after step (step s i) is := rfl

/-- States that admitted steps reach from the initial ones. -/
inductive Reachable (init : σ → Prop) (A : σ → ι → Prop) : σ → Prop
  | start {s : σ} : init s → Reachable init A s
  | next {s : σ} {i : ι} : Reachable init A s → A s i → Reachable init A (step s i)

variable {s : σ} {A : σ → ι → Prop} {I : σ → Prop}

theorem Reachable.invariant {step : σ → ι → σ} {init : σ → Prop}
    (hInit : ∀ s, init s → I s) (hStep : ∀ s i, I s → A s i → I (step s i))
    (h : Reachable step init A s) : I s := by
  induction h with
  | start hs => exact hInit _ hs
  | next _ hok ih => exact hStep _ _ ih hok

/-! ## Properties of all states and of all steps of a run -/

/-- `P` holds before every step and after the last. -/
def Throughout (P : σ → Prop) : σ → List ι → Prop
  | s, [] => P s
  | s, i :: is => P s ∧ Throughout P (step s i) is

/-- `C` holds of every step, read on the state before it. -/
def EveryStep (C : σ → ι → Prop) : σ → List ι → Prop
  | _, [] => True
  | s, i :: is => C s i ∧ EveryStep C (step s i) is

instance EveryStep.decidable (C : σ → ι → Prop) [∀ s i, Decidable (C s i)] :
    (s : σ) → (is : List ι) → Decidable (EveryStep step C s is)
  | _, [] => .isTrue trivial
  | s, i :: is =>
    have := EveryStep.decidable C (step s i) is
    inferInstanceAs (Decidable (C s i ∧ EveryStep step C (step s i) is))

variable {is : List ι}

theorem Reachable.after {step : σ → ι → σ} {init : σ → Prop}
    (h : Reachable step init A s) (hok : EveryStep step A s is) :
    Reachable step init A (after step s is) := by
  induction is generalizing s with
  | nil => exact h
  | cons i is ih => exact ih (.next h hok.1) hok.2

theorem throughout_iff {P : σ → Prop} :
    Throughout step P s is ↔ ∀ k, P (after step s (is.take k)) := by
  induction is generalizing s with
  | nil => simp [Throughout]
  | cons i is ih =>
    unfold Throughout
    rw [ih]
    constructor
    · rintro ⟨hs, hrest⟩ k
      cases k with
      | zero => exact hs
      | succ k => exact hrest k
    · intro h
      exact ⟨h 0, fun k => h (k + 1)⟩

theorem everyStep_of_forall {C : σ → ι → Prop}
    (h : ∀ s, ∀ i ∈ is, C s i) : EveryStep step C s is := by
  induction is generalizing s with
  | nil => trivial
  | cons i is ih =>
    exact ⟨h s i mem_cons_self, ih fun s j hj => h s j (mem_cons_of_mem _ hj)⟩

theorem everyStep_and {C D : σ → ι → Prop} (hC : EveryStep step C s is)
    (hD : EveryStep step D s is) : EveryStep step (fun s i => C s i ∧ D s i) s is := by
  induction is generalizing s with
  | nil => trivial
  | cons i is ih => exact ⟨⟨hC.1, hD.1⟩, ih hC.2 hD.2⟩

theorem everyStep_append {C : σ → ι → Prop} {is js : List ι} :
    EveryStep step C s (is ++ js) ↔
      EveryStep step C s is ∧ EveryStep step C (after step s is) js := by
  induction is generalizing s with
  | nil => exact (and_iff_right trivial).symm
  | cons i is ih =>
    show C s i ∧ EveryStep step C (step s i) (is ++ js) ↔ _
    rw [ih]
    exact and_assoc.symm

theorem after_invariant (hStep : ∀ s i, I s → A s i → I (step s i)) (hs : I s)
    (hok : EveryStep step A s is) : I (after step s is) := by
  induction is generalizing s with
  | nil => exact hs
  | cons i is ih => exact ih (hStep s i hs hok.1) hok.2

/-- An invariant of the admitted steps gives what it implies in all states of a run of them. -/
theorem throughout_of_invariant {I P : σ → Prop} (hP : ∀ s, I s → P s)
    (hStep : ∀ s i, I s → A s i → I (step s i)) (hs : I s)
    (hok : EveryStep step A s is) : Throughout step P s is := by
  induction is generalizing s with
  | nil => exact hP s hs
  | cons i is ih => exact ⟨hP s hs, ih (hStep s i hs hok.1) hok.2⟩

theorem everyStep_imp {A C : σ → ι → Prop}
    (hStep : ∀ s i, I s → A s i → I (step s i)) (hC : ∀ s i, I s → A s i → C s i)
    (hs : I s) (hok : EveryStep step A s is) :
    EveryStep step C s is := by
  induction is generalizing s with
  | nil => trivial
  | cons i is ih => exact ⟨hC s i hs hok.1, ih (hStep s i hs hok.1) hok.2⟩

/-- The exact condition for a property of all states of a run: `J` strengthens the property,
a step that meets `C` keeps `J`, and a step from a `J` state that misses `C` leaves a state
without the property. -/
theorem throughout_iff_everyStep {J P : σ → Prop} {A C : σ → ι → Prop}
    (hP : ∀ s, J s → P s) (hKeep : ∀ s i, J s → A s i → C s i → J (step s i))
    (hBreak : ∀ s i, J s → A s i → ¬ C s i → ¬ P (step s i))
    (hs : J s) (hok : EveryStep step A s is) :
    Throughout step P s is ↔ EveryStep step C s is := by
  induction is generalizing s with
  | nil => exact ⟨fun _ => trivial, fun _ => hP s hs⟩
  | cons i is ih =>
    constructor
    · rintro ⟨-, hrest⟩
      have hC : C s i := by
        by_contra hC
        refine hBreak s i hs hok.1 hC ?_
        simpa using (throughout_iff step).mp hrest 0
      exact ⟨hC, (ih (hKeep s i hs hok.1 hC) hok.2).mp hrest⟩
    · rintro ⟨hC, hrest⟩
      exact ⟨hP s hs, (ih (hKeep s i hs hok.1 hC) hok.2).mpr hrest⟩

/-! ## What else a run changes -/

/-- `E` says of every step, from the state before it, how it may change something beside the
state. -/
def Along (E : σ → ι → β → β → Prop) : σ → List ι → β → β → Prop
  | _, [], b, b' => b' = b
  | s, i :: is, b, b' => ∃ next, E s i b next ∧ Along E (step s i) is next b'

theorem along_view {E : σ → ι → β → β → Prop} (view : σ → β)
    (hStep : ∀ s i, A s i → E s i (view s) (view (step s i)))
    (hok : EveryStep step A s is) : Along step E s is (view s) (view (after step s is)) := by
  induction is generalizing s with
  | nil => rfl
  | cons i is ih => exact ⟨view (step s i), hStep s i hok.1, ih hok.2⟩

/-! ## Steps that change one component -/

/-- A run over distinct inputs, each of which changes its own component of the state, in a way
that `R` describes, and no other component. -/
theorem after_component {α : Type} {step : σ → ι → σ} {component : σ → ι → α} {R : ι → α → α → Prop}
    (hHere : ∀ s i, R i (component s i) (component (step s i) i))
    (hFrame : ∀ s i j, j ≠ i → component (step s i) j = component s j)
    (hNodup : is.Nodup) (s : σ) (j : ι) :
    (j ∈ is → R j (component s j) (component (after step s is) j)) ∧
      (j ∉ is → component (after step s is) j = component s j) := by
  induction is generalizing s with
  | nil => exact ⟨nofun, fun _ => rfl⟩
  | cons i is ih =>
    obtain ⟨hFirst, hRest⟩ := nodup_cons.mp hNodup
    obtain ⟨hIn, hOut⟩ := ih hRest (step s i)
    rw [after_cons]
    constructor
    · intro hj
      rcases mem_cons.mp hj with rfl | hLater
      · rw [hOut hFirst]
        exact hHere s j
      · have hNe : j ≠ i := fun hSame => hFirst (hSame ▸ hLater)
        rw [← hFrame s i j hNe]
        exact hIn hLater
    · intro hj
      rw [mem_cons, not_or] at hj
      rw [hOut hj.2, hFrame s i j hj.1]

/-! ## Balances -/

/-- What the steps of a run contribute, in order. -/
def collect (f : σ → ι → List β) : σ → List ι → List β
  | _, [] => []
  | s, i :: is => f s i ++ collect f (step s i) is

theorem collect_const (f : ι → List β) (s : σ) (is : List ι) :
    collect step (fun _ i => f i) s is = is.flatMap f := by
  induction is generalizing s with
  | nil => rfl
  | cons i is ih => rw [collect, ih, flatMap_cons]

theorem collect_append_perm (f g : σ → ι → List β) (s : σ) (is : List ι) :
    (collect step (fun s i => f s i ++ g s i) s is).Perm
      (collect step f s is ++ collect step g s is) := by
  induction is generalizing s with
  | nil => exact List.Perm.refl _
  | cons i is ih =>
    simp only [collect]
    refine ((ih (step s i)).append_left _).trans ?_
    simp only [append_assoc]
    refine List.Perm.append_left _ ?_
    simp only [← append_assoc]
    exact perm_append_comm.append_right _

theorem collect_perm {held : σ → List β} {enter leave : σ → ι → List β}
    (hStep : ∀ s i, I s → I (step s i)) (hBalance : ∀ s i, I s →
      (held s ++ enter s i).Perm (held (step s i) ++ leave s i)) (hs : I s) (is : List ι) :
    (held s ++ collect step enter s is).Perm
      (held (after step s is) ++ collect step leave s is) := by
  induction is generalizing s with
  | nil => simp [collect]
  | cons i is ih =>
    have hHere : (held s ++ (enter s i ++ collect step enter (step s i) is)).Perm
        (held (step s i) ++ leave s i ++ collect step enter (step s i) is) := by
      rw [← append_assoc]
      exact (hBalance s i hs).append_right _
    have hSwap : (held (step s i) ++ leave s i ++ collect step enter (step s i) is).Perm
        (leave s i ++ (held (step s i) ++ collect step enter (step s i) is)) := by
      rw [← append_assoc]
      exact perm_append_comm.append_right _
    have hRest := (ih (hStep s i hs)).append_left (leave s i)
    refine hHere.trans (hSwap.trans (hRest.trans ?_))
    simp only [after_cons, collect, ← append_assoc]
    exact perm_append_comm.append_right _

/-! ## Runs that end -/

/-- Every run of a relation from a state ends, and it ends in a state with `P`. -/
inductive EndsIn (R : σ → σ → Prop) (P : σ → Prop) : σ → Prop
  | stop {s : σ} : P s → (∀ s', ¬R s s') → EndsIn R P s
  | step {s s' : σ} : R s s' → (∀ s', R s s' → EndsIn R P s') → EndsIn R P s

theorem endsIn_of_decreasing {R : σ → σ → Prop} {P I : σ → Prop} (size : σ → Nat)
    (hStep : ∀ s s', I s → R s s' → I s' ∧ size s' < size s)
    (hStop : ∀ s, I s → (∀ s', ¬R s s') → P s) (hs : I s) : EndsIn R P s := by
  induction hSize : size s using Nat.strongRecOn generalizing s with
  | _ n ih =>
    by_cases hStuck : ∀ s', ¬R s s'
    · exact .stop (hStop s hs hStuck) hStuck
    · obtain ⟨next, hNext⟩ := not_forall_not.mp hStuck
      apply EndsIn.step hNext
      intro s' hR
      obtain ⟨hs', hLess⟩ := hStep s s' hs hR
      exact ih (size s') (hSize ▸ hLess) hs' rfl

end Fhgfs.Run
