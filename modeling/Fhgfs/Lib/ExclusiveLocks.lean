import Fhgfs.Lib.Run
import Mathlib.Data.Set.Insert
import Mathlib.Data.List.Nodup

/-!
# Exclusive locks on keys

A key is locked while it is in a set. A thread that wants a locked key waits, and to unlock a key
takes it out of the set, whoever has put it there.

* `Balanced events`: what a thread does with the locks. It never waits for itself, unlocks only
  what it has locked, and holds nothing in the end.
* `LockThreads.Owned`: every locked key is held by exactly one thread. All steps of threads with
  balanced rests keep it.
* `LockThreads.unlocked_of_balanced`: in any order of their steps, threads that are all balanced
  never unlock a key in vain, and when they have ended nothing is locked.
-/

namespace Fhgfs

open Function Option List

inductive LockEvent (κ : Type) where
  | lock (key : κ)
  | unlock (key : κ)
deriving DecidableEq

namespace LockEvent

variable {κ : Type} [DecidableEq κ]

/-- What a thread holds after an event. There is none if it waits for itself, or unlocks what it
has not locked. -/
def next (held : List κ) : LockEvent κ → Option (List κ)
  | lock key => if key ∈ held then none else some (key :: held)
  | unlock key => if key ∈ held then some (held.erase key) else none

def heldAfter (held : List κ) (events : List (LockEvent κ)) : Option (List κ) :=
  events.foldlM next held

/-- Each lock is unlocked once, and nothing else is. -/
def Balanced (events : List (LockEvent κ)) : Prop := heldAfter [] events = some []

instance (events : List (LockEvent κ)) : Decidable (Balanced events) :=
  inferInstanceAs (Decidable (_ = _))

variable {held held' : List κ} {key : κ} {events events' : List (LockEvent κ)}

@[simp] theorem heldAfter_nil : heldAfter held [] = some held := rfl

@[simp] theorem heldAfter_cons (event : LockEvent κ) :
    heldAfter held (event :: events) = (next held event).bind (heldAfter · events) := rfl

theorem heldAfter_append :
    heldAfter held (events ++ events') = (heldAfter held events).bind (heldAfter · events') :=
  foldlM_append

theorem next_lock (h : key ∉ held) : next held (lock key) = some (key :: held) := if_neg h

theorem next_unlock (h : key ∈ held) : next held (unlock key) = some (held.erase key) := if_pos h

theorem balanced_nil : Balanced ([] : List (LockEvent κ)) := rfl

theorem Balanced.append (h : Balanced events) (h' : Balanced events') :
    Balanced (events ++ events') := by
  unfold Balanced at *
  rw [heldAfter_append, h, bind_some, h']

theorem heldAfter_lock_unlock (h : key ∉ held) :
    heldAfter held (lock key :: unlock key :: events) = heldAfter held events := by
  rw [heldAfter_cons, next_lock h, bind_some, heldAfter_cons,
    next_unlock mem_cons_self, erase_cons_head, bind_some]

theorem balanced_lock_unlock (key : κ) : Balanced [lock key, unlock key] :=
  heldAfter_lock_unlock not_mem_nil

theorem not_balanced_lock (key : κ) : ¬ Balanced [lock key] := by
  unfold Balanced
  rw [heldAfter_cons, next_lock not_mem_nil]
  intro h
  cases h

theorem heldAfter_unlocks {keys : List κ} (h : held.Perm keys) :
    heldAfter held (keys.map unlock) = some [] := by
  induction keys generalizing held with
  | nil =>
    obtain rfl := h.eq_nil
    rfl
  | cons key keys ih =>
    have hIn : key ∈ held := h.mem_iff.mpr mem_cons_self
    rw [map_cons, heldAfter_cons, next_unlock hIn, bind_some]
    apply ih
    have hErase := h.erase key
    rwa [erase_cons_head] at hErase

end LockEvent

/-- Threads that lock and unlock, with what is left for them to do. `missing` counts the unlocks
of keys that were not locked. -/
structure LockThreads (θ κ : Type) where
  locked : Set κ
  todo : θ → List (LockEvent κ)
  missing : Nat

namespace LockThreads

open LockEvent

variable {θ κ : Type} [DecidableEq θ] [DecidableEq κ]

open Classical in
/-- The next event of a thread. The lock of a locked key is tried again later. -/
noncomputable def step (s : LockThreads θ κ) (t : θ) : LockThreads θ κ :=
  match s.todo t with
  | [] => s
  | .lock key :: events =>
    if key ∈ s.locked then s
    else { s with locked := insert key s.locked, todo := Function.update s.todo t events }
  | .unlock key :: events =>
    if key ∈ s.locked then
      { s with locked := s.locked \ {key}, todo := Function.update s.todo t events }
    else { s with todo := Function.update s.todo t events, missing := s.missing + 1 }

/-- The locked keys are those that the threads hold, each by one thread. The rest of a thread
unlocks what it holds. -/
structure Owned (s : LockThreads θ κ) (held : θ → List κ) : Prop where
  balanced : ∀ t, heldAfter (held t) (s.todo t) = some []
  nodup : ∀ t, (held t).Nodup
  mem_locked : ∀ key, key ∈ s.locked ↔ ∃ t, key ∈ held t
  exclusive : ∀ t t' key, key ∈ held t → key ∈ held t' → t = t'
  missing : s.missing = 0

variable {s : LockThreads θ κ} {held : θ → List κ} {t : θ} {key : κ} {events : List (LockEvent κ)}

theorem balanced_update (h : s.Owned held) {keys : List κ}
    (hRest : heldAfter keys events = some []) (t' : θ) :
    heldAfter (update held t keys t') (update s.todo t events t') = some [] := by
  by_cases hSame : t' = t
  · subst hSame
    rwa [update_self, update_self]
  · rw [update_of_ne hSame, update_of_ne hSame]
    exact h.balanced t'

theorem nodup_update (h : s.Owned held) {keys : List κ} (hKeys : keys.Nodup) (t' : θ) :
    (update held t keys t').Nodup := by
  by_cases hSame : t' = t
  · subst hSame
    rwa [update_self]
  · rw [update_of_ne hSame]
    exact h.nodup t'

theorem Owned.lock (h : s.Owned held) (hTodo : s.todo t = .lock key :: events)
    (hFree : key ∉ s.locked) :
    Owned { s with locked := insert key s.locked, todo := update s.todo t events }
      (update held t (key :: held t)) := by
  have hNot : ∀ t', key ∉ held t' := fun t' hIn => hFree ((h.mem_locked key).mpr ⟨t', hIn⟩)
  have hRest := h.balanced t
  rw [hTodo, heldAfter_cons, next_lock (hNot t), bind_some] at hRest
  have hMem : ∀ t' k, k ∈ update held t (key :: held t) t' ↔ k ∈ held t' ∨ k = key ∧ t' = t := by
    intro t' k
    by_cases hSame : t' = t
    · subst hSame
      rw [update_self, mem_cons]
      tauto
    · rw [update_of_ne hSame]
      tauto
  refine ⟨balanced_update h hRest, nodup_update h ((h.nodup t).cons (hNot t)), ?_, ?_, h.missing⟩
  · intro k
    rw [Set.mem_insert_iff, h.mem_locked]
    simp only [hMem]
    constructor
    · rintro (rfl | ⟨t', hIn⟩)
      · exact ⟨t, .inr ⟨rfl, rfl⟩⟩
      · exact ⟨t', .inl hIn⟩
    · rintro ⟨t', hIn | ⟨rfl, -⟩⟩
      · exact .inr ⟨t', hIn⟩
      · exact .inl rfl
  · intro t₁ t₂ k h₁ h₂
    rw [hMem] at h₁ h₂
    rcases h₁ with h₁ | ⟨rfl, rfl⟩ <;> rcases h₂ with h₂ | ⟨hKey, rfl⟩
    · exact h.exclusive t₁ t₂ k h₁ h₂
    · exact absurd (hKey ▸ h₁) (hNot t₁)
    · exact absurd h₂ (hNot t₂)
    · rfl

omit [DecidableEq θ] in
theorem Owned.mem_of_unlock (h : s.Owned held) (hTodo : s.todo t = .unlock key :: events) :
    key ∈ held t := by
  have hRest := h.balanced t
  rw [hTodo, heldAfter_cons, LockEvent.next] at hRest
  by_contra hNot
  rw [if_neg hNot] at hRest
  cases hRest

theorem Owned.unlock (h : s.Owned held) (hTodo : s.todo t = .unlock key :: events) :
    Owned { s with locked := s.locked \ {key}, todo := update s.todo t events }
      (update held t ((held t).erase key)) := by
  have hIn := h.mem_of_unlock hTodo
  have hRest := h.balanced t
  rw [hTodo, heldAfter_cons, next_unlock hIn, bind_some] at hRest
  have hMem : ∀ t' k, k ∈ update held t ((held t).erase key) t' ↔ k ∈ held t' ∧ k ≠ key := by
    intro t' k
    by_cases hSame : t' = t
    · subst hSame
      rw [update_self, (h.nodup t').mem_erase_iff, and_comm]
    · rw [update_of_ne hSame]
      refine ⟨fun hk => ⟨hk, ?_⟩, And.left⟩
      rintro rfl
      exact hSame (h.exclusive t' t k hk hIn)
  refine ⟨balanced_update h hRest, nodup_update h ((h.nodup t).erase key), ?_, ?_, h.missing⟩
  · intro k
    rw [Set.mem_sdiff, h.mem_locked, Set.mem_singleton_iff]
    simp only [hMem]
    constructor
    · rintro ⟨⟨t', hk⟩, hNe⟩
      exact ⟨t', hk, hNe⟩
    · rintro ⟨t', hk, hNe⟩
      exact ⟨⟨t', hk⟩, hNe⟩
  · intro t₁ t₂ k h₁ h₂
    rw [hMem] at h₁ h₂
    exact h.exclusive t₁ t₂ k h₁.1 h₂.1

theorem Owned.step (h : ∃ held, s.Owned held) (t : θ) : ∃ held, (s.step t).Owned held := by
  obtain ⟨held, h⟩ := h
  cases hTodo : s.todo t with
  | nil =>
    refine ⟨held, ?_⟩
    rwa [LockThreads.step, hTodo]
  | cons event events =>
    cases event with
    | lock key =>
      rw [LockThreads.step, hTodo]
      dsimp only
      split_ifs with hLocked
      · exact ⟨held, h⟩
      · exact ⟨_, h.lock hTodo hLocked⟩
    | unlock key =>
      have hLocked : key ∈ s.locked := (h.mem_locked key).mpr ⟨t, h.mem_of_unlock hTodo⟩
      rw [LockThreads.step, hTodo]
      dsimp only
      rw [if_pos hLocked]
      exact ⟨_, h.unlock hTodo⟩

omit [DecidableEq θ] in
theorem Owned.start {todo : θ → List (LockEvent κ)} (h : ∀ t, Balanced (todo t)) :
    Owned ⟨∅, todo, 0⟩ (fun _ => []) where
  balanced := h
  nodup := fun _ => nodup_nil
  mem_locked := by simp
  exclusive := nofun
  missing := rfl

theorem unlocked_of_balanced {todo : θ → List (LockEvent κ)} (h : ∀ t, Balanced (todo t))
    (schedule : List θ) :
    (Run.after step ⟨∅, todo, 0⟩ schedule).missing = 0 ∧
      ((∀ t, (Run.after step ⟨∅, todo, 0⟩ schedule).todo t = []) →
        (Run.after step ⟨∅, todo, 0⟩ schedule).locked = ∅) := by
  have hStart : ∃ held, Owned ⟨∅, todo, 0⟩ held := ⟨_, .start h⟩
  obtain ⟨held, hEnd⟩ := Run.after_invariant step (I := fun s => ∃ held, Owned s held)
    (A := fun _ _ => True) (fun s t hOwned _ => Owned.step hOwned t) hStart
    (Run.everyStep_of_forall step fun _ _ _ => trivial : Run.EveryStep step _ _ schedule)
  refine ⟨hEnd.missing, ?_⟩
  intro hDone
  apply Set.eq_empty_of_forall_notMem
  intro key hLocked
  obtain ⟨t, hHeld⟩ := (hEnd.mem_locked key).mp hLocked
  have hRest := hEnd.balanced t
  rw [hDone t, heldAfter_nil] at hRest
  rw [some.inj hRest] at hHeld
  cases hHeld

end LockThreads

end Fhgfs
