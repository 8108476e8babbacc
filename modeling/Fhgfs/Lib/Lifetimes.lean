import Mathlib.Data.Set.Insert
import Mathlib.Data.List.Nodup
import Mathlib.Data.List.Perm.Basic

/-!
# Lifetimes of reference counted objects

A table of reference counted objects that are found by key, and a table of retired ones, which
are found by pointer and freed when their last reference is given back. `Lifetimes` is the
agreement of both tables with the references that are held and with the objects that were
given to the tables; the rules below are the ways in which it goes on.

An object has its count and its pointer from functions, so that the tables can hold any records.
-/

namespace Fhgfs

open Function List

variable {κ ρ : Type}

/-- The number of references to an object. A reference is held as the key and the pointer. -/
def handlesTo (handles : List (κ × Nat)) (p : Nat) : Nat :=
  handles.countP fun h => decide (h.2 = p)

section Handles

variable {handles : List (κ × Nat)}

theorem handlesTo_append (handles : List (κ × Nat)) (h : κ × Nat) (p : Nat) :
    handlesTo (handles ++ [h]) p = handlesTo handles p + if h.2 = p then 1 else 0 := by
  unfold handlesTo
  rw [countP_append, countP_singleton]
  simp only [decide_eq_true_eq]

theorem handlesTo_erase [DecidableEq κ] {h : κ × Nat} (hIn : h ∈ handles) (p : Nat) :
    handlesTo handles p = handlesTo (handles.erase h) p + if h.2 = p then 1 else 0 := by
  unfold handlesTo
  rw [(perm_cons_erase hIn).countP_eq, countP_cons]
  simp only [decide_eq_true_eq]

theorem handlesTo_pos {h : κ × Nat} (hIn : h ∈ handles) : 0 < handlesTo handles h.2 :=
  countP_pos_iff.mpr ⟨h, hIn, by simp⟩

theorem handlesTo_eq_zero {p : Nat} (h : ∀ x ∈ handles, x.2 ≠ p) : handlesTo handles p = 0 :=
  countP_eq_zero.mpr fun x hx => by simpa using h x hx

end Handles

/-- The tables, the references that are held, the freed objects and the given ones. -/
structure Lifetimes (refCount : ρ → Int) (ptr : ρ → Nat) (active : κ → Option ρ)
    (retired : Nat → Option ρ) (handles : List (κ × Nat)) (freed : List Nat) (given : Set Nat) :
    Prop where
  active_count : ∀ k r, active k = some r → refCount r = handlesTo handles (ptr r)
  active_given : ∀ k r, active k = some r → ptr r ∈ given
  distinct : ∀ k k' r r', active k = some r → active k' = some r' → ptr r = ptr r' → k = k'
  apart : ∀ k r p r', active k = some r → retired p = some r' → ptr r ≠ p
  retired_ptr : ∀ p r, retired p = some r → ptr r = p
  retired_count : ∀ p r, retired p = some r → refCount r = handlesTo handles p
  retired_used : ∀ p r, retired p = some r → 0 < refCount r
  retired_given : ∀ p r, retired p = some r → p ∈ given
  live : ∀ h ∈ handles, h.2 ∈ given →
    (∃ r, active h.1 = some r ∧ ptr r = h.2) ∨ ∃ r, retired h.2 = some r
  freed_iff : ∀ p, p ∈ freed ↔ p ∈ given ∧ (∀ k r, active k = some r → ptr r ≠ p) ∧
    ∀ r, retired p ≠ some r
  freed_once : freed.Nodup

namespace Lifetimes

variable {refCount : ρ → Int} {ptr : ρ → Nat} {active : κ → Option ρ} {retired : Nat → Option ρ}
  {handles : List (κ × Nat)} {freed : List Nat} {given : Set Nat}

/-- An object that is not active any more has been freed exactly if no reference is left. -/
theorem mem_freed_iff (h : Lifetimes refCount ptr active retired handles freed given) {p : Nat}
    (hGiven : p ∈ given) (hGone : ∀ k r, active k = some r → ptr r ≠ p) :
    p ∈ freed ↔ handlesTo handles p = 0 := by
  rw [h.freed_iff]
  constructor
  · rintro ⟨-, -, hNone⟩
    refine handlesTo_eq_zero fun x hx hSame => ?_
    rcases h.live x hx (hSame ▸ hGiven) with ⟨r, hActive, hPtr⟩ | ⟨r, hRetired⟩
    · exact hGone _ _ hActive (hPtr.trans hSame)
    · exact hNone r (hSame ▸ hRetired)
  · intro hZero
    refine ⟨hGiven, hGone, fun r hRetired => ?_⟩
    have hCount := h.retired_count p r hRetired
    have hUsed := h.retired_used p r hRetired
    omega

/-! ## Rules -/

section Rules

open Function (update)

variable (h : Lifetimes refCount ptr active retired handles freed given)
include h

theorem refuse {p : Nat} (hNew : p ∉ given) (hUnknown : ∀ x ∈ handles, x.2 ≠ p) :
    Lifetimes refCount ptr active retired handles (freed ++ [p]) (insert p given) := by
  cases h
  constructor
  all_goals grind

variable {x : κ × Nat}

theorem acquireOther (hOther : x.2 ∉ given) :
    Lifetimes refCount ptr active retired (handles ++ [x]) freed given := by
  have hTo := handlesTo_append handles x
  cases h
  constructor
  all_goals grind

theorem dropAll {ps : List Nat} (hNodup : ps.Nodup)
    (hMem : ∀ p, p ∈ ps ↔ ∃ k r, active k = some r ∧ ptr r = p)
    (hUnused : ∀ k r, active k = some r → refCount r = 0) :
    Lifetimes refCount ptr (fun _ => none) retired handles (freed ++ ps) given := by
  have hPos : ∀ y ∈ handles, 0 < handlesTo handles y.2 := fun y hy => handlesTo_pos hy
  have hGone : ∀ p ∈ ps, p ∈ given ∧ p ∉ freed ∧ ∀ r, retired p ≠ some r := by
    intro p hp
    obtain ⟨k, r, hActive, rfl⟩ := (hMem p).mp hp
    refine ⟨h.active_given k r hActive, fun hFreed => ?_, fun r' hRetired => ?_⟩
    · exact ((h.freed_iff _).mp hFreed).2.1 k r hActive rfl
    · exact h.apart k r _ r' hActive hRetired rfl
  refine ⟨nofun, nofun, nofun, nofun, h.retired_ptr, h.retired_count, h.retired_used,
    h.retired_given, ?_, ?_, ?_⟩
  · intro x hx hGiven
    right
    rcases h.live x hx hGiven with ⟨r, hActive, hPtr⟩ | hRetired
    · have hCount := h.active_count _ _ hActive
      rw [hUnused _ _ hActive, hPtr] at hCount
      have hHeld := hPos x hx
      omega
    · exact hRetired
  · intro p
    rw [mem_append, h.freed_iff]
    constructor
    · rintro (⟨hGiven, -, hNone⟩ | hp)
      · exact ⟨hGiven, nofun, hNone⟩
      · exact ⟨(hGone p hp).1, nofun, (hGone p hp).2.2⟩
    · rintro ⟨hGiven, -, hNone⟩
      by_cases hp : p ∈ ps
      · exact Or.inr hp
      · refine Or.inl ⟨hGiven, fun k r hActive hPtr => hp ?_, hNone⟩
        exact (hMem p).mpr ⟨k, r, hActive, hPtr⟩
  · exact List.Nodup.append h.freed_once hNodup fun p hFreed hp => (hGone p hp).2.1 hFreed

variable [DecidableEq κ]

omit h in
theorem apply_eq_update (active : κ → Option ρ) (k : κ) (r : Option ρ) :
    ∀ k', k' ≠ k → active k' = update active k r k' :=
  fun _ hk => (update_of_ne hk _ _).symm

variable {k : κ}

theorem add {r : ρ} (hFree : active k = none) (hNew : ptr r ∉ given)
    (hUnknown : ∀ x ∈ handles, x.2 ≠ ptr r) (hCount : refCount r = 0) :
    Lifetimes refCount ptr (update active k (some r)) retired handles freed
      (insert (ptr r) given) := by
  have hZero := handlesTo_eq_zero hUnknown
  have hHere : update active k (some r) k = some r := update_self _ _ _
  have hThere := apply_eq_update active k (some r)
  cases h
  constructor
  all_goals grind [update_apply]

variable {r r' : ρ}

section

variable (hFind : active k = some r) (hPtr : ptr r' = ptr r)
include hFind hPtr

theorem modify (hCount : refCount r' = refCount r) :
    Lifetimes refCount ptr (update active k (some r')) retired handles freed given := by
  have hThere := apply_eq_update active k (some r')
  cases h
  constructor
  all_goals grind [update_apply]

theorem acquire (hCount : refCount r' = refCount r + 1) :
    Lifetimes refCount ptr (update active k (some r')) retired (handles ++ [(k, ptr r)]) freed
      given := by
  have hThere := apply_eq_update active k (some r')
  have hTo := handlesTo_append handles (k, ptr r)
  cases h
  constructor
  all_goals grind [update_apply]

end

theorem releaseOther (hIn : x ∈ handles) (hOther : x.2 ∉ given) :
    Lifetimes refCount ptr active retired (handles.erase x) freed given := by
  have hTo := handlesTo_erase hIn
  cases h
  constructor
  all_goals grind

theorem releaseActive (hFind : active k = some r)
    (hIn : (k, ptr r) ∈ handles) (hPtr : ptr r' = ptr r) (hCount : refCount r' = refCount r - 1) :
    Lifetimes refCount ptr (update active k (some r')) retired (handles.erase (k, ptr r)) freed
      given := by
  have hThere := apply_eq_update active k (some r')
  have hTo := handlesTo_erase hIn
  cases h
  constructor
  all_goals grind [update_apply]

theorem releaseRetired (hFind : retired x.2 = some r)
    (hIn : x ∈ handles) (hPtr : ptr r' = ptr r) (hCount : refCount r' = refCount r - 1)
    (hMore : refCount r' ≠ 0) :
    Lifetimes refCount ptr active (update retired x.2 (some r')) (handles.erase x) freed given := by
  have hTo := handlesTo_erase hIn
  cases h
  constructor
  all_goals grind [update_apply]

theorem releaseLast {r : ρ} (hFind : retired x.2 = some r) (hIn : x ∈ handles)
    (hLast : refCount r = 1) :
    Lifetimes refCount ptr active (update retired x.2 none) (handles.erase x) (freed ++ [x.2])
      given := by
  have hTo := handlesTo_erase hIn
  have hPos : ∀ y ∈ handles.erase x, 0 < handlesTo (handles.erase x) y.2 :=
    fun y hy => handlesTo_pos hy
  cases h
  constructor
  all_goals grind [update_apply]

theorem retire {r : ρ} (hFind : active k = some r) (hUsed : refCount r ≠ 0) :
    Lifetimes refCount ptr (update active k none) (update retired (ptr r) (some r)) handles freed
      given := by
  have hElse := apply_eq_update active k none
  cases h
  constructor
  all_goals grind [update_apply]

theorem drop {r : ρ} (hFind : active k = some r) (hUnused : refCount r = 0) :
    Lifetimes refCount ptr (update active k none) retired handles (freed ++ [ptr r]) given := by
  have hElse := apply_eq_update active k none
  have hPos : ∀ y ∈ handles, 0 < handlesTo handles y.2 := fun y hy => handlesTo_pos hy
  cases h
  constructor
  all_goals grind [update_apply]

end Rules

end Lifetimes

end Fhgfs
