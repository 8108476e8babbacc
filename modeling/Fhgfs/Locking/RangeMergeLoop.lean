import Fhgfs.Locking.RangeLoops

/-!
# The loops of a range lock grant

`rangeMergeLoop` merges the mergeable locks of the same handle into the new lock and removes
them from the set; the new lock is inserted afterwards. `Absorbs` is the relation between the
new lock, the locks of the set, the merged lock and the list of the removed locks.

* `Absorbs.covers_iff`: the merged lock has the bytes of the new lock and of the removed ones.
* `Absorbs.decided`: a lock of the handle stays only if it was not mergeable with some lock
  between the new and the merged one.
* `Absorbs.collision`: the start of the merged lock is taken only by a lock that reaches the
  top of the offsets, or when the new lock itself does and nothing was merged.
-/

namespace Fhgfs.Locking

open RangeLockDetails List

/-- `Absorbs l xs l' gone`: running over `xs`, the lock `l` has become `l'`, and the locks
`gone` were merged into it. -/
inductive Absorbs : RangeLockDetails → List RangeLockDetails → RangeLockDetails →
    List RangeLockDetails → Prop
  | nil (l : RangeLockDetails) : Absorbs l [] l []
  | merge {l x l' : RangeLockDetails} {xs gone : List RangeLockDetails}
      (hOwn : l.handle = x.handle) (hMergeable : l.isMergeable x = true)
      (h : Absorbs (l.merge x) xs l' gone) : Absorbs l (x :: xs) l' (x :: gone)
  | keep {l x l' : RangeLockDetails} {xs gone : List RangeLockDetails}
      (hNot : ¬ (l.handle = x.handle ∧ l.isMergeable x = true)) (h : Absorbs l xs l' gone) :
      Absorbs l (x :: xs) l' gone

namespace Absorbs

variable {l l' : RangeLockDetails} {xs gone : List RangeLockDetails}

section

variable (h : Absorbs l xs l' gone)
include h

theorem gone_mem : ∀ x ∈ gone, x ∈ xs ∧ x.handle = l.handle := by
  induction h with
  | nil l => simp
  | merge hOwn hMergeable h ih =>
    intro x hx
    rcases mem_cons.mp hx with rfl | hx
    · exact ⟨mem_cons_self, hOwn.symm⟩
    · obtain ⟨hIn, hHandle⟩ := ih x hx
      exact ⟨mem_cons_of_mem _ hIn, hHandle⟩
  | keep hNot h ih =>
    intro x hx
    obtain ⟨hIn, hHandle⟩ := ih x hx
    exact ⟨mem_cons_of_mem _ hIn, hHandle⟩

theorem same :
    l'.handle = l.handle ∧ l'.lockAckID = l.lockAckID ∧
    l'.lockTypeFlags = l.lockTypeFlags := by
  induction h with
  | nil l => exact ⟨rfl, rfl, rfl⟩
  | merge hOwn hMergeable h ih => exact ih
  | keep hNot h ih => exact ih

theorem valid (hl : l.Valid) : l'.Valid := by
  induction h with
  | nil l => exact hl
  | merge hOwn hMergeable h ih => exact ih (valid_merge hl)
  | keep hNot h ih => exact ih hl

theorem covers_iff (hl : l.Valid) (hxs : ∀ x ∈ xs, x.Valid)
    (b : Nat) : l'.covers b ↔ l.covers b ∨ ∃ x ∈ gone, x.covers b := by
  induction h with
  | nil l => simp
  | @merge l x l' xs gone hOwn hMergeable h ih =>
    obtain ⟨hx, hxs⟩ := forall_mem_cons.mp hxs
    rw [ih (valid_merge hl) hxs, covers_merge hMergeable]
    simp only [mem_cons, exists_eq_or_imp, or_assoc]
  | keep hNot h ih => exact ih hl (forall_mem_cons.mp hxs).2

theorem bounds : l'.start.toNat ≤ l.start.toNat ∧ l.stop.toNat ≤ l'.stop.toNat := by
  induction h with
  | nil l => exact ⟨le_rfl, le_rfl⟩
  | @merge l x l' xs gone hOwn hMergeable h ih =>
    rw [start_merge, stop_merge] at ih
    omega
  | keep hNot h ih => exact ih

/-- The start of the merged lock is the start of one of its parts, and none starts before. -/
theorem start_eq :
    (l'.start = l.start ∨ ∃ x ∈ gone, l'.start = x.start) ∧
    ∀ x ∈ gone, l'.start.toNat ≤ x.start.toNat := by
  induction h with
  | nil l => exact ⟨Or.inl rfl, by simp⟩
  | @merge l x l' xs gone hOwn hMergeable h ih =>
    have hBounds := h.bounds
    rw [start_merge] at hBounds
    constructor
    · rcases ih.1 with hEq | ⟨y, hy, hEq⟩
      · rw [hEq]
        simp only [RangeLockDetails.merge]
        split
        · exact Or.inl rfl
        · exact Or.inr ⟨x, mem_cons_self, rfl⟩
      · exact Or.inr ⟨y, mem_cons_of_mem _ hy, hEq⟩
    · intro y hy
      rcases mem_cons.mp hy with rfl | hy
      · omega
      · exact ih.2 y hy
  | keep hNot h ih => exact ih

theorem eq_of_gone_nil (hNil : gone = []) : l' = l := by
  induction h with
  | nil l => rfl
  | merge hOwn hMergeable h ih => cases hNil
  | keep hNot h ih => exact ih hNil

theorem gone_nil_iff : gone = [] ↔ ∀ x ∈ xs, x.handle = l.handle → l.isMergeable x = false := by
  induction h with
  | nil l => simp
  | @merge l x l' xs gone hOwn hMergeable h ih =>
    simp only [reduceCtorEq, mem_cons, forall_eq_or_imp, false_iff, not_and]
    intro hx
    exact absurd ((hx hOwn.symm).symm.trans hMergeable) Bool.false_ne_true
  | @keep l x l' xs gone hNot h ih =>
    rw [ih, forall_mem_cons]
    constructor
    · intro hxs
      refine ⟨fun hOwn => ?_, hxs⟩
      exact eq_false_of_ne_true fun hMergeable => hNot ⟨hOwn.symm, hMergeable⟩
    · exact fun hAll => hAll.2

end

theorem keep_all (hNone : ∀ x ∈ xs, ¬ (l.handle = x.handle ∧ l.isMergeable x = true)) :
    Absorbs l xs l [] := by
  induction xs with
  | nil => exact .nil l
  | cons x xs ih =>
    obtain ⟨hx, hxs⟩ := forall_mem_cons.mp hNone
    exact .keep hx (ih hxs)

/-- The locks of handle `h` stand in the order of their starts. -/
def OwnOrdered (h : Int ×ₗ String) (xs : List RangeLockDetails) : Prop :=
  xs.Pairwise (fun x y => x.handle = h → y.handle = h → x.start.toNat < y.start.toNat)

theorem OwnOrdered.eq_of_start {h : Int ×ₗ String} (hOrder : OwnOrdered h xs)
    {x y : RangeLockDetails} (hx : x ∈ xs) (hy : y ∈ xs) (hxOwn : x.handle = h)
    (hyOwn : y.handle = h) (hStart : x.start.toNat = y.start.toNat) : x = y := by
  have hpair : xs.Pairwise (fun x y => x.handle = h → y.handle = h →
      x.start.toNat = y.start.toNat → x = y) := by
    refine hOrder.imp ?_
    intro a b hlt ha hb heq
    have := hlt ha hb
    omega
  have hflip : xs.Pairwise (flip fun x y => x.handle = h → y.handle = h →
      x.start.toNat = y.start.toNat → x = y) := by
    refine hOrder.imp ?_
    intro a b hlt hb ha heq
    have := hlt ha hb
    omega
  exact hpair.forall_of_forall_of_flip (fun _ _ _ _ _ => rfl) hflip hx hy hxOwn hyOwn hStart

/-- Each lock of the handle was decided against a lock between the new and the merged one,
whose last byte is that of the new lock unless a lock before it was merged. -/
theorem decided (h : Absorbs l xs l' gone) (hOrder : OwnOrdered l.handle xs) :
    ∀ x ∈ xs, x.handle = l.handle → ∃ m : RangeLockDetails,
      (l'.start.toNat ≤ m.start.toNat ∧ m.start.toNat ≤ l.start.toNat) ∧
      (l.stop.toNat ≤ m.stop.toNat ∧ m.stop.toNat ≤ l'.stop.toNat) ∧
      (m.stop = l.stop ∨ ∃ y ∈ gone, y.start.toNat < x.start.toNat) ∧
      (x ∈ gone ↔ m.isMergeable x = true) := by
  induction h with
  | nil l => simp
  | @merge l x₀ l' xs gone hOwn hMergeable h ih =>
    obtain ⟨hFirst, hRest⟩ := pairwise_cons.mp hOrder
    have hBounds := (Absorbs.merge hOwn hMergeable h).bounds
    intro x hx hxOwn
    rcases mem_cons.mp hx with rfl | hx
    · refine ⟨l, ⟨hBounds.1, le_rfl⟩, ⟨le_rfl, hBounds.2⟩, Or.inl rfl, ?_⟩
      simp [hMergeable]
    obtain ⟨m, hStart, hStop, -, hIff⟩ := ih hRest x hx hxOwn
    have hLt := hFirst x hx hOwn.symm hxOwn
    have hne : x ≠ x₀ := by
      rintro rfl
      omega
    rw [start_merge] at hStart
    rw [stop_merge] at hStop
    refine ⟨m, by omega, by omega, Or.inr ⟨x₀, mem_cons_self, hLt⟩, ?_⟩
    simp only [mem_cons, hne, false_or]
    exact hIff
  | @keep l x₀ l' xs gone hNot h ih =>
    obtain ⟨hFirst, hRest⟩ := pairwise_cons.mp hOrder
    intro x hx hxOwn
    rcases mem_cons.mp hx with rfl | hx
    · refine ⟨l, ⟨h.bounds.1, le_rfl⟩, ⟨le_rfl, h.bounds.2⟩, Or.inl rfl, ?_⟩
      have hNotGone : x ∉ gone := by
        intro hIn
        have := hFirst x (h.gone_mem x hIn).1 hxOwn hxOwn
        omega
      simp only [hNotGone, false_iff]
      exact fun hMergeable => hNot ⟨hxOwn.symm, hMergeable⟩
    · exact ih hRest x hx hxOwn

/-- When the start of the merged lock is taken by a lock of the handle that was left alone,
either that lock reaches the top and has all bytes of the merged one, or the new lock reaches
the top and nothing was merged. -/
theorem collision (h : Absorbs l xs l' gone) (hl : l.Valid) (hxs : ∀ x ∈ xs, x.Valid)
    (hOrder : OwnOrdered l.handle xs) {z : RangeLockDetails} (hz : z ∈ xs)
    (hOwn : z.handle = l.handle) (hLeft : z ∉ gone) (hStart : z.start.toNat = l'.start.toNat) :
    (∀ b, l'.covers b → z.covers b) ∨
    (l' = l ∧ gone = [] ∧ l.stop.toNat = topByte ∧ 0 < l.start.toNat) := by
  obtain ⟨m, hmStart, hmStop, hmLast, hmIff⟩ := h.decided hOrder z hz hOwn
  have hNot : ¬ m.isMergeable z = true := fun hMergeable => hLeft (hmIff.mpr hMergeable)
  rw [isMergeable_iff, toNat_succ, toNat_succ] at hNot
  have hzValid : z.start.toNat ≤ z.stop.toNat := hxs z hz
  have hlValid : l.start.toNat ≤ l.stop.toNat := hl
  have hTop' := l'.stop_le_top
  obtain ⟨hStartEq, hStartLe⟩ := h.start_eq
  have hSame : l'.start = l.start := by
    rcases hStartEq with hEq | ⟨x, hx, hEq⟩
    · exact hEq
    · obtain ⟨hxIn, hxOwn⟩ := h.gone_mem x hx
      have hxz : x = z := hOrder.eq_of_start hxIn hz hxOwn hOwn (by rw [hStart, hEq])
      exact absurd (hxz ▸ hx) hLeft
  by_cases hzTop : z.stop.toNat = topByte
  · refine Or.inl ?_
    intro b hb
    unfold covers at hb ⊢
    omega
  rw [if_neg hzTop] at hNot
  rw [hSame] at hStart hmStart
  -- so `z` was too far right of a lock that reaches the top
  have hTop : m.stop.toNat = topByte := by
    by_contra hmNot
    rw [if_neg hmNot] at hNot
    omega
  rw [if_pos hTop] at hNot
  have hlTop : l.stop.toNat = topByte := by
    rcases hmLast with hEq | ⟨y, hy, hLt⟩
    · rwa [← hEq]
    · have := hStartLe y hy
      rw [hSame] at this
      omega
  have hNone : gone = [] := by
    rw [eq_nil_iff_forall_not_mem]
    intro y hy
    obtain ⟨hyIn, hyOwn⟩ := h.gone_mem y hy
    obtain ⟨m', -, hStop', -, hIff'⟩ := h.decided hOrder y hyIn hyOwn
    have hMergeable := hIff'.mp hy
    have hm'Top := m'.stop_le_top
    rw [isMergeable_iff, toNat_succ m'.stop, if_pos (by omega)] at hMergeable
    have := hStartLe y hy
    rw [hSame] at this
    omega
  exact Or.inr ⟨h.eq_of_gone_nil hNone, hNone, hlTop, by omega⟩

end Absorbs

/-! ## The loop -/

section Loop

variable {κ : Type} [LinearOrder κ] {key : RangeLockDetails → κ}

/-- The loop computes `Absorbs`, and removes from the set what it merges. A bound may end it
when no later lock is mergeable. -/
theorem rangeMergeLoop_spec {inBound : RangeLockDetails → RangeLockDetails → Bool}
    {R : RangeLockDetails → RangeLockDetails → Prop}
    (hHere : ∀ l x, inBound l x = false → l.isMergeable x = false)
    (hLater : ∀ l x y, inBound l x = false → R x y → l.isMergeable y = false)
    {l : RangeLockDetails} {xs : List RangeLockDetails} {locks : OrderedSet key}
    (hMem : ∀ x ∈ xs, x ∈ locks) (hNodup : xs.Nodup) (hR : xs.Pairwise R) :
    ∃ gone, Absorbs l xs (rangeMergeLoop inBound l xs locks).1 gone ∧
      ∀ y, y ∈ (rangeMergeLoop inBound l xs locks).2 ↔ y ∈ locks ∧ y ∉ gone := by
  induction xs generalizing l locks with
  | nil => exact ⟨[], .nil l, by simp [rangeMergeLoop]⟩
  | cons x xs ih =>
    obtain ⟨hx, hxs⟩ := forall_mem_cons.mp hMem
    obtain ⟨hNew, hRest⟩ := nodup_cons.mp hNodup
    obtain ⟨hRx, hRxs⟩ := pairwise_cons.mp hR
    unfold rangeMergeLoop
    by_cases hBound : inBound l x = true
    · simp only [hBound, Bool.not_true, Bool.false_eq_true, if_false]
      by_cases hMerge : l.handle = x.handle ∧ l.isMergeable x = true
      · have hOwn : l.equalsHandle x = true := equalsHandle_iff.mpr hMerge.1
        simp only [hOwn, hMerge.2, Bool.and_self, if_true]
        have hMem' : ∀ y ∈ xs, y ∈ locks.erase x := by
          intro y hy
          exact (OrderedSet.mem_erase_of_mem hx).mpr ⟨hxs y hy, fun heq => hNew (heq ▸ hy)⟩
        obtain ⟨gone, hAbsorbs, hLocks⟩ := ih (l := l.merge x) hMem' hRest hRxs
        refine ⟨x :: gone, .merge hMerge.1 hMerge.2 hAbsorbs, fun y => ?_⟩
        rw [hLocks, OrderedSet.mem_erase_of_mem hx]
        simp only [mem_cons]
        tauto
      · have hCond : (l.equalsHandle x && l.isMergeable x) = false := by
          rwa [← Bool.not_eq_true, Bool.and_eq_true, equalsHandle_iff]
        simp only [hCond, Bool.false_eq_true, if_false]
        obtain ⟨gone, hAbsorbs, hLocks⟩ := ih (l := l) hxs hRest hRxs
        exact ⟨gone, .keep hMerge hAbsorbs, hLocks⟩
    · have hBound := eq_false_of_ne_true hBound
      simp only [hBound, Bool.not_false, if_true]
      refine ⟨[], Absorbs.keep_all ?_, by simp⟩
      rintro y hy ⟨-, hMergeable⟩
      rcases mem_cons.mp hy with rfl | hy
      · exact absurd ((hHere l y hBound).symm.trans hMergeable) Bool.false_ne_true
      · exact absurd ((hLater l x y hBound (hRx y hy)).symm.trans hMergeable)
          Bool.false_ne_true

end Loop

end Fhgfs.Locking
