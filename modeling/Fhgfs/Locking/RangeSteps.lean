import Fhgfs.Locking.RangeLocks

/-!
# What unlocks and grants do to the held bytes

The specification of the steps of the range lock manager on the sets of granted locks.

* `flockRangeUnlock_trimmed`: an unlock only takes bytes of the unlocked range away, from its
  own handle; `flockRangeUnlock_unchanged`: if it reports nothing, it changed nothing.
* `Granted`: a grant merges locks of the handle into the new lock and inserts the result if its
  start is free; `flockRangeShared_granted`, `flockRangeExclusive_granted`.
* `Granted.holds_sound`, `Granted.holds_mono`: a grant adds bytes of the new lock only, and
  never loses a byte.
* `Granted.held_iff`: the new lock is held afterwards, unless the insertion was refused at the
  top of the offsets, `RefusedAtTop`.
-/

namespace Fhgfs.Locking

open RangeLockDetails

section Sets

variable {κ lam : Type} [LinearOrder κ] {key : RangeLockDetails → κ}
  {lane : RangeLockDetails → lam}

/-! ## Unlocks -/

/-- The set `s'` is `s` after an unlock of `d`. -/
structure Trimmed (d : RangeLockDetails) (s s' : OrderedSet key) : Prop where
  origin : ∀ y ∈ s', y ∈ s ∨
    (y.Valid ∧ y.handle = d.handle ∧
      ∃ x ∈ s, x.handle = d.handle ∧ ∀ b, y.covers b → x.covers b ∧ ¬ d.covers b)
  untouched : ∀ y ∈ s, ¬ Touched d y → y ∈ s'

namespace Trimmed

variable {d : RangeLockDetails} {s s' : OrderedSet key}

theorem refl (d : RangeLockDetails) (s : OrderedSet key) : Trimmed d s s :=
  ⟨fun _ hy => Or.inl hy, fun _ hy _ => hy⟩

theorem allValid (h : Trimmed d s s') (hValid : AllValid s) : AllValid s' := by
  intro y hy
  rcases h.origin y hy with hy | ⟨hy, -⟩
  · exact hValid y hy
  · exact hy

theorem holds_sound (h : Trimmed d s s') {g : Int ×ₗ String} {b : Nat}
    (hHolds : Holds s' g b) : Holds s g b := by
  obtain ⟨y, hy, hHandle, hb⟩ := hHolds
  rcases h.origin y hy with hy | ⟨-, hOwn, x, hx, hxOwn, hBytes⟩
  · exact ⟨y, hy, hHandle, hb⟩
  · exact ⟨x, hx, hxOwn.trans (hOwn.symm.trans hHandle), (hBytes b hb).1⟩

theorem others (h : Trimmed d s s') {y : RangeLockDetails} (hOther : y.handle ≠ d.handle) :
    y ∈ s' ↔ y ∈ s := by
  constructor
  · intro hy
    rcases h.origin y hy with hy | ⟨-, hOwn, -⟩
    · exact hy
    · exact absurd hOwn hOther
  · intro hy
    exact h.untouched y hy fun hTouched => hOther hTouched.1

end Trimmed

theorem UnlockSpec.trimmed {d : RangeLockDetails} {xs : List RangeLockDetails}
    {s : OrderedSet key} {lockRemoved : Bool} {res : RangeUnlockResult key}
    (h : UnlockSpec d xs s lockRemoved res) : Trimmed d s res.locks :=
  ⟨h.origin, h.untouched⟩

/-! ## Grants -/

/-- The set `s'` is `s` after the grant of `l`, which was merged into `l'`: the locks `gone`
were merged, and `l'` was inserted if no other lock had its key. -/
def Granted (l : RangeLockDetails) (s : OrderedSet key) (l' : RangeLockDetails)
    (s' : OrderedSet key) : Prop :=
  ∃ gone, Absorbs l s.elems l' gone ∧
    ∀ y, y ∈ s' ↔ (y ∈ s ∧ y ∉ gone) ∨ (y = l' ∧ ∀ z ∈ s, z ∉ gone → key z ≠ key l')

theorem granted_of_mergeLoop {inBound : RangeLockDetails → RangeLockDetails → Bool}
    {R : RangeLockDetails → RangeLockDetails → Prop}
    (hHere : ∀ l x, inBound l x = false → l.isMergeable x = false)
    (hLater : ∀ l x y, inBound l x = false → R x y → l.isMergeable y = false)
    {l : RangeLockDetails} {s : OrderedSet key} (hR : s.elems.Pairwise R) :
    Granted l s (rangeMergeLoop inBound l s.elems s).1
      ((rangeMergeLoop inBound l s.elems s).2.insert (rangeMergeLoop inBound l s.elems s).1) := by
  obtain ⟨gone, hAbsorbs, hLocks⟩ :=
    rangeMergeLoop_spec hHere hLater (l := l) (fun x hx => hx) s.nodup_elems hR
  refine ⟨gone, hAbsorbs, fun y => ?_⟩
  rw [OrderedSet.mem_insert, hLocks]
  refine or_congr Iff.rfl (and_congr_right fun _ => ?_)
  simp only [hLocks, and_imp]

theorem ownOrdered (hKey : LockKey key lane) (s : OrderedSet key) (h : Int ×ₗ String) :
    Absorbs.OwnOrdered h s.elems := by
  refine s.ascending.imp ?_
  intro x y hlt hx hy
  exact hKey.lt_start x y (hKey.lane_eq x y (hx.trans hy.symm)) hlt

/-- No lock of another handle in the lane of `l` shares a byte with `l` or with a lock of the
handle of `l`. -/
def LaneFree (lane : RangeLockDetails → lam) (l : RangeLockDetails) (s : OrderedSet key) : Prop :=
  ∀ z ∈ s, lane z = lane l → z.handle ≠ l.handle → ∀ b,
    l.covers b ∨ Holds s l.handle b → ¬ z.covers b

/-- The insertion of `l` is refused for good: `l` reaches the top of the offsets, so that
nothing is mergeable with it, its start is taken by a lock of the same handle, and it has a
byte that the handle does not hold. -/
def RefusedAtTop (s : OrderedSet key) (l : RangeLockDetails) : Prop :=
  l.stop.toNat = topByte ∧ 0 < l.start.toNat ∧
  (∃ x ∈ s, x.handle = l.handle ∧ x.start.toNat = l.start.toNat) ∧
  (∀ x ∈ s, x.handle = l.handle → l.isMergeable x = false) ∧
  ∃ b, l.covers b ∧ ¬ Holds s l.handle b

namespace Granted

variable {l l' : RangeLockDetails} {s s' : OrderedSet key}

section

variable (h : Granted l s l' s')
include h

theorem allValid (hl : l.Valid) (hValid : AllValid s) : AllValid s' := by
  obtain ⟨gone, hAbsorbs, hMem⟩ := h
  intro y hy
  rcases (hMem y).mp hy with ⟨hy, -⟩ | ⟨rfl, -⟩
  · exact hValid y hy
  · exact hAbsorbs.valid hl

theorem holds_sound (hl : l.Valid) (hValid : AllValid s)
    {g : Int ×ₗ String} {b : Nat} (hHolds : Holds s' g b) :
    Holds s g b ∨ (g = l.handle ∧ l.covers b) := by
  obtain ⟨gone, hAbsorbs, hMem⟩ := h
  obtain ⟨y, hy, hHandle, hb⟩ := hHolds
  rcases (hMem y).mp hy with ⟨hy, -⟩ | ⟨rfl, -⟩
  · exact Or.inl ⟨y, hy, hHandle, hb⟩
  · have hOwn : g = l.handle := by rw [← hHandle, hAbsorbs.same.1]
    rcases (hAbsorbs.covers_iff hl hValid b).mp hb with hb | ⟨x, hx, hxb⟩
    · exact Or.inr ⟨hOwn, hb⟩
    · obtain ⟨hIn, hxOwn⟩ := hAbsorbs.gone_mem x hx
      exact Or.inl ⟨x, hIn, hxOwn.trans hOwn.symm, hxb⟩

section

variable (hKey : LockKey key lane) (hl : l.Valid) (hValid : AllValid s) (hFree : LaneFree lane l s)
include hKey hl hValid hFree

theorem held_or_top : (∀ b, l'.covers b → Holds s' l.handle b) ∨
    ((∀ y, y ∈ s' ↔ y ∈ s) ∧ (∀ x ∈ s, x.handle = l.handle → l.isMergeable x = false) ∧
      l.stop.toNat = topByte ∧ 0 < l.start.toNat ∧
      ∃ x ∈ s, x.handle = l.handle ∧ x.start.toNat = l.start.toNat) := by
  obtain ⟨gone, hAbsorbs, hMem⟩ := h
  by_cases hTaken : ∃ z ∈ s, z ∉ gone ∧ key z = key l'
  · obtain ⟨z, hz, hLeft, hzKey⟩ := hTaken
    obtain ⟨hLane, hStart⟩ := (hKey.eq_iff z l').mp hzKey
    have hl'Handle : l'.handle = l.handle := hAbsorbs.same.1
    have hOwn : z.handle = l.handle := by
      by_contra hOther
      have hzLane : lane z = lane l := hLane.trans (hKey.lane_eq l' l hl'Handle)
      have hStartByte := covers_start (hAbsorbs.valid hl)
      refine hFree z hz hzLane hOther l'.start.toNat ?_ ?_
      · refine ((hAbsorbs.covers_iff hl hValid _).mp hStartByte).imp id ?_
        rintro ⟨x, hx, hxb⟩
        obtain ⟨hIn, hxOwn⟩ := hAbsorbs.gone_mem x hx
        exact ⟨x, hIn, hxOwn, hxb⟩
      · rw [← hStart]
        exact covers_start (hValid z hz)
    rcases hAbsorbs.collision hl hValid (ownOrdered hKey s l.handle) hz hOwn hLeft hStart with
      hCovered | ⟨hSame, hNone, hTop, hPos⟩
    · exact Or.inl fun b hb => ⟨z, (hMem z).mpr (Or.inl ⟨hz, hLeft⟩), hOwn, hCovered b hb⟩
    subst hSame
    subst hNone
    refine Or.inr ⟨fun y => ?_, hAbsorbs.gone_nil_iff.mp rfl, hTop, hPos, z, hz, hOwn, hStart⟩
    rw [hMem]
    constructor
    · rintro (⟨hy, -⟩ | ⟨-, hFresh⟩)
      · exact hy
      · exact absurd hzKey (hFresh z hz hLeft)
    · exact fun hy => Or.inl ⟨hy, List.not_mem_nil⟩
  · refine Or.inl fun b hb => ⟨l', (hMem l').mpr (Or.inr ⟨rfl, ?_⟩), hAbsorbs.same.1, hb⟩
    intro z hz hLeft hEq
    exact hTaken ⟨z, hz, hLeft, hEq⟩

theorem holds_mono {g : Int ×ₗ String} {b : Nat} (hHolds : Holds s g b) : Holds s' g b := by
  have hTop := h.held_or_top hKey hl hValid hFree
  obtain ⟨gone, hAbsorbs, hMem⟩ := h
  obtain ⟨x, hx, hHandle, hb⟩ := hHolds
  rcases hTop with hHeld | ⟨hSame, -⟩
  · by_cases hGone : x ∈ gone
    · have hOwn := (hAbsorbs.gone_mem x hGone).2
      rw [← hHandle, hOwn]
      exact hHeld b ((hAbsorbs.covers_iff hl hValid b).mpr (Or.inr ⟨x, hGone, hb⟩))
    · exact ⟨x, (hMem x).mpr (Or.inl ⟨hx, hGone⟩), hHandle, hb⟩
  · exact ⟨x, (hSame x).mpr hx, hHandle, hb⟩

theorem held_iff : (∀ b, l.covers b → Holds s' l.handle b) ↔ ¬ RefusedAtTop s l := by
  have hTop := h.held_or_top hKey hl hValid hFree
  constructor
  · rintro hHeld ⟨-, -, ⟨x, hx, hOwn, hStart⟩, hNone, b, hb, hNot⟩
    obtain ⟨gone, hAbsorbs, hMem⟩ := h
    have hNil := hAbsorbs.gone_nil_iff.mpr hNone
    have hSame := hAbsorbs.eq_of_gone_nil hNil
    subst hSame
    subst hNil
    have hTaken : key x = key l' := (hKey.eq_iff x l').mpr ⟨hKey.lane_eq x l' hOwn, hStart⟩
    obtain ⟨y, hy, hyOwn, hyb⟩ := hHeld b hb
    rcases (hMem y).mp hy with ⟨hy, -⟩ | ⟨-, hFresh⟩
    · exact hNot ⟨y, hy, hyOwn, hyb⟩
    · exact hFresh x hx List.not_mem_nil hTaken
  · intro hNotRefused
    rcases hTop with hHeld | ⟨hSame, hNone, hStop, hPos, hTaken⟩
    · intro b hb
      obtain ⟨gone, hAbsorbs, -⟩ := h
      exact hHeld b ((hAbsorbs.covers_iff hl hValid b).mpr (Or.inl hb))
    · intro b hb
      by_contra hNot
      refine hNotRefused ⟨hStop, hPos, hTaken, hNone, b, hb, ?_⟩
      rintro ⟨x, hx, hOwn, hxb⟩
      exact hNot ⟨x, (hSame x).mpr hx, hOwn, hxb⟩

end

end

end Granted

end Sets

/-! ## The functions of the manager -/

section Functions

variable {d : RangeLockDetails} {q : RangeLockQueues}

theorem exclUpTo_mem : ∀ x ∈ q.exclUpTo d, x ∈ q.exclRangeFLocks :=
  fun _ hx => (mem_exclUpTo.mp hx).1

theorem exclUpTo_nodup : (q.exclUpTo d).Nodup :=
  q.exclRangeFLocks.nodup_elems.sublist (List.takeWhile_sublist _)

/-- The loop of an unlock over the exclusive locks. The bound of the loop leaves out no lock
that overlaps. -/
theorem exclUnlock_spec (hd : d.Valid) (hValid : AllValid q.exclRangeFLocks) :
    UnlockSpec d q.exclRangeFLocks.elems q.exclRangeFLocks false
      (rangeUnlockLoop d (q.exclUpTo d) q.exclRangeFLocks false) := by
  have hSpec := rangeUnlockLoop_spec hd (r := false) (exclUpTo_mem (d := d)) exclUpTo_nodup
    (fun x hx => hValid x (exclUpTo_mem x hx))
  have hVisited : ∀ y ∈ q.exclRangeFLocks, Touched d y → y ∈ q.exclUpTo d := by
    rintro y hy ⟨-, b, hyb, hdb⟩
    refine mem_exclUpTo.mpr ⟨hy, ?_⟩
    unfold covers at hyb hdb
    omega
  refine ⟨hSpec.origin, hSpec.untouched, ?_, hSpec.whole, ?_, hSpec.unchanged⟩
  · intro hReturned y hy hTouched
    exact hSpec.gone hReturned y (hVisited y hy hTouched) hTouched
  · intro hReturned y hy hOwn hAll
    have hTouched : Touched d y := ⟨hOwn, _, hAll _ (covers_start hd), covers_start hd⟩
    exact hSpec.partly hReturned y (hVisited y hy hTouched) hOwn hAll

theorem sharedUnlock_spec (hd : d.Valid) (hValid : AllValid q.sharedRangeFLocks)
    (lockRemoved : Bool) :
    UnlockSpec d q.sharedRangeFLocks.elems q.sharedRangeFLocks lockRemoved
      (rangeUnlockLoop d q.sharedRangeFLocks.elems q.sharedRangeFLocks lockRemoved) :=
  rangeUnlockLoop_spec hd (fun _ hx => hx) q.sharedRangeFLocks.nodup_elems hValid

/-- An unlock takes bytes of the unlocked range away from its handle, and touches no
waiters. -/
theorem flockRangeUnlock_trimmed (hd : d.Valid) (hExcl : AllValid q.exclRangeFLocks)
    (hShared : AllValid q.sharedRangeFLocks) :
    Trimmed d q.exclRangeFLocks (flockRangeUnlock d q).1.exclRangeFLocks ∧
    Trimmed d q.sharedRangeFLocks (flockRangeUnlock d q).1.sharedRangeFLocks := by
  unfold flockRangeUnlock
  simp only
  split
  · exact ⟨(exclUnlock_spec hd hExcl).trimmed, Trimmed.refl d _⟩
  · exact ⟨(exclUnlock_spec hd hExcl).trimmed, (sharedUnlock_spec hd hShared _).trimmed⟩

theorem flockRangeUnlock_waiters :
    (flockRangeUnlock d q).1.waitersExclRangeFLock = q.waitersExclRangeFLock ∧
    (flockRangeUnlock d q).1.waitersSharedRangeFLock = q.waitersSharedRangeFLock ∧
    (flockRangeUnlock d q).1.waitersLockIDsRangeFLock = q.waitersLockIDsRangeFLock := by
  unfold flockRangeUnlock
  simp only
  split <;> exact ⟨rfl, rfl, rfl⟩

theorem flockRangeUnlock_unchanged (hd : d.Valid) (hExcl : AllValid q.exclRangeFLocks)
    (hShared : AllValid q.sharedRangeFLocks) (h : (flockRangeUnlock d q).2 = false) :
    (flockRangeUnlock d q).1 = q := by
  unfold flockRangeUnlock at h ⊢
  simp only at h ⊢
  split at h
  · cases h
  · rename_i hReturned
    obtain ⟨hRemoved, hSharedSame⟩ := (sharedUnlock_spec hd hShared _).unchanged h
    have hExclSame := ((exclUnlock_spec hd hExcl).unchanged hRemoved).2
    rw [if_neg hReturned, hSharedSame, hExclSame]

theorem flockRangeShared_granted :
    Granted d q.sharedRangeFLocks (flockRangeShared d q).1
      (flockRangeShared d q).2.sharedRangeFLocks := by
  refine granted_of_mergeLoop (R := fun _ _ => True) ?_ ?_ ?_
  · intro l x h
    cases h
  · intro l x y h
    cases h
  · exact q.sharedRangeFLocks.ascending.imp fun _ => trivial

theorem flockRangeExclusive_granted :
    Granted d q.exclRangeFLocks (flockRangeExclusive d q).1
      (flockRangeExclusive d q).2.exclRangeFLocks := by
  refine granted_of_mergeLoop (R := fun x y => x.start.toNat ≤ y.start.toNat) ?_ ?_ ?_
  · intro l x h
    rw [decide_eq_false_iff_not, UInt64.le_iff_toNat_le] at h
    rw [← Bool.not_eq_true, isMergeable_iff]
    exact fun hMergeable => h hMergeable.2
  · intro l x y h hxy
    rw [decide_eq_false_iff_not, UInt64.le_iff_toNat_le] at h
    rw [← Bool.not_eq_true, isMergeable_iff]
    exact fun hMergeable => h (le_trans hxy hMergeable.2)
  · exact q.exclRangeFLocks.ascending.imp le_of_lt

end Functions

end Fhgfs.Locking
