import Fhgfs.Locking.RangeLoops

/-!
# The loops of a range unlock

`rangeUnlockLoop` over a set of range locks, for an arbitrary key:

* `rangeUnlockLoop_spec`: only locks of the handle that overlap the unlocked range are touched,
  and what remains of them lies outside of that range; the loop returns early only when it has
  found a lock that contains the whole range; it reports exactly whether it removed anything.
* `rangeUnlockLoop_apart`: if no two locks of a lane overlap, they still do not afterwards, and
  no byte outside of the unlocked range is lost. Without that condition the insertion of a
  remainder may be refused, because its start is taken.
-/

namespace Fhgfs.Locking

open RangeLockDetails OrderedSet List

section Step

variable {κ lam : Type} [LinearOrder κ] {key : RangeLockDetails → κ}
  {lane : RangeLockDetails → lam} {d iter : RangeLockDetails} {remains : List RangeLockDetails}
  {locks : OrderedSet key}

theorem mem_of_mem_replaced {y : RangeLockDetails}
    (h : y ∈ remains.foldl OrderedSet.insert (locks.erase iter)) :
    (y ∈ locks ∧ y ≠ iter) ∨ y ∈ remains := by
  rcases OrderedSet.mem_foldl_insert h with h | h
  · obtain ⟨hy, hKey⟩ := OrderedSet.mem_erase.mp h
    exact Or.inl ⟨hy, fun heq => hKey (heq ▸ rfl)⟩
  · exact Or.inr h

theorem mem_replaced {y : RangeLockDetails} (hIter : iter ∈ locks) (hy : y ∈ locks)
    (hne : y ≠ iter) : y ∈ remains.foldl OrderedSet.insert (locks.erase iter) :=
  OrderedSet.mem_foldl_insert_of_mem ((OrderedSet.mem_erase_of_mem hIter).mpr ⟨hy, hne⟩)

/-- The visited lock is gone: it shares a byte with the unlocked range, its remains do not. -/
theorem not_mem_replaced (hRemains : Remains d iter remains)
    (hCommon : ∃ b, iter.covers b ∧ d.covers b) :
    iter ∉ remains.foldl OrderedSet.insert (locks.erase iter) := by
  intro hIn
  obtain ⟨b, hb, hdb⟩ := hCommon
  rcases mem_of_mem_replaced hIn with ⟨-, hne⟩ | hIn
  · exact hne rfl
  · exact ((hRemains.covers_iff b).mp ⟨iter, hIn, hb⟩).2 hdb

section

variable (hKey : LockKey key lane) (hApart : LanesApart lane locks)
include hKey hApart

theorem mem_replaced_of_remains
    (hValid : AllValid locks) (hIter : iter ∈ locks) (hRemains : Remains d iter remains)
    {p : RangeLockDetails} (hp : p ∈ remains) :
    p ∈ remains.foldl OrderedSet.insert (locks.erase iter) := by
  refine OrderedSet.mem_foldl_insert_of_fresh hp ?_ ?_
  · intro q hq z hz heq
    obtain ⟨hz, hne⟩ := (OrderedSet.mem_erase_of_mem hIter).mp hz
    obtain ⟨hLane, hStart⟩ := (hKey.eq_iff z q).mp heq
    have hIterLane : lane q = lane iter := hKey.lane_eq q iter (hRemains.handle_eq q hq)
    have hqStart := covers_start (hRemains.valid q hq)
    have hIn := ((hRemains.covers_iff q.start.toNat).mp ⟨q, hq, hqStart⟩).1
    have hzStart := covers_start (hValid z hz)
    rw [hStart] at hzStart
    exact hApart z hz iter hIter (hLane.trans hIterLane) hne _ hzStart hIn
  · refine hRemains.apart.imp_of_mem ?_
    intro q r hq hr hqr heq
    have hqStart := covers_start (hRemains.valid q hq)
    rw [((hKey.eq_iff q r).mp heq).2] at hqStart
    exact hqr _ hqStart (covers_start (hRemains.valid r hr))

theorem lanesApart_replaced (hIter : iter ∈ locks) (hRemains : Remains d iter remains) :
    LanesApart lane (remains.foldl insert (locks.erase iter)) := by
  have hPiece : ∀ y ∈ locks, y ≠ iter → ∀ p ∈ remains, lane y = lane p →
      ∀ b, y.covers b → ¬ p.covers b := by
    intro y hy hne p hp hLane b hyb hpb
    have hIterLane : lane p = lane iter := hKey.lane_eq p iter (hRemains.handle_eq p hp)
    exact hApart y hy iter hIter (hLane.trans hIterLane) hne b hyb
      ((hRemains.covers_iff b).mp ⟨p, hp, hpb⟩).1
  intro x hx y hy hLane hne b hxb hyb
  rcases mem_of_mem_replaced hx with ⟨hx, hxi⟩ | hx <;>
    rcases mem_of_mem_replaced hy with ⟨hy, hyi⟩ | hy
  · exact hApart x hx y hy hLane hne b hxb hyb
  · exact hPiece x hx hxi y hy hLane b hxb hyb
  · exact hPiece y hy hyi x hx hLane.symm b hyb hxb
  · exact hRemains.apart_of_ne x hx y hy hne b hxb hyb

end

end Step

section Loop

variable {κ lam : Type} [LinearOrder κ] {key : RangeLockDetails → κ}
  {lane : RangeLockDetails → lam} {d : RangeLockDetails}

/-- A granted lock that the unlock of `d` has to touch. -/
def Touched (d x : RangeLockDetails) : Prop :=
  x.handle = d.handle ∧ ∃ b, x.covers b ∧ d.covers b

/-- What a loop over `xs` does to the set `locks`. -/
structure UnlockSpec (d : RangeLockDetails) (xs : List RangeLockDetails)
    (locks : OrderedSet key) (lockRemoved : Bool) (res : RangeUnlockResult key) : Prop where
  origin : ∀ y ∈ res.locks, y ∈ locks ∨
    (y.Valid ∧ y.handle = d.handle ∧
      ∃ x ∈ locks, x.handle = d.handle ∧ ∀ b, y.covers b → x.covers b ∧ ¬ d.covers b)
  untouched : ∀ y ∈ locks, ¬ Touched d y → y ∈ res.locks
  gone : res.returned = false → ∀ y ∈ xs, Touched d y → y ∉ res.locks
  whole : res.returned = true →
    ∃ x ∈ locks, x.handle = d.handle ∧ x ∉ res.locks ∧ ∀ b, d.covers b → x.covers b
  partly : res.returned = false → ∀ y ∈ xs, y.handle = d.handle → ¬ ∀ b, d.covers b → y.covers b
  unchanged : res.lockRemoved = false → lockRemoved = false ∧ res.locks = locks

variable {xs : List RangeLockDetails} {res : RangeUnlockResult key} {lockRemoved : Bool}

theorem UnlockSpec.not_mem {locks : OrderedSet key}
    (h : UnlockSpec d xs locks lockRemoved res) {y : RangeLockDetails} (hy : y ∉ locks)
    (hTouched : Touched d y) : y ∉ res.locks := by
  intro hIn
  obtain ⟨-, b, hyb, hdb⟩ := hTouched
  rcases h.origin y hIn with hOld | ⟨-, -, x, -, -, hBytes⟩
  · exact hy hOld
  · exact (hBytes b hyb).2 hdb

theorem unlockSpec_skip {x : RangeLockDetails} {locks : OrderedSet key}
    (h : UnlockSpec d xs locks lockRemoved res) (hd : d.Valid) (hNot : ¬ Touched d x) :
    UnlockSpec d (x :: xs) locks lockRemoved res where
  origin := h.origin
  untouched := h.untouched
  gone hReturned y hy hTouched := by
    rcases mem_cons.mp hy with rfl | hy
    · exact absurd hTouched hNot
    · exact h.gone hReturned y hy hTouched
  whole := h.whole
  partly hReturned y hy hOwn hAll := by
    rcases mem_cons.mp hy with rfl | hy
    · exact hNot ⟨hOwn, _, hAll _ (covers_start hd), covers_start hd⟩
    · exact h.partly hReturned y hy hOwn hAll
  unchanged := h.unchanged

theorem origin_replaced {iter : RangeLockDetails} {remains : List RangeLockDetails}
    {locks : OrderedSet key} (hIter : iter ∈ locks) (hOwn : iter.handle = d.handle)
    (hRemains : Remains d iter remains) {y : RangeLockDetails}
    (hy : y ∈ remains.foldl OrderedSet.insert (locks.erase iter)) :
    y ∈ locks ∨ (y.Valid ∧ y.handle = d.handle ∧
      ∃ x ∈ locks, x.handle = d.handle ∧ ∀ b, y.covers b → x.covers b ∧ ¬ d.covers b) := by
  rcases mem_of_mem_replaced hy with ⟨hy, -⟩ | hy
  · exact Or.inl hy
  · refine Or.inr ⟨hRemains.valid y hy, (hRemains.handle_eq y hy).trans hOwn, iter, hIter, hOwn,
      ?_⟩
    intro b hb
    exact (hRemains.covers_iff b).mp ⟨y, hy, hb⟩

section

variable {iter : RangeLockDetails} {xs remains : List RangeLockDetails} {locks : OrderedSet key}

theorem unlockSpec_return (hIter : iter ∈ locks)
    (hTouched : Touched d iter) (hRemains : Remains d iter remains)
    (hWhole : ∀ b, d.covers b → iter.covers b) :
    UnlockSpec d (iter :: xs) locks lockRemoved
      ⟨remains.foldl OrderedSet.insert (locks.erase iter), true, true⟩ where
  origin y hy := origin_replaced hIter hTouched.1 hRemains hy
  untouched y hy hNot := mem_replaced hIter hy fun heq => hNot (heq ▸ hTouched)
  gone h := by cases h
  whole _ := ⟨iter, hIter, hTouched.1, not_mem_replaced hRemains hTouched.2, hWhole⟩
  partly h := by cases h
  unchanged h := by cases h

theorem unlockSpec_replace (hd : d.Valid)
    (hIter : iter ∈ locks) (hTouched : Touched d iter) (hRemains : Remains d iter remains)
    (hPartly : ¬ ∀ b, d.covers b → iter.covers b)
    (h : UnlockSpec d xs (remains.foldl OrderedSet.insert (locks.erase iter)) true res) :
    UnlockSpec d (iter :: xs) locks lockRemoved res where
  origin y hy := by
    rcases h.origin y hy with hy | ⟨hValid, hHandle, x, hx, hOwn, hBytes⟩
    · exact origin_replaced hIter hTouched.1 hRemains hy
    · refine Or.inr ⟨hValid, hHandle, ?_⟩
      rcases origin_replaced hIter hTouched.1 hRemains hx with
        hx | ⟨-, -, x', hx', hOwn', hBytes'⟩
      · exact ⟨x, hx, hOwn, hBytes⟩
      · exact ⟨x', hx', hOwn', fun b hb => hBytes' b (hBytes b hb).1⟩
  untouched y hy hNot := h.untouched y (mem_replaced hIter hy fun heq => hNot (heq ▸ hTouched)) hNot
  gone hReturned y hy hTouched' := by
    rcases mem_cons.mp hy with rfl | hy
    · exact h.not_mem (not_mem_replaced hRemains hTouched.2) hTouched
    · exact h.gone hReturned y hy hTouched'
  whole hReturned := by
    obtain ⟨x, hx, hOwn, hGone, hWhole⟩ := h.whole hReturned
    rcases origin_replaced hIter hTouched.1 hRemains hx with
      hx | ⟨-, -, x', hx', hOwn', hBytes'⟩
    · exact ⟨x, hx, hOwn, hGone, hWhole⟩
    · -- a remainder does not contain the unlocked range
      have hFirst := covers_start hd
      exact absurd hFirst (hBytes' _ (hWhole _ hFirst)).2
  partly hReturned y hy hOwn := by
    rcases mem_cons.mp hy with rfl | hy
    · exact hPartly
    · exact h.partly hReturned y hy hOwn
  unchanged hSame := by
    have hTrue := (h.unchanged hSame).1
    cases hTrue

end

theorem rangeUnlockLoop_spec (hd : d.Valid)
    {locks : OrderedSet key} {r : Bool} (hMem : ∀ x ∈ xs, x ∈ locks)
    (hNodup : xs.Nodup) (hValid : ∀ x ∈ xs, x.Valid) :
    UnlockSpec d xs locks r (rangeUnlockLoop d xs locks r) := by
  induction xs generalizing locks r with
  | nil =>
    exact {
      origin _ hy := Or.inl hy
      untouched _ hy _ := hy
      gone _ _ hy := by cases hy
      whole h := by cases h
      partly _ _ hy := by cases hy
      unchanged h := ⟨h, rfl⟩ }
  | cons iter rest ih =>
    obtain ⟨hIter, hRest⟩ := forall_mem_cons.mp hMem
    obtain ⟨hIterValid, hRestValid⟩ := forall_mem_cons.mp hValid
    obtain ⟨hNew, hRestNodup⟩ := nodup_cons.mp hNodup
    unfold rangeUnlockLoop
    by_cases hOwn : d.equalsHandle iter = true
    · have hHandle : iter.handle = d.handle := (equalsHandle_iff.mp hOwn).symm
      simp only [hOwn, Bool.not_true, Bool.false_eq_true, if_false]
      rcases rangeUnlockSwitch_spec hd hIterValid with
        ⟨hSwitch, hNone⟩ | ⟨remains, returned, hSwitch, hRemains, hCommon, hWhole⟩
      · rw [hSwitch]
        refine unlockSpec_skip (ih hRest hRestNodup hRestValid) hd ?_
        rintro ⟨-, b, hb, hdb⟩
        exact hNone b hb hdb
      rw [hSwitch]
      cases returned with
      | true => exact unlockSpec_return hIter ⟨hHandle, hCommon⟩ hRemains (hWhole.mp rfl)
      | false =>
        have hPartly : ¬ ∀ b, d.covers b → iter.covers b := by
          rw [← hWhole]
          exact Bool.false_ne_true
        refine unlockSpec_replace hd hIter ⟨hHandle, hCommon⟩ hRemains hPartly (ih ?_
          hRestNodup hRestValid)
        intro x hx
        exact mem_replaced hIter (hRest x hx) fun heq => hNew (heq ▸ hx)
    · simp only [hOwn, Bool.not_false, if_true]
      refine unlockSpec_skip (ih hRest hRestNodup hRestValid) hd ?_
      rintro ⟨hHandle, -⟩
      exact hOwn (equalsHandle_iff.mpr hHandle.symm)

/-! ## Sets without overlaps -/

theorem allValid_replaced {iter : RangeLockDetails} {remains : List RangeLockDetails}
    {locks : OrderedSet key} (hValid : AllValid locks) (hRemains : Remains d iter remains) :
    AllValid (remains.foldl insert (locks.erase iter)) := by
  intro y hy
  rcases mem_of_mem_replaced hy with ⟨hy, -⟩ | hy
  · exact hValid y hy
  · exact hRemains.valid y hy

section

variable (hKey : LockKey key lane)
include hKey

theorem holds_replaced {iter : RangeLockDetails}
    {remains : List RangeLockDetails} {locks : OrderedSet key} (hApart : LanesApart lane locks)
    (hValid : AllValid locks) (hIter : iter ∈ locks) (hRemains : Remains d iter remains)
    {h : Int ×ₗ String} {b : Nat} (hHolds : Holds locks h b) (hOut : ¬ d.covers b) :
    Holds (remains.foldl insert (locks.erase iter)) h b := by
  obtain ⟨x, hx, hHandle, hb⟩ := hHolds
  by_cases heq : x = iter
  · subst heq
    obtain ⟨p, hp, hpb⟩ := (hRemains.covers_iff b).mpr ⟨hb, hOut⟩
    exact ⟨p, mem_replaced_of_remains hKey hApart hValid hx hRemains hp,
      (hRemains.handle_eq p hp).trans hHandle, hpb⟩
  · exact ⟨x, mem_replaced hIter hx heq, hHandle, hb⟩

/-- In a set without overlaps no byte outside of the unlocked range is lost, and no overlaps
arise. -/
theorem rangeUnlockLoop_apart (hd : d.Valid) {locks : OrderedSet key} {r : Bool}
    (hMem : ∀ x ∈ xs, x ∈ locks) (hNodup : xs.Nodup) (hValid : AllValid locks)
    (hApart : LanesApart lane locks) :
    LanesApart lane (rangeUnlockLoop d xs locks r).locks ∧
    ∀ h b, Holds locks h b → ¬ d.covers b → Holds (rangeUnlockLoop d xs locks r).locks h b := by
  induction xs generalizing locks r with
  | nil => exact ⟨hApart, fun _ _ hHolds _ => hHolds⟩
  | cons iter rest ih =>
    obtain ⟨hIter, hRest⟩ := forall_mem_cons.mp hMem
    obtain ⟨hNew, hRestNodup⟩ := nodup_cons.mp hNodup
    unfold rangeUnlockLoop
    by_cases hOwn : d.equalsHandle iter = true
    · simp only [hOwn, Bool.not_true, Bool.false_eq_true, if_false]
      rcases rangeUnlockSwitch_spec hd (hValid iter hIter) with
        ⟨hSwitch, -⟩ | ⟨remains, returned, hSwitch, hRemains, -, -⟩
      · rw [hSwitch]
        exact ih hRest hRestNodup hValid hApart
      rw [hSwitch]
      have hApart' := lanesApart_replaced hKey hApart hIter hRemains
      cases returned with
      | true =>
        exact ⟨hApart', fun h b => holds_replaced hKey hApart hValid hIter hRemains⟩
      | false =>
        have hRest' : ∀ x ∈ rest, x ∈ remains.foldl OrderedSet.insert (locks.erase iter) := by
          intro x hx
          exact mem_replaced hIter (hRest x hx) fun heq => hNew (heq ▸ hx)
        obtain ⟨hAfter, hKeep⟩ := ih (r := true) hRest' hRestNodup
          (allValid_replaced hValid hRemains) hApart'
        refine ⟨hAfter, fun h b hHolds hOut => hKeep h b ?_ hOut⟩
        exact holds_replaced hKey hApart hValid hIter hRemains hHolds hOut
    · simp only [hOwn, Bool.not_false, if_true]
      exact ih hRest hRestNodup hValid hApart

/-- After a loop over all locks of a set without overlaps, no lock of the handle overlaps the
unlocked range: if the loop returned early, the lock it returned at was the only one. -/
theorem UnlockSpec.none_touched {locks : OrderedSet key} (h : UnlockSpec d xs locks lockRemoved res)
    (hAll : ∀ y ∈ locks, y ∈ xs) (hApart : LanesApart lane locks) :
    ∀ y ∈ res.locks, ¬ Touched d y := by
  intro y hy hTouched
  have hOld : y ∈ locks := by
    by_contra hNew
    exact h.not_mem hNew hTouched hy
  cases hReturned : res.returned with
  | false => exact h.gone hReturned y (hAll y hOld) hTouched hy
  | true =>
    obtain ⟨x, hx, hxOwn, hxGone, hWhole⟩ := h.whole hReturned
    obtain ⟨hyOwn, b, hyb, hdb⟩ := hTouched
    have hne : x ≠ y := fun heq => hxGone (heq ▸ hy)
    have hLane : lane x = lane y := hKey.lane_eq x y (hxOwn.trans hyOwn.symm)
    exact hApart x hx y hOld hLane hne b (hWhole b hdb) hyb

end

end Loop

end Fhgfs.Locking
