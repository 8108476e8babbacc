import Fhgfs.Common.MapTk
import Fhgfs.Lib.Run

/-!
# Entry IDs

The ID of a new entry has the values of a counter of the daemon and the ID of its node. The
counter starts with the time in its upper half, and one thread sets it to the time again and
again: it reads the clock, reads the counter and sets it, while other threads take values.

`entryIDs_distinct`: no ID is returned twice as long as no set takes the counter back, and after
a set that takes it back the next ID is one that there is already.
-/

namespace Fhgfs.StorageTk

open StringTk Run

def STORAGETK_FILEID_TIMESTAMP_SHIFTBITS : UInt64 := 32

variable (nextID : UInt64)

def fileID (localNodeID : UInt16) : Text :=
  let counterPart := nextID.toUInt32
  let timestampPart := (nextID >>> STORAGETK_FILEID_TIMESTAMP_SHIFTBITS).toUInt32
  uintToHexStr counterPart.toNat ++ '-' ::
    (uintToHexStr timestampPart.toNat ++ '-' :: uintToHexStr localNodeID.toNat)

def timestampCounter (currentSysTimeSecs : UInt32) : UInt64 :=
  currentSysTimeSecs.toUInt64 <<< STORAGETK_FILEID_TIMESTAMP_SHIFTBITS

/-- Where the thread is that resets the counter. -/
inductive ResetStage
  | idle
  | clockRead (currentSysTimeSecs : UInt32)
  | counterRead (currentSysTimeSecs : UInt32)
deriving DecidableEq

/-- A daemon. `lastID` is the time of its last ID, and `inSecond` counts its IDs of the second
that the clock shows. -/
structure Daemon where
  idCounter : UInt64
  reset : ResetStage
  clock : UInt32
  lastID : Option UInt32
  inSecond : Nat

inductive DaemonStep
  | tick (now : UInt32)
  | generateFileID
  | readClock
  | readCounter
  | setCounter
  | restart
deriving DecidableEq

namespace Daemon

/-- A daemon that starts when the clock shows `clock`. -/
def start (clock : UInt32) : Daemon := ⟨timestampCounter clock, .idle, clock, none, 0⟩

/-- `resetIDCounterToNow` in three steps. The second one is its last if the time of the clock is
not later than that of the counter. -/
def step (d : Daemon) : DaemonStep → Daemon
  | .tick now => { d with clock := now, inSecond := if now = d.clock then d.inSecond else 0 }
  | .generateFileID =>
    { d with idCounter := d.idCounter + 1, lastID := some d.clock, inSecond := d.inSecond + 1 }
  | .readClock => { d with reset := .clockRead d.clock }
  | .readCounter =>
    match d.reset with
    | .clockRead currentSysTimeSecs =>
      let idCounterTimestampPart :=
        (d.idCounter >>> STORAGETK_FILEID_TIMESTAMP_SHIFTBITS).toUInt32
      if currentSysTimeSecs ≤ idCounterTimestampPart then { d with reset := .idle }
      else { d with reset := .counterRead currentSysTimeSecs }
    | _ => d
  | .setCounter =>
    match d.reset with
    | .counterRead currentSysTimeSecs =>
      { d with idCounter := timestampCounter currentSysTimeSecs, reset := .idle }
    | _ => d
  | .restart => { d with idCounter := timestampCounter d.clock, reset := .idle }

/-- The clock does not go backwards and shows no second with more than 2^32 IDs, one thread
resets the counter, and a daemon that has returned an ID restarts in a later second. -/
def Allowed (d : Daemon) : DaemonStep → Prop
  | .tick now => d.clock ≤ now
  | .generateFileID => d.inSecond < 2 ^ 32
  | .readClock => d.reset = .idle
  | .readCounter => ∃ currentSysTimeSecs, d.reset = .clockRead currentSysTimeSecs
  | .setCounter => ∃ currentSysTimeSecs, d.reset = .counterRead currentSysTimeSecs
  | .restart => ∀ last ∈ d.lastID, last < d.clock

def Unraced (d : Daemon) : DaemonStep → Prop
  | .setCounter => ∀ currentSysTimeSecs, d.reset = .counterRead currentSysTimeSecs →
      d.idCounter ≤ timestampCounter currentSysTimeSecs
  | _ => True

instance (d : Daemon) : (action : DaemonStep) → Decidable (d.Allowed action)
  | .tick now => inferInstanceAs (Decidable (d.clock ≤ now))
  | .generateFileID => inferInstanceAs (Decidable (d.inSecond < 2 ^ 32))
  | .readClock => inferInstanceAs (Decidable (d.reset = .idle))
  | .readCounter =>
    match h : d.reset with
    | .clockRead t => .isTrue ⟨t, h⟩
    | .idle => .isFalse fun ⟨_, ht⟩ => nomatch h.symm.trans ht
    | .counterRead _ => .isFalse fun ⟨_, ht⟩ => nomatch h.symm.trans ht
  | .setCounter =>
    match h : d.reset with
    | .counterRead t => .isTrue ⟨t, h⟩
    | .idle => .isFalse fun ⟨_, ht⟩ => nomatch h.symm.trans ht
    | .clockRead _ => .isFalse fun ⟨_, ht⟩ => nomatch h.symm.trans ht
  | .restart => Option.decidableForallMem d.lastID

instance (d : Daemon) : (action : DaemonStep) → Decidable (d.Unraced action)
  | .setCounter =>
    match h : d.reset with
    | .counterRead t =>
      decidable_of_iff (d.idCounter ≤ timestampCounter t)
        ⟨fun hLe _ ht => ResetStage.counterRead.inj (h.symm.trans ht) ▸ hLe, fun hAll => hAll t h⟩
    | .idle => .isTrue fun _ ht => nomatch h.symm.trans ht
    | .clockRead _ => .isTrue fun _ ht => nomatch h.symm.trans ht
  | .tick _ | .generateFileID | .readClock | .readCounter | .restart => .isTrue trivial

end Daemon

/-- The daemons by their node IDs, and the IDs that they have returned, the last one first. -/
structure FileIDs where
  daemons : UInt16 → Daemon
  issued : List Text

namespace FileIDs

def returned (s : FileIDs) (localNodeID : UInt16) : DaemonStep → List Text
  | .generateFileID => [fileID (s.daemons localNodeID).idCounter localNodeID]
  | _ => []

def step (s : FileIDs) (action : UInt16 × DaemonStep) : FileIDs where
  daemons := Function.update s.daemons action.1 ((s.daemons action.1).step action.2)
  issued := s.returned action.1 action.2 ++ s.issued

def Allowed (s : FileIDs) (action : UInt16 × DaemonStep) : Prop :=
  (s.daemons action.1).Allowed action.2

def Unraced (s : FileIDs) (action : UInt16 × DaemonStep) : Prop :=
  (s.daemons action.1).Unraced action.2

instance (s : FileIDs) (action : UInt16 × DaemonStep) : Decidable (s.Allowed action) :=
  inferInstanceAs (Decidable ((s.daemons action.1).Allowed action.2))

instance (s : FileIDs) (action : UInt16 × DaemonStep) : Decidable (s.Unraced action) :=
  inferInstanceAs (Decidable ((s.daemons action.1).Unraced action.2))

/-- All daemons have started, at the times of their clocks, and returned nothing. -/
def start (clocks : UInt16 → UInt32) : FileIDs := ⟨fun n => .start (clocks n), []⟩

end FileIDs

/-! ## The text of an ID -/

theorem toNat_timestampPart :
    (nextID >>> STORAGETK_FILEID_TIMESTAMP_SHIFTBITS).toUInt32.toNat = nextID.toNat / 2 ^ 32 := by
  have hLt := nextID.toNat_lt
  have hShift : (nextID >>> STORAGETK_FILEID_TIMESTAMP_SHIFTBITS).toNat =
      nextID.toNat / 2 ^ 32 := by
    rw [UInt64.toNat_shiftRight, Nat.shiftRight_eq_div_pow]
    rfl
  rw [UInt64.toNat_toUInt32, hShift]
  omega

theorem toNat_timestampCounter (currentSysTimeSecs : UInt32) :
    (timestampCounter currentSysTimeSecs).toNat = 2 ^ 32 * currentSysTimeSecs.toNat := by
  have hLt := currentSysTimeSecs.toNat_lt
  unfold timestampCounter
  rw [UInt64.toNat_shiftLeft, Nat.shiftLeft_eq, UInt32.toNat_toUInt64, mul_comm]
  exact Nat.mod_eq_of_lt (by
    show 2 ^ 32 * currentSysTimeSecs.toNat < 2 ^ 64
    omega)

theorem dash_not_mem (a : Nat) : '-' ∉ uintToHexStr a := (hex_uintToHexStr a).not_mem (by decide)

theorem append_dash_inj {a a' b b' : Text} (ha : '-' ∉ a) (ha' : '-' ∉ a')
    (h : a ++ '-' :: b = a' ++ '-' :: b') : a = a' ∧ b = b' := by
  have hTake : ∀ x y : Text, '-' ∉ x → (x ++ '-' :: y).takeWhile (· ≠ '-') = x := by
    intro x y hx
    rw [List.takeWhile_append_of_pos, List.takeWhile_cons_of_neg (by decide), List.append_nil]
    intro c hc
    simpa using fun hSame : c = '-' => hx (hSame ▸ hc)
  have hSame : a = a' := by rw [← hTake a b ha, h, hTake a' b' ha']
  subst hSame
  exact ⟨rfl, (List.cons.inj (List.append_cancel_left h)).2⟩

theorem fileID_injective {nextID nextID' : UInt64} {localNodeID localNodeID' : UInt16}
    (h : fileID nextID localNodeID = fileID nextID' localNodeID') :
    nextID = nextID' ∧ localNodeID = localNodeID' := by
  obtain ⟨hCounter, hRest⟩ := append_dash_inj (dash_not_mem _) (dash_not_mem _) h
  obtain ⟨hTimestamp, hNode⟩ := append_dash_inj (dash_not_mem _) (dash_not_mem _) hRest
  have hLow := uintToHexStr_injective (UInt32.toNat_lt _) (UInt32.toNat_lt _) hCounter
  have hHigh := uintToHexStr_injective (UInt32.toNat_lt _) (UInt32.toNat_lt _) hTimestamp
  rw [UInt64.toNat_toUInt32, UInt64.toNat_toUInt32] at hLow
  rw [toNat_timestampPart, toNat_timestampPart] at hHigh
  constructor
  · rw [← UInt64.toNat_inj]
    omega
  · rw [← UInt16.toNat_inj]
    have hLt := localNodeID.toNat_lt
    have hLt' := localNodeID'.toNat_lt
    exact uintToHexStr_injective (by omega) (by omega) hNode

/-! ## The counter and the clock -/

namespace Daemon

variable {d : Daemon} {action : DaemonStep}

/-- The counter is not further than the clock, apart from the IDs of the second. -/
structure Bounded (d : Daemon) : Prop where
  counter : d.idCounter.toNat ≤ 2 ^ 32 * d.clock.toNat + d.inSecond
  limit : d.inSecond ≤ 2 ^ 32
  inSecond : d.inSecond ≠ 0 → d.lastID = some d.clock
  clockRead : ∀ t, d.reset = .clockRead t → t ≤ d.clock
  counterRead : ∀ t, d.reset = .counterRead t → t ≤ d.clock

/-- All IDs of the last second that the clock can show are taken. -/
structure Exhausted (d : Daemon) : Prop where
  clock : d.clock.toNat = 2 ^ 32 - 1
  inSecond : d.inSecond = 2 ^ 32
  lastID : d.lastID = some d.clock

theorem bounded_start (clock : UInt32) : (start clock).Bounded where
  counter := by
    show (timestampCounter clock).toNat ≤ 2 ^ 32 * clock.toNat + 0
    rw [toNat_timestampCounter, add_zero]
  limit := Nat.zero_le _
  inSecond := (absurd rfl ·)
  clockRead := nofun
  counterRead := nofun

theorem timestampCounter_le {t : UInt32} (ht : t ≤ d.clock) :
    (timestampCounter t).toNat ≤ 2 ^ 32 * d.clock.toNat + d.inSecond := by
  rw [UInt32.le_iff_toNat_le] at ht
  rw [toNat_timestampCounter]
  omega

theorem Exhausted.step (h : d.Exhausted) (hAllowed : d.Allowed action) :
    (d.step action).Exhausted ∧ action ≠ .generateFileID := by
  obtain ⟨hClock, hSecond, hLast⟩ := h
  cases action with
  | tick now =>
    have hLe : d.clock.toNat ≤ now.toNat := UInt32.le_iff_toNat_le.mp hAllowed
    have hLt := now.toNat_lt
    obtain rfl : now = d.clock := by
      rw [← UInt32.toNat_inj]
      omega
    refine ⟨⟨hClock, ?_, hLast⟩, nofun⟩
    show (if d.clock = d.clock then d.inSecond else 0) = 2 ^ 32
    rw [if_pos rfl, hSecond]
  | generateFileID =>
    have hLess : d.inSecond < 2 ^ 32 := hAllowed
    omega
  | readClock => exact ⟨⟨hClock, hSecond, hLast⟩, nofun⟩
  | readCounter =>
    obtain ⟨t, ht⟩ := hAllowed
    refine ⟨?_, nofun⟩
    simp only [Daemon.step, ht]
    split <;> exact ⟨hClock, hSecond, hLast⟩
  | setCounter =>
    obtain ⟨t, ht⟩ := hAllowed
    refine ⟨?_, nofun⟩
    simp only [Daemon.step, ht]
    exact ⟨hClock, hSecond, hLast⟩
  | restart =>
    have hLater : d.clock < d.clock := hAllowed d.clock hLast
    exact absurd hLater (UInt32.lt_irrefl _)

theorem Bounded.tick (h : d.Bounded) {now : UInt32} (hNow : d.clock ≤ now) :
    (d.step (.tick now)).Bounded := by
  have hLe := UInt32.le_iff_toNat_le.mp hNow
  have hCounter := h.counter
  have hLimit := h.limit
  by_cases hSame : now = d.clock
  · have hStep : d.step (.tick now) = d := by
      subst hSame
      simp [Daemon.step]
    rwa [hStep]
  have hStep : d.step (.tick now) = { d with clock := now, inSecond := 0 } := by
    simp [Daemon.step, hSame]
  have hLess : d.clock.toNat ≠ now.toNat := fun hNat => hSame (UInt32.toNat_inj.mp hNat.symm)
  rw [hStep]
  exact {
    counter := by
      dsimp only
      omega
    limit := Nat.zero_le _
    inSecond := (absurd rfl ·)
    clockRead := fun t ht => UInt32.le_trans (h.clockRead t ht) hNow
    counterRead := fun t ht => UInt32.le_trans (h.counterRead t ht) hNow }

theorem Bounded.generateFileID (h : d.Bounded) (hRate : d.inSecond < 2 ^ 32) :
    (d.step .generateFileID).Exhausted ∨
      (d.step .generateFileID).Bounded ∧
        (d.step .generateFileID).idCounter.toNat = d.idCounter.toNat + 1 := by
  have hCounter := h.counter
  have hClock := d.clock.toNat_lt
  have hSum : (d.idCounter + 1).toNat = (d.idCounter.toNat + 1) % 2 ^ 64 :=
    UInt64.toNat_add d.idCounter 1
  by_cases hMore : d.idCounter.toNat + 1 < 2 ^ 64
  · rw [Nat.mod_eq_of_lt hMore] at hSum
    right
    refine ⟨?_, hSum⟩
    exact {
      counter := by
        show (d.idCounter + 1).toNat ≤ 2 ^ 32 * d.clock.toNat + (d.inSecond + 1)
        omega
      limit := Nat.succ_le_of_lt hRate
      inSecond := fun _ => rfl
      clockRead := h.clockRead
      counterRead := h.counterRead }
  · left
    refine ⟨?_, ?_, rfl⟩
    · show d.clock.toNat = 2 ^ 32 - 1
      omega
    · show d.inSecond + 1 = 2 ^ 32
      omega

theorem Bounded.step (h : d.Bounded) (hAllowed : d.Allowed action) (hUnraced : d.Unraced action)
    (hOther : action ≠ .generateFileID) :
    (d.step action).Bounded ∧ d.idCounter ≤ (d.step action).idCounter := by
  have hCounter := h.counter
  cases action with
  | tick now => exact ⟨h.tick hAllowed, UInt64.le_rfl⟩
  | generateFileID => exact absurd rfl hOther
  | readClock =>
    refine ⟨⟨hCounter, h.limit, h.inSecond, ?_, nofun⟩, UInt64.le_rfl⟩
    intro t ht
    obtain rfl := ResetStage.clockRead.inj ht
    exact UInt32.le_rfl
  | readCounter =>
    obtain ⟨t, ht⟩ := hAllowed
    simp only [Daemon.step, ht]
    split
    · exact ⟨⟨hCounter, h.limit, h.inSecond, nofun, nofun⟩, UInt64.le_rfl⟩
    · refine ⟨⟨hCounter, h.limit, h.inSecond, nofun, ?_⟩, UInt64.le_rfl⟩
      intro t' ht'
      obtain rfl := ResetStage.counterRead.inj ht'
      exact h.clockRead t ht
  | setCounter =>
    obtain ⟨t, ht⟩ := hAllowed
    simp only [Daemon.step, ht]
    exact ⟨⟨timestampCounter_le (h.counterRead t ht), h.limit, h.inSecond, nofun, nofun⟩,
      hUnraced t ht⟩
  | restart =>
    have hNow := timestampCounter_le (UInt32.le_refl d.clock)
    simp only [Daemon.step]
    refine ⟨⟨hNow, h.limit, h.inSecond, nofun, nofun⟩, ?_⟩
    -- the second has no ID yet
    have hNone : d.inSecond = 0 := by
      by_contra hSome
      exact UInt32.lt_irrefl _ (hAllowed d.clock (h.inSecond hSome))
    rw [UInt64.le_iff_toNat_le, toNat_timestampCounter]
    omega

end Daemon

/-! ## The IDs that are taken -/

namespace FileIDs

variable {s : FileIDs} {n : UInt16} {action : DaemonStep}

/-- A daemon's IDs are all of values before its counter. While a reset is under way, the counter
gets to the time of the reset only by taking the values before. -/
structure Taken (s : FileIDs) (n : UInt16) : Prop where
  bounded : (s.daemons n).Bounded
  below : ∀ v, fileID v n ∈ s.issued → v < (s.daemons n).idCounter
  passed : ∀ t, (s.daemons n).reset = .counterRead t →
    timestampCounter t < (s.daemons n).idCounter → fileID (timestampCounter t) n ∈ s.issued

structure Inv (s : FileIDs) : Prop where
  distinct : s.issued.Nodup
  daemons : ∀ n, (s.daemons n).Exhausted ∨ s.Taken n

theorem inv_start (clocks : UInt16 → UInt32) : (start clocks).Inv where
  distinct := List.nodup_nil
  daemons n := Or.inr ⟨Daemon.bounded_start (clocks n), nofun, nofun⟩

theorem daemons_step : (s.step (n, action)).daemons n = (s.daemons n).step action :=
  Function.update_self ..

theorem daemons_step_of_ne {m : UInt16} (h : m ≠ n) :
    (s.step (n, action)).daemons m = s.daemons m :=
  Function.update_of_ne h ..

theorem issued_step (h : action ≠ .generateFileID) : (s.step (n, action)).issued = s.issued := by
  cases action with
  | generateFileID => exact absurd rfl h
  | _ => rfl

theorem issued_generateFileID : (s.step (n, .generateFileID)).issued =
    fileID (s.daemons n).idCounter n :: s.issued := rfl

theorem Taken.of_ne {m : UInt16} (h : s.Taken m) (hNe : m ≠ n) : (s.step (n, action)).Taken m := by
  have hDaemon : (s.step (n, action)).daemons m = s.daemons m := daemons_step_of_ne hNe
  have hOld : ∀ v, fileID v m ∈ (s.step (n, action)).issued → fileID v m ∈ s.issued := by
    intro v hv
    by_cases hNew : action = .generateFileID
    · subst hNew
      rw [issued_generateFileID, List.mem_cons] at hv
      exact hv.resolve_left fun hSame => hNe (fileID_injective hSame).2
    · rwa [issued_step hNew] at hv
  constructor
  · rw [hDaemon]
    exact h.bounded
  · intro v hv
    rw [hDaemon]
    exact h.below v (hOld v hv)
  · intro t ht hPassed
    rw [hDaemon] at ht hPassed
    exact List.mem_append_right _ (h.passed t ht hPassed)

theorem lt_timestampCounter {c : UInt64} {t : UInt32}
    (h : ¬t ≤ (c >>> STORAGETK_FILEID_TIMESTAMP_SHIFTBITS).toUInt32) : c < timestampCounter t := by
  rw [UInt32.not_le, UInt32.lt_iff_toNat_lt, toNat_timestampPart] at h
  rw [UInt64.lt_iff_toNat_lt, toNat_timestampCounter]
  omega

theorem passed_step {d : Daemon} (hOther : action ≠ .generateFileID) {t : UInt32}
    (ht : (d.step action).reset = .counterRead t)
    (hPassed : timestampCounter t < (d.step action).idCounter) :
    d.reset = .counterRead t ∧ timestampCounter t < d.idCounter := by
  cases action with
  | tick now => exact ⟨ht, hPassed⟩
  | generateFileID => exact absurd rfl hOther
  | readClock => cases ht
  | readCounter =>
    simp only [Daemon.step] at ht hPassed
    split at ht
    · rename_i t' hRead
      simp only [hRead] at ht hPassed
      split at ht
      · cases ht
      · -- the counter was before the time
        rename_i hLater
        rw [if_neg hLater] at hPassed
        obtain rfl := ResetStage.counterRead.inj ht
        exact absurd hPassed (UInt64.lt_asymm (lt_timestampCounter hLater))
    · rename_i hNot
      refine ⟨ht, ?_⟩
      simpa only [ht] using hPassed
  | setCounter =>
    simp only [Daemon.step] at ht hPassed
    split at ht
    · cases ht
    · rename_i hNot
      exact absurd ht (hNot t)
  | restart => cases ht

theorem Taken.step (h : s.Taken n) (hAllowed : s.Allowed (n, action))
    (hUnraced : s.Unraced (n, action)) (hOther : action ≠ .generateFileID) :
    (s.step (n, action)).Taken n := by
  obtain ⟨hBounded, hLe⟩ := h.bounded.step hAllowed hUnraced hOther
  constructor
  · rw [daemons_step]
    exact hBounded
  · intro v hv
    rw [issued_step hOther] at hv
    rw [daemons_step]
    exact UInt64.lt_of_lt_of_le (h.below v hv) hLe
  · intro t ht hPassed
    rw [daemons_step] at ht hPassed
    rw [issued_step hOther]
    obtain ⟨hReset, hBefore⟩ := passed_step hOther ht hPassed
    exact h.passed t hReset hBefore

theorem Taken.generateFileID (h : s.Taken n)
    (hBounded : ((s.daemons n).step .generateFileID).Bounded)
    (hNext : ((s.daemons n).step .generateFileID).idCounter.toNat =
      (s.daemons n).idCounter.toNat + 1) : (s.step (n, .generateFileID)).Taken n := by
  constructor
  · rw [daemons_step]
    exact hBounded
  · intro v hv
    rw [daemons_step, UInt64.lt_iff_toNat_lt, hNext]
    rw [issued_generateFileID, List.mem_cons] at hv
    rcases hv with hNew | hOld
    · rw [(fileID_injective hNew).1]
      exact Nat.lt_succ_self _
    · exact Nat.lt_succ_of_lt (UInt64.lt_iff_toNat_lt.mp (h.below v hOld))
  · intro t ht hPassed
    rw [daemons_step] at ht hPassed
    rw [UInt64.lt_iff_toNat_lt, hNext] at hPassed
    rw [issued_generateFileID, List.mem_cons]
    rcases Nat.lt_or_eq_of_le (Nat.le_of_lt_succ hPassed) with hBefore | hHere
    · exact Or.inr (h.passed t ht (UInt64.lt_iff_toNat_lt.mpr hBefore))
    · exact Or.inl (by rw [UInt64.toNat_inj.mp hHere])

theorem Inv.step (h : s.Inv) (hAllowed : s.Allowed (n, action))
    (hUnraced : s.Unraced (n, action)) : (s.step (n, action)).Inv := by
  have hOthers : ∀ m, m ≠ n → ((s.step (n, action)).daemons m).Exhausted ∨
      (s.step (n, action)).Taken m := by
    intro m hNe
    rw [daemons_step_of_ne hNe]
    exact (h.daemons m).imp_right fun hTaken => hTaken.of_ne hNe
  have hHere : (s.step (n, action)).issued.Nodup ∧
      (((s.step (n, action)).daemons n).Exhausted ∨ (s.step (n, action)).Taken n) := by
    rcases h.daemons n with hExhausted | hTaken
    · obtain ⟨hStill, hOther⟩ := hExhausted.step hAllowed
      rw [issued_step hOther, daemons_step]
      exact ⟨h.distinct, Or.inl hStill⟩
    by_cases hOther : action = .generateFileID
    · subst hOther
      constructor
      · rw [issued_generateFileID, List.nodup_cons]
        exact ⟨fun hOld => UInt64.lt_irrefl _ (hTaken.below _ hOld), h.distinct⟩
      · rw [daemons_step]
        rcases hTaken.bounded.generateFileID hAllowed with hLast | ⟨hBounded, hNext⟩
        · exact Or.inl hLast
        · exact Or.inr (hTaken.generateFileID hBounded hNext)
    · rw [issued_step hOther]
      exact ⟨h.distinct, Or.inr (hTaken.step hAllowed hUnraced hOther)⟩
  constructor
  · exact hHere.1
  · intro m
    by_cases hSame : m = n
    · subst hSame
      exact hHere.2
    · exact hOthers m hSame

theorem Inv.repeated (h : s.Inv) (hAllowed : s.Allowed (n, .setCounter))
    (hRaced : ¬s.Unraced (n, .setCounter))
    (hNext : (s.step (n, .setCounter)).Allowed (n, .generateFileID)) :
    ¬((s.step (n, .setCounter)).step (n, .generateFileID)).issued.Nodup := by
  obtain ⟨t, ht⟩ := hAllowed
  have hPassed : timestampCounter t < (s.daemons n).idCounter := by
    rw [← UInt64.not_le]
    intro hLe
    refine hRaced fun t' ht' => ?_
    obtain rfl := ResetStage.counterRead.inj (ht.symm.trans ht')
    exact hLe
  have hSet : ((s.daemons n).step .setCounter).idCounter = timestampCounter t ∧
      ((s.daemons n).step .setCounter).inSecond = (s.daemons n).inSecond := by
    simp only [Daemon.step, ht, and_self]
  have hTaken : s.Taken n := by
    refine (h.daemons n).resolve_left fun hExhausted => ?_
    have hRate : ((s.step (n, .setCounter)).daemons n).inSecond < 2 ^ 32 := hNext
    rw [daemons_step, hSet.2, hExhausted.inSecond] at hRate
    exact lt_irrefl _ hRate
  have hIssued : (s.step (n, .setCounter)).issued = s.issued := issued_step nofun
  rw [issued_generateFileID, daemons_step, hSet.1, hIssued, List.nodup_cons]
  exact fun hNew => hNew.1 (hTaken.passed t ht hPassed)

/-- No ID is returned twice as long as no set takes a counter back, and after the first set that
does, the next ID of the daemon is one that there is already. -/
theorem entryIDs_distinct (clocks : UInt16 → UInt32) {steps : List (UInt16 × DaemonStep)}
    (hAllowed : Run.EveryStep step Allowed (start clocks) steps)
    (hUnraced : Run.EveryStep step Unraced (start clocks) steps) :
    Run.Throughout step (·.issued.Nodup) (start clocks) steps ∧
      ∀ n, ¬(Run.after step (start clocks) steps).Unraced (n, .setCounter) →
        Run.EveryStep step Allowed (Run.after step (start clocks) steps)
          [(n, .setCounter), (n, .generateFileID)] →
        ¬(Run.after step (start clocks)
          (steps ++ [(n, .setCounter), (n, .generateFileID)])).issued.Nodup := by
  have hSteps := everyStep_and step hAllowed hUnraced
  have hStep : ∀ (s : FileIDs) (action : UInt16 × DaemonStep), s.Inv →
      s.Allowed action ∧ s.Unraced action → (s.step action).Inv :=
    fun s action hs hok => hs.step hok.1 hok.2
  constructor
  · exact throughout_of_invariant step (fun s hs => hs.distinct) hStep (inv_start clocks) hSteps
  · intro n hRaced hNext
    have hInv := after_invariant step hStep (inv_start clocks) hSteps
    have hAfter : after step (start clocks)
        (steps ++ [(n, .setCounter), (n, .generateFileID)]) =
        ((after step (start clocks) steps).step (n, .setCounter)).step
          (n, .generateFileID) := by
      unfold after
      rw [List.foldl_append]
      rfl
    rw [hAfter]
    exact hInv.repeated hNext.1 hRaced hNext.2.1

/-- Two daemons, a reset and a restart. -/
theorem entryIDs_distinct_twoDaemons :
    Run.Throughout step (·.issued.Nodup) (start fun _ => 10) [(1, .generateFileID),
      (2, .generateFileID), (1, .tick 11), (1, .readClock), (1, .readCounter),
      (1, .generateFileID), (1, .setCounter), (1, .tick 12), (1, .restart),
      (1, .generateFileID)] :=
  (entryIDs_distinct _ (by decide +kernel) (by decide +kernel)).1

/-! ## The steps of one daemon -/

theorem daemons_after (s : FileIDs) (n : UInt16) (actions : List DaemonStep) :
    (after step s (actions.map (Prod.mk n))).daemons n =
      after Daemon.step (s.daemons n) actions := by
  induction actions generalizing s with
  | nil => rfl
  | cons action actions ih =>
    rw [List.map_cons, after_cons, ih, daemons_step]
    rfl

theorem allowed_map {s : FileIDs} {n : UInt16} {actions : List DaemonStep}
    (h : EveryStep Daemon.step Daemon.Allowed (s.daemons n) actions) :
    EveryStep step Allowed s (actions.map (Prod.mk n)) := by
  induction actions generalizing s with
  | nil => trivial
  | cons action actions ih =>
    refine ⟨h.1, ih ?_⟩
    rw [daemons_step]
    exact h.2

theorem after_generates (c : UInt64) (t : UInt32) (last : Option UInt32) (k m : Nat)
    (hRate : m + k ≤ 2 ^ 32) :
    (∃ last', after Daemon.step ⟨c, .idle, t, last, m⟩ (List.replicate k .generateFileID) =
      ⟨c + UInt64.ofNat k, .idle, t, last', m + k⟩) ∧
      EveryStep Daemon.step Daemon.Allowed ⟨c, .idle, t, last, m⟩
        (List.replicate k .generateFileID) := by
  induction k generalizing c last m with
  | zero => exact ⟨⟨last, by simp⟩, trivial⟩
  | succ k ih =>
    obtain ⟨⟨last', hAfter⟩, hAllowed⟩ := ih (c + 1) (some t) (m + 1) (by omega)
    have hLess : m < 2 ^ 32 := by omega
    refine ⟨⟨last', ?_⟩, hLess, hAllowed⟩
    refine hAfter.trans ?_
    have hCounter : c + 1 + UInt64.ofNat k = c + UInt64.ofNat (k + 1) := by
      rw [UInt64.ofNat_add, UInt64.add_comm (UInt64.ofNat k), UInt64.add_assoc]
      rfl
    rw [hCounter, add_right_comm, add_assoc]

/-- A reset that starts before the last ID of its second, and ends behind the first of the next
second. -/
def racedActions (k : Nat) : List DaemonStep :=
  .tick 11 :: (List.replicate k .generateFileID ++
    [.readClock, .readCounter, .tick 12, .generateFileID, .generateFileID])

theorem after_racedActions {k : Nat} (hk : k + 1 = 2 ^ 32) :
    (∃ c, after Daemon.step (Daemon.start 10) (racedActions k) =
      ⟨c, .counterRead 11, 12, some 12, 2⟩ ∧ c.toNat = 2 ^ 32 * 11 + 1) ∧
      EveryStep Daemon.step Daemon.Allowed (Daemon.start 10) (racedActions k) := by
  obtain ⟨⟨last, hAfter⟩, hAllowed⟩ := after_generates (timestampCounter 10) 11 none k 0 (by omega)
  obtain ⟨c, hc⟩ : ∃ c, c = timestampCounter 10 + UInt64.ofNat k := ⟨_, rfl⟩
  have hNat : c.toNat = 2 ^ 32 * 11 - 1 := by
    have hTen : (timestampCounter 10).toNat = 2 ^ 32 * 10 := toNat_timestampCounter 10
    rw [hc, UInt64.toNat_add, UInt64.toNat_ofNat', hTen]
    omega
  have hPart : ¬(11 : UInt32) ≤ (c >>> STORAGETK_FILEID_TIMESTAMP_SHIFTBITS).toUInt32 := by
    rw [UInt32.le_iff_toNat_le, toNat_timestampPart, hNat]
    decide
  have hRest : after Daemon.step ⟨c, .idle, 11, last, 0 + k⟩
      [.readClock, .readCounter, .tick 12, .generateFileID, .generateFileID] =
        ⟨c + 1 + 1, .counterRead 11, 12, some 12, 2⟩ := by
    simp [after, Daemon.step, if_neg hPart]
  have hRestAllowed : EveryStep Daemon.step Daemon.Allowed ⟨c, .idle, 11, last, 0 + k⟩
      [.readClock, .readCounter, .tick 12, .generateFileID, .generateFileID] := by
    refine ⟨rfl, ⟨11, rfl⟩, ?_⟩
    simp [EveryStep, Daemon.Allowed, Daemon.step, if_neg hPart]
  have hFirst : (Daemon.start 10).step (.tick 11) = ⟨timestampCounter 10, .idle, 11, none, 0⟩ := rfl
  rw [← hc] at hAfter
  constructor
  · refine ⟨c + 1 + 1, ?_, ?_⟩
    · unfold racedActions
      rw [after_cons, hFirst]
      unfold after
      rw [List.foldl_append]
      show after Daemon.step (after Daemon.step _ _) _ = _
      rw [hAfter, hRest]
    · rw [UInt64.toNat_add, UInt64.toNat_add, hNat]
      rfl
  · refine ⟨show (10 : UInt32) ≤ 11 by decide, ?_⟩
    rw [hFirst, everyStep_append, hAfter]
    exact ⟨hAllowed, hRestAllowed⟩

/-- 2^32 - 1 IDs in one second, and two in the next one between the reading of the counter and
its set. -/
theorem not_entryIDs_distinct :
    ∃ steps : List (UInt16 × DaemonStep),
      Run.EveryStep step Allowed (start fun _ => 10) steps ∧
        ¬(Run.after step (start fun _ => 10) steps).issued.Nodup := by
  obtain ⟨k, hk⟩ : ∃ k, k + 1 = 2 ^ 32 := ⟨2 ^ 32 - 1, rfl⟩
  obtain ⟨⟨c, hAfter, hc⟩, hAllowed⟩ := after_racedActions hk
  obtain ⟨s, hs⟩ : ∃ s, s = after step (start fun _ => 10)
      ((racedActions k).map (Prod.mk 1)) := ⟨_, rfl⟩
  have hDaemon : s.daemons 1 = ⟨c, .counterRead 11, 12, some 12, 2⟩ := by
    rw [hs, daemons_after]
    exact hAfter
  have hSteps := @allowed_map (start fun _ => 10) 1 _ hAllowed
  -- nothing is set before
  have hUnraced : EveryStep step Unraced (start fun _ => 10)
      ((racedActions k).map (Prod.mk 1)) := by
    apply everyStep_of_forall
    intro s action hIn
    obtain ⟨a, ha, rfl⟩ := List.mem_map.mp hIn
    have hNoSet : a ≠ .setCounter := by
      rintro rfl
      simp [racedActions] at ha
    cases a with
    | setCounter => exact absurd rfl hNoSet
    | _ => trivial
  have hInv : s.Inv := by
    rw [hs]
    exact after_invariant step (fun s action hs hok => hs.step hok.1 hok.2) (inv_start _)
      (everyStep_and step hSteps hUnraced)
  have hSet : s.Allowed (1, .setCounter) := ⟨11, by rw [hDaemon]⟩
  have hNext : (s.step (1, .setCounter)).Allowed (1, .generateFileID) := by
    show ((s.step (1, .setCounter)).daemons 1).inSecond < 2 ^ 32
    rw [daemons_step, hDaemon]
    show 2 < 2 ^ 32
    decide
  refine ⟨(racedActions k).map (Prod.mk 1) ++ [(1, .setCounter), (1, .generateFileID)], ?_, ?_⟩
  · rw [everyStep_append, ← hs]
    exact ⟨hSteps, hSet, hNext, trivial⟩
  · unfold after
    rw [List.foldl_append]
    show ¬(after step (after step _ _) _).issued.Nodup
    rw [← hs]
    refine hInv.repeated hSet ?_ hNext
    intro hUnracedSet
    have hLe := hUnracedSet 11 (by rw [hDaemon])
    rw [hDaemon, UInt64.le_iff_toNat_le, hc, toNat_timestampCounter] at hLe
    exact absurd hLe (by decide)

end FileIDs

end Fhgfs.StorageTk
