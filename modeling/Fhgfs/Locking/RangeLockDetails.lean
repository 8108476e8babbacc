import Mathlib.Data.UInt
import Fhgfs.Locking.EntryLockDetails

/-!
# Range locks

`RangeLockDetails`, one `fcntl()` range lock request or granted range lock, with the interval
arithmetic of `Locking.h` on 64 bit byte offsets. Range locks are treated per process: the
handle is the pair of `ownerPID` and `clientID`. The last byte of a range is its field `stop`
(`end` in the source, which is a keyword here).

The bytes of a range are natural numbers, `RangeLockDetails.covers`. The lemmas say what each
operation does to the bytes, including at the top of the offsets, where `stop + 1` wraps
around.
-/

namespace Fhgfs.Locking

inductive RangeOverlapType
  | NONE
  | EQUALS
  | CONTAINS
  | ISCONTAINED
  | STARTOVERLAP
  | ENDOVERLAP
deriving DecidableEq

structure RangeLockDetails where
  clientID : String
  ownerPID : Int
  lockAckID : String
  lockTypeFlags : LockTypeFlags
  start : UInt64
  stop : UInt64
deriving DecidableEq

namespace RangeLockDetails

def allowsWaiting (l : RangeLockDetails) : Bool := l.lockTypeFlags.allowsWaiting
def isUnlock (l : RangeLockDetails) : Bool := l.lockTypeFlags.isUnlock
def isExclusive (l : RangeLockDetails) : Bool := l.lockTypeFlags.isExclusive
def isShared (l : RangeLockDetails) : Bool := l.lockTypeFlags.isShared

def equalsHandle (l other : RangeLockDetails) : Bool :=
  l.ownerPID == other.ownerPID && l.clientID == other.clientID

/-- Ranges overlap or directly extend each other. -/
def isMergeable (l other : RangeLockDetails) : Bool :=
  if other.stop + 1 < l.start || other.start > l.stop + 1 then false else true

def overlaps (l other : RangeLockDetails) : Bool :=
  if other.stop < l.start || other.start > l.stop then false else true

def overlapsEx (l other : RangeLockDetails) : RangeOverlapType :=
  if other.stop < l.start || other.start > l.stop then .NONE
  else if other.start == l.start && other.stop == l.stop then .EQUALS
  else if l.start ≤ other.start && l.stop ≥ other.stop then .CONTAINS
  else if l.start ≥ other.start && l.stop ≤ other.stop then .ISCONTAINED
  else if l.start < other.start then .STARTOVERLAP
  else .ENDOVERLAP

/-- Trim the part of this lock that overlaps with `trimmer`. -/
def trim (l trimmer : RangeLockDetails) : RangeLockDetails :=
  if trimmer.stop < l.stop then { l with start := trimmer.stop + 1 }
  else { l with stop := trimmer.start - 1 }

/-- What remains of this lock left and right of `splitter`. -/
def split (l splitter : RangeLockDetails) : RangeLockDetails × RangeLockDetails :=
  ({ l with stop := splitter.start - 1 }, { l with start := splitter.stop + 1 })

/-- Extend this lock by the dimension of `other`. -/
def merge (l other : RangeLockDetails) : RangeLockDetails :=
  { l with
    start := if l.start < other.start then l.start else other.start
    stop := if l.stop < other.stop then other.stop else l.stop }

/-! ## Handles and keys -/

def handle (l : RangeLockDetails) : Int ×ₗ String := toLex (l.ownerPID, l.clientID)

variable {l other : RangeLockDetails}

theorem equalsHandle_iff : l.equalsHandle other = true ↔ l.handle = other.handle := by
  simp [equalsHandle, handle]

/-- The order of `MapComparatorShared`: by handle, then by range start. -/
def keyShared (l : RangeLockDetails) : (Int ×ₗ String) ×ₗ Nat :=
  toLex (l.handle, l.start.toNat)

/-- The order of `MapComparatorExcl`: by range start. -/
def keyExcl (l : RangeLockDetails) : Nat := l.start.toNat

@[simp] theorem handle_trim (l trimmer : RangeLockDetails) :
    (l.trim trimmer).handle = l.handle := by
  unfold trim
  split <;> rfl

/-! ## Bytes -/

/-- The byte `b` lies in the range; the last byte is included. -/
def covers (l : RangeLockDetails) (b : Nat) : Prop := l.start.toNat ≤ b ∧ b ≤ l.stop.toNat

instance (l : RangeLockDetails) (b : Nat) : Decidable (l.covers b) :=
  inferInstanceAs (Decidable (_ ∧ _))

def Valid (l : RangeLockDetails) : Prop := l.start.toNat ≤ l.stop.toNat

instance (l : RangeLockDetails) : Decidable l.Valid := inferInstanceAs (Decidable (_ ≤ _))

def topByte : Nat := 2 ^ 64 - 1

theorem stop_le_top (l : RangeLockDetails) : l.stop.toNat ≤ topByte := by
  have := l.stop.toNat_lt
  unfold topByte
  omega

theorem toNat_succ (x : UInt64) : (x + 1).toNat = if x.toNat = topByte then 0 else x.toNat + 1 := by
  have hx := x.toNat_lt
  rw [UInt64.toNat_add]
  unfold topByte
  split <;> simp <;> omega

theorem toNat_pred {x : UInt64} (h : 0 < x.toNat) : (x - 1).toNat = x.toNat - 1 := by
  rw [UInt64.toNat_sub_of_le]
  · rfl
  · rwa [UInt64.le_iff_toNat_le]

theorem covers_start {l : RangeLockDetails} (h : l.Valid) : l.covers l.start.toNat :=
  ⟨le_rfl, h⟩

theorem valid_of_covers {l : RangeLockDetails} {b : Nat} (h : l.covers b) : l.Valid :=
  le_trans h.1 h.2

theorem overlaps_iff :
    l.overlaps other = true ↔
      l.start.toNat ≤ other.stop.toNat ∧ other.start.toNat ≤ l.stop.toNat := by
  simp [overlaps, UInt64.le_iff_toNat_le]

theorem overlaps_iff_exists (hl : l.Valid) (ho : other.Valid) :
    l.overlaps other = true ↔ ∃ b, l.covers b ∧ other.covers b := by
  rw [overlaps_iff]
  unfold covers Valid at *
  constructor
  · rintro ⟨h1, h2⟩
    refine ⟨max l.start.toNat other.start.toNat, ?_⟩
    omega
  · rintro ⟨b, h1, h2⟩
    omega

theorem isMergeable_iff :
    l.isMergeable other = true ↔
      l.start.toNat ≤ (other.stop + 1).toNat ∧ other.start.toNat ≤ (l.stop + 1).toNat := by
  simp [isMergeable, UInt64.le_iff_toNat_le]

theorem start_merge (l other : RangeLockDetails) :
    (l.merge other).start.toNat = min l.start.toNat other.start.toNat := by
  simp only [merge, UInt64.lt_iff_toNat_lt]
  split <;> omega

theorem stop_merge (l other : RangeLockDetails) :
    (l.merge other).stop.toNat = max l.stop.toNat other.stop.toNat := by
  simp only [merge, UInt64.lt_iff_toNat_lt]
  split <;> omega

theorem valid_merge (hl : l.Valid) : (l.merge other).Valid := by
  unfold Valid at *
  rw [start_merge, stop_merge]
  omega

/-- A merge adds exactly the bytes of the merged range. This holds also at the top, where a
wrapped `stop + 1` only makes fewer ranges mergeable. -/
theorem covers_merge (h : l.isMergeable other = true) (b : Nat) :
    (l.merge other).covers b ↔ l.covers b ∨ other.covers b := by
  rw [isMergeable_iff, toNat_succ, toNat_succ] at h
  unfold covers
  rw [start_merge, stop_merge]
  split at h <;> split at h <;> omega

/-! ## What an unlock leaves of a range -/

theorem overlapsEx_cases (l other : RangeLockDetails) :
    (l.overlapsEx other = .NONE ∧
      (other.stop.toNat < l.start.toNat ∨ l.stop.toNat < other.start.toNat)) ∨
    (l.overlapsEx other = .EQUALS ∧
      other.start.toNat = l.start.toNat ∧ other.stop.toNat = l.stop.toNat) ∨
    (l.overlapsEx other = .CONTAINS ∧ l.start.toNat ≤ other.start.toNat ∧
      other.stop.toNat ≤ l.stop.toNat ∧
      ¬ (other.start.toNat = l.start.toNat ∧ other.stop.toNat = l.stop.toNat)) ∨
    (l.overlapsEx other = .ISCONTAINED ∧ other.start.toNat ≤ l.start.toNat ∧
      l.stop.toNat ≤ other.stop.toNat ∧
      ¬ (other.start.toNat = l.start.toNat ∧ other.stop.toNat = l.stop.toNat)) ∨
    (l.overlapsEx other = .STARTOVERLAP ∧ l.start.toNat < other.start.toNat ∧
      other.start.toNat ≤ l.stop.toNat ∧ l.stop.toNat < other.stop.toNat) ∨
    (l.overlapsEx other = .ENDOVERLAP ∧ other.start.toNat < l.start.toNat ∧
      l.start.toNat ≤ other.stop.toNat ∧ other.stop.toNat < l.stop.toNat) := by
  simp only [overlapsEx, Bool.or_eq_true, Bool.and_eq_true, decide_eq_true_eq, beq_iff_eq,
    ge_iff_le, gt_iff_lt, UInt64.lt_iff_toNat_lt, UInt64.le_iff_toNat_le,
    ← UInt64.toNat_inj]
  split
  · simp_all
  split
  · simp_all
  · split
    · simp_all
    · split
      · simp_all
      · split
        · simp only [reduceCtorEq, false_and, true_and, false_or, or_false]
          omega
        · simp only [reduceCtorEq, false_and, true_and, false_or]
          omega

end RangeLockDetails

end Fhgfs.Locking
