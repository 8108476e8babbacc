import Mathlib.Data.String.Basic
import Mathlib.Data.Prod.Lex
import Fhgfs.Lib.LockManager

/-!
# Lock type flags

The `ENTRYLOCKTYPE_…` bits that both kinds of lock requests carry, and the tests on them.
The lock managers look at the bits in a fixed order: cancel, unlock, shared, and everything
else is treated as an exclusive lock. `OneKind` singles out the flag words that name one of
the four requests, `NotBothModes` those that do not ask for both lock modes.
-/

namespace Fhgfs.Locking

abbrev LockTypeFlags := BitVec 32

abbrev StringSet := OrderedSet (id : String → String)

namespace LockTypeFlags

def ENTRYLOCKTYPE_UNLOCK : LockTypeFlags := 1
def ENTRYLOCKTYPE_EXCLUSIVE : LockTypeFlags := 2
def ENTRYLOCKTYPE_SHARED : LockTypeFlags := 4
def ENTRYLOCKTYPE_NOWAIT : LockTypeFlags := 8
def ENTRYLOCKTYPE_CANCEL : LockTypeFlags := 16

variable (flags : LockTypeFlags)

def allowsWaiting : Bool := flags &&& ENTRYLOCKTYPE_NOWAIT == 0
def isUnlock : Bool := flags &&& ENTRYLOCKTYPE_UNLOCK != 0
def isExclusive : Bool := flags &&& ENTRYLOCKTYPE_EXCLUSIVE != 0
def isShared : Bool := flags &&& ENTRYLOCKTYPE_SHARED != 0
def isCancel : Bool := flags &&& ENTRYLOCKTYPE_CANCEL != 0

/-- The kind of a request, in the order in which the lock managers test the bits. -/
def kind : RequestKind :=
  if flags.isCancel then .cancel else if flags.isUnlock then .unlock else .lock

/-- The flags name one of the four requests: cancel, unlock, a shared or an exclusive lock. -/
def OneKind : Prop :=
  flags.kind = .lock → flags.isShared = !flags.isExclusive

instance (flags : LockTypeFlags) : Decidable flags.OneKind :=
  inferInstanceAs (Decidable (_ → _))

/-- A lock request does not ask for the shared and the exclusive mode together. -/
def NotBothModes : Prop :=
  flags.kind = .lock → ¬ (flags.isShared = true ∧ flags.isExclusive = true)

instance (flags : LockTypeFlags) : Decidable flags.NotBothModes :=
  inferInstanceAs (Decidable (_ → _))

end LockTypeFlags

end Fhgfs.Locking

/-!
## Entry locks

`EntryLockDetails`, one `flock()` or append lock request or granted lock. Entry locks are
treated per file descriptor: the handle is the pair of `clientFD` and `clientID`, which is
also the key of the set of shared locks. A lock is unset by clearing its `clientID` only.
-/

namespace Fhgfs.Locking

structure EntryLockDetails where
  clientID : String
  clientFD : Int
  ownerPID : Int
  lockAckID : String
  lockTypeFlags : LockTypeFlags
deriving DecidableEq

namespace EntryLockDetails

variable (l : EntryLockDetails)

def unset : EntryLockDetails := { l with clientID := "" }

def isSet : Bool := l.clientID != ""

def allowsWaiting (l : EntryLockDetails) : Bool := l.lockTypeFlags.allowsWaiting
def isExclusive (l : EntryLockDetails) : Bool := l.lockTypeFlags.isExclusive
def isShared (l : EntryLockDetails) : Bool := l.lockTypeFlags.isShared

def equalsHandle (l other : EntryLockDetails) : Bool :=
  l.clientFD == other.clientFD && l.clientID == other.clientID

/-- The order of `MapComparator`: by `clientFD`, then by `clientID`. -/
def handle : Int ×ₗ String := toLex (l.clientFD, l.clientID)

theorem equalsHandle_iff {l other : EntryLockDetails} :
    l.equalsHandle other = true ↔ l.handle = other.handle := by
  simp [equalsHandle, handle]

@[simp] theorem isSet_unset : l.unset.isSet = false := by
  simp [unset, isSet]

theorem isSet_of_handle_eq {l other : EntryLockDetails} (h : l.handle = other.handle)
    (hOther : other.isSet = true) : l.isSet = true := by
  have hID : l.clientID = other.clientID := by
    have := toLex.injective h
    exact (Prod.mk.inj this).2
  simp only [isSet] at hOther ⊢
  rwa [hID]

end EntryLockDetails

abbrev EntryLockDetailsSet := OrderedSet EntryLockDetails.handle

end Fhgfs.Locking
