import Mathlib.Data.Int.Notation

/-!
# Reference counted objects

`ObjectReferencer`, the holder of a reference counted object. The count is a signed `int` that
`release` decrements without a check.
-/

namespace Fhgfs

structure ObjectReferencer (T : Type) where
  refCount : Int
  referencedObject : T
deriving DecidableEq

namespace ObjectReferencer

variable {T : Type}

def new (referencedObject : T) : ObjectReferencer T := ⟨0, referencedObject⟩

variable (r : ObjectReferencer T)

def reference : ObjectReferencer T :=
  { r with refCount := r.refCount + 1 }

def release : ObjectReferencer T :=
  { r with refCount := r.refCount - 1 }

@[simp] theorem refCount_reference : r.reference.refCount = r.refCount + 1 := rfl

@[simp] theorem refCount_release : r.release.refCount = r.refCount - 1 := rfl

@[simp] theorem referencedObject_reference :
    r.reference.referencedObject = r.referencedObject := rfl

@[simp] theorem referencedObject_release : r.release.referencedObject = r.referencedObject := rfl

end ObjectReferencer

end Fhgfs
