import Fhgfs.Storage.InodeFileStore

/-!
# Ledger of the file references

The inodes in memory, at their places, against the references that have been handed out. A place
is the global file store or the file store of a directory. `Ledger` is the agreement between
both: each inode has as many references as there are handles to it, and an inode in the store of
a directory counts the same number of parent references.

The ledger changes in three ways, by a new handle (`Ledger.opened`), by a handle that is given
back (`Ledger.closed`), and by an inode that moves to the global store (`Ledger.moved`).
-/

namespace Fhgfs.Storage

open ObjectReferencer Option InodeFileStore List

/-- A reference to a file, and the directory through which it was taken. -/
structure Handle where
  parentEntryID : String
  inode : FileInode
deriving DecidableEq

abbrev Place := Option String

abbrev Places := Place → String → Option FileInodeReferencer

def refsTo (handles : List Handle) (address : Nat) : Nat :=
  handles.countP (fun h => decide (h.inode.address = address))

/-- What holds of an inode at a place. -/
structure Sound (handles : List Handle) (numParentRefs : Nat → Int) (nextAddress : Nat)
    (place : Place) (r : FileInodeReferencer) : Prop where
  refCount : r.refCount = refsTo handles r.referencedObject.address
  positive : 0 < r.refCount
  unlocked : r.referencedObject.exclusiveTID = 0
  allocated : r.referencedObject.address < nextAddress
  parentRefs : place ≠ none → numParentRefs r.referencedObject.address = r.refCount

structure Ledger (lookup : Places) (handles : List Handle) (numParentRefs : Nat → Int)
    (nextAddress : Nat) : Prop where
  disjoint : ∀ {fileID r}, lookup none fileID = some r → ∀ dirID,
    lookup (some dirID) fileID = none
  sound : ∀ {place fileID r}, lookup place fileID = some r →
    Sound handles numParentRefs nextAddress place r
  unique : ∀ {place fileID r place' fileID' r'}, lookup place fileID = some r →
    lookup place' fileID' = some r' →
    r.referencedObject.address = r'.referencedObject.address → place = place' ∧ fileID = fileID'
  fresh : ∀ a, nextAddress ≤ a → numParentRefs a = 0
  stored : ∀ h ∈ handles, ∃ place r, (place = none ∨ place = some h.parentEntryID) ∧
    lookup place h.inode.entryID = some r ∧ r.referencedObject = h.inode

section Ledger

variable {lookup lookup' : Places} {handles : List Handle}
  {numParentRefs numParentRefs' : Nat → Int}
  {nextAddress nextAddress' : Nat} {place : Place} {fileID : String} {r : FileInodeReferencer}

theorem refsTo_cons (h : Handle) (handles : List Handle) (address : Nat) :
    refsTo (h :: handles) address = refsTo handles address +
      if h.inode.address = address then 1 else 0 := by
  unfold refsTo
  rw [countP_cons]
  simp only [decide_eq_true_eq]

theorem refsTo_erase {h : Handle} (hIn : h ∈ handles) (address : Nat) :
    refsTo handles address = refsTo (handles.erase h) address +
      if h.inode.address = address then 1 else 0 := by
  rw [← refsTo_cons]
  exact (perm_cons_erase hIn).countP_eq _

theorem refsTo_pos {h : Handle} (hIn : h ∈ handles) : 0 < refsTo handles h.inode.address :=
  countP_pos_iff.mpr ⟨h, hIn, by simp⟩

section

variable (h : Ledger lookup handles numParentRefs nextAddress)
include h

/-- An inode in the store of a directory has a handle that was taken through the directory. -/
theorem Ledger.exists_handle {dirID : String}
    (hFind : lookup (some dirID) fileID = some r) : ∃ handle ∈ handles,
      handle.parentEntryID = dirID := by
  obtain ⟨hCount, hPositive, -, -, -⟩ := h.sound hFind
  have hUsed : 0 < refsTo handles r.referencedObject.address := by omega
  obtain ⟨handle, hIn, hSame⟩ := countP_pos_iff.mp hUsed
  obtain ⟨place, r', hPlace, hFind', hObject⟩ := h.stored handle hIn
  refine ⟨handle, hIn, ?_⟩
  have hAddress : r'.referencedObject.address = r.referencedObject.address := by
    rw [hObject]
    exact of_decide_eq_true hSame
  have hDir := (h.unique hFind' hFind hAddress).1
  simpa [hDir, eq_comm] using hPlace

theorem Ledger.unchanged
    (hLookup : ∀ p k, lookup' p k = lookup p k) (hNext : nextAddress ≤ nextAddress') :
    Ledger lookup' handles numParentRefs nextAddress' := by
  obtain rfl : lookup' = lookup := funext fun p => funext fun k => hLookup p k
  refine ⟨h.disjoint, fun hFind => ?_, h.unique, fun a ha => h.fresh a (hNext.trans ha), h.stored⟩
  obtain ⟨hCount, hPositive, hUnlocked, hAllocated, hParent⟩ := h.sound hFind
  exact ⟨hCount, hPositive, hUnlocked, hAllocated.trans_le hNext, hParent⟩

end

/-- An inode that can get a handle: one that is stored, or one that was loaded just now. -/
structure Acquirable (lookup : Places) (handles : List Handle) (numParentRefs : Nat → Int)
    (nextAddress : Nat) (place : Place) (fileID : String) (r : FileInodeReferencer) : Prop where
  entryID : r.referencedObject.entryID = fileID
  refCount : r.refCount = refsTo handles r.referencedObject.address
  here : ∀ {r'}, lookup place fileID = some r' → r' = r
  unlocked : r.referencedObject.exclusiveTID = 0
  allocated : r.referencedObject.address < nextAddress
  parentRefs : place ≠ none → numParentRefs r.referencedObject.address = r.refCount
  unique : ∀ {place' fileID' r'}, lookup place' fileID' = some r' →
    r'.referencedObject.address = r.referencedObject.address → place' = place ∧ fileID' = fileID

variable (h : Ledger lookup handles numParentRefs nextAddress)
include h

theorem Ledger.acquirable
    (hNext : nextAddress ≤ nextAddress') (hFind : lookup place fileID = some r)
    (hID : r.referencedObject.entryID = fileID) :
    Acquirable lookup handles numParentRefs nextAddress' place fileID r := by
  obtain ⟨hCount, hPositive, hUnlocked, hAllocated, hParent⟩ := h.sound hFind
  exact ⟨hID, hCount, fun hFind' => some.inj (hFind'.symm.trans hFind), hUnlocked,
    hAllocated.trans_le hNext, hParent, fun hFind' hSame => h.unique hFind' hFind hSame⟩

theorem Ledger.acquirable_new
    (hNext : nextAddress < nextAddress') (hNone : lookup place fileID = none) :
    Acquirable lookup handles numParentRefs nextAddress' place fileID
      (new ⟨fileID, 0, nextAddress⟩) := by
  refine ⟨rfl, ?_, fun hFind => ?_, rfl, hNext, fun _ => h.fresh _ le_rfl, fun hFind hSame => ?_⟩
  · show (0 : Int) = refsTo handles nextAddress
    rw [eq_comm, Int.natCast_eq_zero, refsTo, countP_eq_zero]
    intro handle hIn
    obtain ⟨place', r', -, hFind, hSame⟩ := h.stored handle hIn
    have hAllocated := (h.sound hFind).allocated
    rw [hSame] at hAllocated
    rw [decide_eq_true_eq]
    omega
  · rw [hNone] at hFind
    cases hFind
  · have hAllocated := (h.sound hFind).allocated
    have hSame : _ = nextAddress := hSame
    omega

theorem Ledger.opened (hNext : nextAddress ≤ nextAddress')
    (hRef : Acquirable lookup handles numParentRefs nextAddress' place fileID r)
    {parentEntryID : String} (hPlace : place = none ∨ place = some parentEntryID)
    (hGlobal : place = none → lookup none fileID = some r)
    (hAlone : place ≠ none → lookup none fileID = none)
    (hLookup : ∀ p k, lookup' p k = if p = place ∧ k = fileID then some r.reference else lookup p k)
    (hParent : ∀ a, numParentRefs' a = numParentRefs a +
      if place ≠ none ∧ a = r.referencedObject.address then 1 else 0) :
    Ledger lookup' (⟨parentEntryID, r.referencedObject⟩ :: handles) numParentRefs'
      nextAddress' := by
  have hHere : lookup' place fileID = some r.reference := by rw [hLookup, if_pos ⟨rfl, rfl⟩]
  have hOther : ∀ {p k r'}, lookup' p k = some r' → ¬ (p = place ∧ k = fileID) →
      lookup p k = some r' := by
    intro p k r' hFind hNot
    rwa [hLookup, if_neg hNot] at hFind
  constructor
  · intro k r' hFind dirID
    rw [hLookup]
    by_cases hk : some dirID = place ∧ k = fileID
    · obtain ⟨rfl, rfl⟩ := hk
      have hOld := hOther hFind (by simp)
      rw [hAlone (by simp)] at hOld
      cases hOld
    · rw [if_neg hk]
      by_cases hSame : none = place ∧ k = fileID
      · obtain ⟨rfl, rfl⟩ := hSame
        exact h.disjoint (hGlobal rfl) dirID
      · exact h.disjoint (hOther hFind hSame) dirID
  · intro p k r' hFind
    by_cases hk : p = place ∧ k = fileID
    · obtain ⟨rfl, rfl⟩ := hk
      cases hHere.symm.trans hFind
      have hCount := hRef.refCount
      refine ⟨?_, ?_, hRef.unlocked, hRef.allocated, fun hDir => ?_⟩
      · rw [refsTo_cons, ObjectReferencer.referencedObject_reference, if_pos rfl,
          ObjectReferencer.refCount_reference]
        omega
      · rw [ObjectReferencer.refCount_reference]
        omega
      · rw [hParent, ObjectReferencer.referencedObject_reference, if_pos ⟨hDir, rfl⟩,
          hRef.parentRefs hDir, ObjectReferencer.refCount_reference]
    · have hOld := hOther hFind hk
      obtain ⟨hCount, hPositive, hUnlocked, hAllocated, hParentOld⟩ := h.sound hOld
      have hNe : r.referencedObject.address ≠ r'.referencedObject.address :=
        fun hSame => hk (hRef.unique hOld hSame.symm)
      refine ⟨?_, hPositive, hUnlocked, hAllocated.trans_le hNext, fun hDir => ?_⟩
      · rw [refsTo_cons, if_neg hNe, add_zero, hCount]
      · rw [hParent, if_neg (fun hSame => hNe hSame.2.symm), add_zero, hParentOld hDir]
  · intro p k r₁ p' k' r₂ hFind hFind' hSame
    by_cases hk : p = place ∧ k = fileID
    · obtain ⟨rfl, rfl⟩ := hk
      cases hHere.symm.trans hFind
      by_cases hk' : p' = p ∧ k' = k
      · exact ⟨hk'.1.symm, hk'.2.symm⟩
      · obtain ⟨hPlace', hID'⟩ := hRef.unique (hOther hFind' hk') hSame.symm
        exact ⟨hPlace'.symm, hID'.symm⟩
    · by_cases hk' : p' = place ∧ k' = fileID
      · obtain ⟨rfl, rfl⟩ := hk'
        cases hHere.symm.trans hFind'
        exact hRef.unique (hOther hFind hk) hSame
      · exact h.unique (hOther hFind hk) (hOther hFind' hk') hSame
  · intro a ha
    have hAllocated := hRef.allocated
    rw [hParent, if_neg (by omega), h.fresh a (hNext.trans ha)]
    rfl
  · intro handle hIn
    rcases mem_cons.mp hIn with rfl | hIn
    · exact ⟨place, r.reference, hPlace, hRef.entryID ▸ hHere, rfl⟩
    obtain ⟨p, r', hPlace', hFind, hObject⟩ := h.stored handle hIn
    by_cases hk : p = place ∧ handle.inode.entryID = fileID
    · obtain ⟨rfl, hID⟩ := hk
      rw [hID] at hFind
      rw [hRef.here hFind] at hObject
      exact ⟨p, r.reference, hPlace', by rw [hID, hHere], hObject⟩
    · exact ⟨p, r', hPlace', by rwa [hLookup, if_neg hk], hObject⟩

theorem Ledger.closed {handle : Handle}
    (hIn : handle ∈ handles) (hFind : lookup place handle.inode.entryID = some r)
    (hObject : r.referencedObject = handle.inode)
    (hLookup : ∀ p k, lookup' p k =
      if p = place ∧ k = handle.inode.entryID then decreased r else lookup p k)
    (hParent : ∀ a, numParentRefs' a = numParentRefs a -
      if place ≠ none ∧ a = handle.inode.address then 1 else 0) :
    Ledger lookup' (handles.erase handle) numParentRefs' nextAddress := by
  have hSound := h.sound hFind
  have hCount := hSound.refCount
  have hErase := refsTo_erase hIn r.referencedObject.address
  rw [hObject] at hCount hErase
  rw [if_pos rfl] at hErase
  -- an entry afterwards comes from the entry at the same place before
  have hBefore : ∀ {p k r'}, lookup' p k = some r' →
      (p = place ∧ k = handle.inode.entryID ∧ r' = r.release ∧ r.refCount ≠ 1) ∨
      (¬ (p = place ∧ k = handle.inode.entryID) ∧ lookup p k = some r') := by
    intro p k r' hFind'
    rw [hLookup] at hFind'
    by_cases hk : p = place ∧ k = handle.inode.entryID
    · rw [if_pos hk, decreased] at hFind'
      split at hFind'
      · cases hFind'
      · exact Or.inl ⟨hk.1, hk.2, (some.inj hFind').symm, ‹_›⟩
    · rw [if_neg hk] at hFind'
      exact Or.inr ⟨hk, hFind'⟩
  have hOld : ∀ {p k r'}, lookup' p k = some r' →
      ∃ r₀, lookup p k = some r₀ ∧ r₀.referencedObject = r'.referencedObject := by
    intro p k r' hFind'
    rcases hBefore hFind' with ⟨rfl, rfl, rfl, -⟩ | ⟨-, hSame⟩
    · exact ⟨r, hFind, rfl⟩
    · exact ⟨r', hSame, rfl⟩
  have hNone : ∀ {p k}, lookup p k = none → lookup' p k = none := by
    intro p k hAbsent
    cases hFind' : lookup' p k with
    | none => rfl
    | some r' =>
      obtain ⟨r₀, hSome, -⟩ := hOld hFind'
      rw [hAbsent] at hSome
      cases hSome
  constructor
  · intro k r' hFind' dirID
    obtain ⟨r₀, hSome, -⟩ := hOld hFind'
    exact hNone (h.disjoint hSome dirID)
  · intro p k r' hFind'
    rcases hBefore hFind' with ⟨rfl, rfl, rfl, hMore⟩ | ⟨hk, hSame⟩
    · have hPositive := hSound.positive
      refine ⟨?_, ?_, hSound.unlocked, hSound.allocated, fun hDir => ?_⟩
      · rw [refCount_release, referencedObject_release, hObject]
        omega
      · rw [refCount_release]
        omega
      · rw [hParent, referencedObject_release, hSound.parentRefs hDir, hObject,
          if_pos ⟨hDir, rfl⟩, refCount_release]
    · obtain ⟨hCount', hPositive', hUnlocked', hAllocated', hParent'⟩ := h.sound hSame
      have hNe : handle.inode.address ≠ r'.referencedObject.address := by
        intro hAddress
        rw [← hObject] at hAddress
        obtain ⟨hPlace, hID⟩ := h.unique hSame hFind hAddress.symm
        exact hk ⟨hPlace, hID⟩
      have hErase' := refsTo_erase hIn r'.referencedObject.address
      rw [if_neg hNe, add_zero] at hErase'
      refine ⟨by rw [hCount', hErase'], hPositive', hUnlocked', hAllocated', fun hDir => ?_⟩
      rw [hParent, if_neg (fun hSame' => hNe hSame'.2.symm), Int.sub_zero, hParent' hDir]
  · intro p k r₁ p' k' r₂ hFind₁ hFind₂ hSame
    obtain ⟨r₁', hOld₁, hObject₁⟩ := hOld hFind₁
    obtain ⟨r₂', hOld₂, hObject₂⟩ := hOld hFind₂
    rw [← hObject₁, ← hObject₂] at hSame
    exact h.unique hOld₁ hOld₂ hSame
  · intro a ha
    have hAllocated := hSound.allocated
    rw [hObject] at hAllocated
    rw [hParent, if_neg (by omega), h.fresh a ha]
    rfl
  · intro other hOther
    obtain ⟨p, r', hPlace, hFind', hObject'⟩ := h.stored other (mem_of_mem_erase hOther)
    by_cases hk : p = place ∧ other.inode.entryID = handle.inode.entryID
    · obtain ⟨rfl, hID⟩ := hk
      rw [hID, hFind] at hFind'
      cases hFind'
      -- another handle to the same object
      have hAnother := refsTo_pos hOther
      rw [← hObject', hObject] at hAnother
      refine ⟨p, r.release, hPlace, ?_, hObject'⟩
      rw [hLookup, if_pos ⟨rfl, hID⟩, decreased, if_neg (by omega)]
    · exact ⟨p, r', hPlace, by rwa [hLookup, if_neg hk], hObject'⟩

theorem Ledger.moved {parentEntryID : String} (hFind : lookup (some parentEntryID) fileID = some r)
    (hAlone : ∀ place, place ≠ some parentEntryID → lookup place fileID = none)
    (hLookup : ∀ p k, lookup' p k = if k = fileID then (if p = none then some r else none)
      else lookup p k)
    (hParent : ∀ a, a ≠ r.referencedObject.address → numParentRefs' a = numParentRefs a) :
    Ledger lookup' handles numParentRefs' nextAddress := by
  have hSound := h.sound hFind
  have hBefore : ∀ {p k r'}, lookup' p k = some r' →
      (p = none ∧ k = fileID ∧ r' = r) ∨ (k ≠ fileID ∧ lookup p k = some r') := by
    intro p k r' hFind'
    rw [hLookup] at hFind'
    by_cases hk : k = fileID
    · rw [if_pos hk] at hFind'
      split at hFind'
      · exact Or.inl ⟨‹_›, hk, (some.inj hFind').symm⟩
      · cases hFind'
    · rw [if_neg hk] at hFind'
      exact Or.inr ⟨hk, hFind'⟩
  constructor
  · intro k r' hFind' dirID
    rw [hLookup]
    rcases hBefore hFind' with ⟨-, rfl, -⟩ | ⟨hk, hSame⟩
    · simp
    · rw [if_neg hk]
      exact h.disjoint hSame dirID
  · intro p k r' hFind'
    rcases hBefore hFind' with ⟨rfl, rfl, rfl⟩ | ⟨hk, hSame⟩
    · exact ⟨hSound.refCount, hSound.positive, hSound.unlocked, hSound.allocated,
        (absurd rfl ·)⟩
    · obtain ⟨hCount', hPositive', hUnlocked', hAllocated', hParent'⟩ := h.sound hSame
      refine ⟨hCount', hPositive', hUnlocked', hAllocated', fun hDir => ?_⟩
      rw [hParent _ fun hAddress => hk (h.unique hSame hFind hAddress).2, hParent' hDir]
  · intro p k r₁ p' k' r₂ hFind₁ hFind₂ hSame
    rcases hBefore hFind₁ with ⟨rfl, rfl, rfl⟩ | ⟨hk₁, hOld₁⟩ <;>
      rcases hBefore hFind₂ with ⟨rfl, rfl, rfl⟩ | ⟨hk₂, hOld₂⟩
    · exact ⟨rfl, rfl⟩
    · exact absurd (h.unique hFind hOld₂ hSame).2.symm hk₂
    · exact absurd (h.unique hOld₁ hFind hSame).2 hk₁
    · exact h.unique hOld₁ hOld₂ hSame
  · intro a ha
    have hAllocated := hSound.allocated
    rw [hParent a (by omega), h.fresh a ha]
  · intro handle hIn
    obtain ⟨p, r', hPlace, hFind', hObject⟩ := h.stored handle hIn
    by_cases hk : handle.inode.entryID = fileID
    · rw [hk] at hFind'
      have hDir : p = some parentEntryID := by
        by_contra hNe
        rw [hAlone p hNe] at hFind'
        cases hFind'
      rw [hDir, hFind] at hFind'
      cases hFind'
      exact ⟨none, r, Or.inl rfl, by rw [hLookup, if_pos hk, if_pos rfl], hObject⟩
    · exact ⟨p, r', hPlace, by rwa [hLookup, if_neg hk], hObject⟩

end Ledger

end Fhgfs.Storage
