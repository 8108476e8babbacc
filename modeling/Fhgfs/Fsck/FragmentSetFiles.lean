import Fhgfs.Fsck.FragmentSetElements
import Fhgfs.Fsck.UnreadWindows

/-!
# The files of a set

A set that is closed leaves a description, with the number of the next fragment and the names of
all fragments, and the files of the fragments. `loadConfig_close`: the constructor finds every
fragment again, and `reopened_usable`: the items are the same, in a set that differs from a usable
one in nothing but windows that no cursor reads (`forgetWindows`), where the files are `Legible`.
The calls of a set do not depend on these windows, and what they return is `Restorable`.
-/

namespace Fhgfs.Fsck

open SetFragment OrderedMap Option List FragmentSet
open SetFragment (Holds Ready Built Intact HonestFlag FlagKept)

namespace FragmentSet

variable {Data κ : Type}

/-- The set without the windows that no cursor reads. -/
def forgetWindows (s : FragmentSet Data κ) : FragmentSet Data κ :=
  { s with openFragments := s.openFragments.mapVal SetFragment.forgetWindow }

def Named (s : FragmentSet Data κ) : Prop :=
  ∀ id, s.nextID ≤ id → s.openFragments.find (fragmentName id) = none

/-- A set whose files can be opened again. -/
structure Restorable (s : FragmentSet Data κ) : Prop where
  named : Named s
  flags : Each FlagKept s.openFragments

variable {s : FragmentSet Data κ} {file : List Nat} {f : SetFragment Data κ}

theorem Named.put (h : Named s) (f : SetFragment Data κ) :
    Named ⟨s.nextID + 1, s.openFragments.put (fragmentName s.nextID) f⟩ := by
  intro id hId
  have hNext : s.nextID < id := hId
  rw [find_put_of_ne _ _ (fragmentName_injective.ne hNext.ne'), h id hNext.le]

theorem Named.foldl_remove (h : Named s) (files : List (List Nat)) :
    Named ⟨s.nextID, files.foldl remove s.openFragments⟩ := by
  intro id hId
  rw [find_foldl_remove]
  split
  · rfl
  · exact h id hId

theorem Restorable.remove (h : Restorable s) (file : List Nat) :
    Restorable (s.removeFragment file) :=
  ⟨h.named.foldl_remove [file], h.flags.remove⟩

theorem create_restorable : Restorable (create : FragmentSet Data κ) :=
  ⟨fun _ _ => find_empty _, fun _ _ hFind => by cases hFind⟩

theorem find_forgetWindows : s.forgetWindows.openFragments.find file =
    (s.openFragments.find file).map forgetWindow :=
  find_mapVal _ _ _

theorem forgetWindows_named : Named s.forgetWindows ↔ Named s := by
  have hFind (id : Nat) : s.forgetWindows.openFragments.find (fragmentName id) = none ↔
      s.openFragments.find (fragmentName id) = none := by
    rw [find_forgetWindows, map_eq_none_iff]
  exact ⟨fun h id hId => (hFind id).mp (h id hId), fun h id hId => (hFind id).mpr (h id hId)⟩

@[simp] theorem forgetWindows_forgetWindows : s.forgetWindows.forgetWindows = s.forgetWindows := by
  unfold forgetWindows
  rw [mapVal_mapVal]
  refine congrArg (fun g => FragmentSet.mk s.nextID (s.openFragments.mapVal g)) (funext fun f => ?_)
  exact forgetWindow_forgetWindow

@[simp] theorem forgetWindows_size : s.forgetWindows.size = s.size := by
  unfold size forgetWindows OrderedMap.mapVal
  rw [List.map_map]
  exact congrArg List.sum (List.map_congr_left fun p _ => SetFragment.forgetWindow_itemCount)

def accept (s : FragmentSet Data κ) (p : List Nat × SetFragment Data κ) : FragmentSet Data κ where
  nextID := s.nextID + 1
  openFragments := s.openFragments.put (fragmentName s.nextID) p.2

theorem foldl_accept_forgetWindows (ps : List (List Nat × SetFragment Data κ)) :
    (ps.foldl accept s).forgetWindows =
      (ps.map fun p => (p.1, p.2.forgetWindow)).foldl accept s.forgetWindows := by
  induction ps generalizing s with
  | nil => rfl
  | cons p ps ih =>
    rw [foldl_cons, map_cons, foldl_cons, ih]
    simp only [accept, forgetWindows, mapVal_put]

theorem foldl_accept_named (h : Named s) (ps : List (List Nat × SetFragment Data κ)) :
    Named (ps.foldl accept s) := by
  induction ps generalizing s with
  | nil => exact h
  | cons p ps ih => exact ih (h.put p.2)

theorem foldl_accept_restorable (h : Restorable s) {ps : List (List Nat × SetFragment Data κ)}
    (hFlags : ∀ p ∈ ps, FlagKept p.2) : Restorable (ps.foldl accept s) := by
  induction ps generalizing s with
  | nil => exact h
  | cons p ps ih =>
    have hp := hFlags p mem_cons_self
    exact ih ⟨h.named.put p.2, h.flags.put hp⟩ fun q hq => hFlags q (mem_cons_of_mem p hq)

theorem mergeInto_forgetWindows (other : FragmentSet Data κ) :
    (s.mergeInto other).2.forgetWindows = (s.forgetWindows.mergeInto other.forgetWindows).2 :=
  foldl_accept_forgetWindows s.openFragments.elems

theorem mergeInto_restorable {other : FragmentSet Data κ} (h : Each FlagKept s.openFragments)
    (hOther : Restorable other) : Restorable (s.mergeInto other).2 :=
  foldl_accept_restorable hOther fun p hp => h p.1 p.2 (find_eq_some.mpr hp)

variable [LinearOrder κ] {T : ItemType Data κ}

theorem create_flagKept : FlagKept (SetFragment.create T) := SetFragment.flagKept_of_unset rfl

theorem Restorable.getFragment (h : Restorable s) : FlagKept (s.getFragment T file) := by
  unfold FragmentSet.getFragment
  cases hFind : s.openFragments.find file with
  | none => exact create_flagKept
  | some f => exact h.flags file f hFind

theorem newFragment_restorable (h : Restorable s) : Restorable (s.newFragment T).2 :=
  ⟨h.named.put _, h.flags.put h.getFragment⟩

theorem getFragment_forgetWindows :
    s.forgetWindows.getFragment T file = (s.getFragment T file).forgetWindow := by
  unfold getFragment
  rw [find_forgetWindows]
  cases s.openFragments.find file with
  | none => exact forgetWindow_create.symm
  | some f => rfl

theorem updateFragment_forgetWindows {op op' : SetFragment Data κ → SetFragment Data κ}
    (hOp : (op (s.getFragment T file)).forgetWindow = op' (s.getFragment T file).forgetWindow) :
    (s.updateFragment T file op).forgetWindows = s.forgetWindows.updateFragment T file op' := by
  unfold updateFragment
  rw [getFragment_forgetWindows, ← hOp]
  unfold forgetWindows
  rw [mapVal_put]

theorem newFragment_forgetWindows : s.forgetWindows.newFragment T =
    ((s.newFragment T).1, (s.newFragment T).2.forgetWindows) := by
  unfold newFragment
  simp only [getFragment_forgetWindows]
  unfold forgetWindows
  rw [mapVal_put]

theorem updateFragment_restorable {op : SetFragment Data κ → SetFragment Data κ}
    (h : Restorable s) (hFind : s.openFragments.find file = some f) (hOp : FlagKept (op f)) :
    Restorable (s.updateFragment T file op) := by
  unfold updateFragment
  rw [getFragment, hFind, getD_some]
  refine ⟨fun id hId => ?_, h.flags.put hOp⟩
  have hNone := h.named id hId
  rw [find_put_of_ne, hNone]
  rintro rfl
  rw [hFind] at hNone
  cases hNone

/-! ## Sorting -/

theorem mergeInputs_forgetWindow (fs : List (SetFragment Data κ)) :
    mergeInputs T (fs.map forgetWindow) = mergeInputs T fs := by
  have hStep (f : SetFragment Data κ) := forgetWindow_sameFirstStep (T := T) (f := f)
  match fs with
  | [] | [_] | _ :: _ :: _ :: _ :: _ :: _ => rfl
  | [a, b] =>
    simp only [map_cons, map_nil, mergeInputs, forgetWindow_cursor, union_startingIn]
    exact (union_sameFirstStep _ (hStep a) (hStep b)).readAll
  | [a, b, c] =>
    simp only [map_cons, map_nil, mergeInputs, forgetWindow_cursor, union_startingIn]
    exact (union_sameFirstStep _ (union_sameFirstStep _ (hStep a) (hStep b)) (hStep c)).readAll
  | [a, b, c, d] =>
    simp only [map_cons, map_nil, mergeInputs, forgetWindow_cursor, union_startingIn]
    exact (union_sameFirstStep _ (union_sameFirstStep _ (hStep a) (hStep b))
      (union_sameFirstStep _ (hStep c) (hStep d))).readAll

theorem merged_spec (rows : List Data) :
    (((SetFragment.create T).appendAll T rows).flush).forgetWindow =
        ((SetFragment.create T).appendAll T rows).flush ∧
      FlagKept ((SetFragment.create T).appendAll T rows).flush := by
  have hBuilt := SetFragment.appendAll_built (T := T) SetFragment.create_built rows
  refine ⟨SetFragment.forgetWindow_of_window (Or.inr (SetFragment.flush_buffer hBuilt.window)),
    SetFragment.flush_flagKept (SetFragment.flagKept_of_unset ?_)⟩
  exact SetFragment.appendAll_fileSorted rows

theorem getFragment_next (h : Named s) :
    s.getFragment T (fragmentName s.nextID) = SetFragment.create T := by
  rw [getFragment, h _ le_rfl, getD_none]

theorem mergeRound_forgetWindows (h : Named s) (E : List (Nat × List Nat)) :
    mergeRound T E s.forgetWindows = (mergeRound T E s).map fun r => (r.1, r.2.forgetWindows) := by
  have hInputs (files : List (List Nat)) : files.map (s.forgetWindows.getFragment T) =
      (files.map (s.getFragment T)).map SetFragment.forgetWindow := by
    rw [List.map_map]
    exact map_congr_left fun file _ => getFragment_forgetWindows
  have hNext : s.forgetWindows.nextID = s.nextID := rfl
  unfold mergeRound
  simp only [hNext, hInputs, mergeInputs_forgetWindow, getFragment_forgetWindows,
    getFragment_next h,
    SetFragment.forgetWindow_create]
  cases mergeInputs T (((E.take MERGE_WIDTH).map Prod.snd).map (s.getFragment T)) with
  | none => rfl
  | some rows =>
    have hMerged := (merged_spec (T := T) rows).1
    simp only [bind_eq_bind, bind_some, map_some, forgetWindows,
      OrderedMap.mapVal_foldl_remove, OrderedMap.mapVal_put, hMerged]

variable {s' : FragmentSet Data κ}

theorem mergeRound_restorable (h : Restorable s) {E E' : List (Nat × List Nat)}
    (hRound : mergeRound T E s = some (E', s')) : Restorable s' := by
  unfold mergeRound at hRound
  simp only [getFragment_next h.named] at hRound
  obtain ⟨rows, -, hSome⟩ := bind_eq_some_iff.mp hRound
  obtain ⟨-, rfl⟩ := Prod.mk.inj (some.inj hSome)
  exact ⟨(h.named.put _).foldl_remove _, (h.flags.put (merged_spec rows).2).foldl_remove _⟩

theorem mergeLoop_forgetWindows {n : Nat} (h : Restorable s) (E : List (Nat × List Nat)) :
    mergeLoop T n E s.forgetWindows = (mergeLoop T n E s).map forgetWindows := by
  induction n generalizing E s with
  | zero => rfl
  | succ n ih =>
    unfold mergeLoop
    split
    · rw [mergeRound_forgetWindows h.named]
      cases hRound : mergeRound T E s with
      | none => rfl
      | some r => exact ih (mergeRound_restorable h hRound) r.1
    · rfl

theorem mergeLoop_restorable {n : Nat} (h : Restorable s) {E : List (Nat × List Nat)}
    (hLoop : mergeLoop T n E s = some s') : Restorable s' := by
  induction n generalizing E s with
  | zero => cases hLoop
  | succ n ih =>
    unfold mergeLoop at hLoop
    split at hLoop
    · obtain ⟨r, hRound, hRest⟩ := bind_eq_some_iff.mp hLoop
      exact ih (mergeRound_restorable h hRound) hRest
    · cases hLoop
      exact h

theorem inhabited_forgetWindows (h : Named s) :
    s.forgetWindows.inhabited T = (s.inhabited T).forgetWindows ∧ Named (s.inhabited T) := by
  have hEmpty : s.forgetWindows.openFragments.elems.isEmpty = s.openFragments.elems.isEmpty := by
    simp [forgetWindows, mapVal]
  unfold inhabited
  rw [hEmpty, newFragment_forgetWindows]
  split
  · exact ⟨rfl, h.put _⟩
  · exact ⟨rfl, h⟩

theorem sortFragments_forgetWindows (h : Named s) :
    s.forgetWindows.sortFragments T = (s.sortFragments T).forgetWindows ∧
      Restorable (s.sortFragments T) := by
  obtain ⟨hForget, hNamed⟩ := inhabited_forgetWindows (T := T) h
  have hEq (s : FragmentSet Data κ) : s.sortFragments T = { s.inhabited T with
      openFragments := (s.inhabited T).openFragments.mapVal (SetFragment.sort T) } := by
    unfold sortFragments inhabited
    simp only [OrderedMap.mapVal_mapVal]
    rw [show SetFragment.sort T ∘ SetFragment.flush = SetFragment.sort T from
      funext fun f => SetFragment.sort_flush]
  refine ⟨?_, ?_, ?_⟩
  · rw [hEq, hEq, hForget]
    simp only [forgetWindows, OrderedMap.mapVal_mapVal]
    rw [show SetFragment.sort T ∘ SetFragment.forgetWindow =
      SetFragment.forgetWindow ∘ SetFragment.sort T from
      funext fun f => SetFragment.forgetWindow_sort.symm]
  · intro id hId
    rw [hEq] at hId ⊢
    rw [OrderedMap.find_mapVal, hNamed id hId, map_none]
  · intro file f hFind
    rw [hEq, OrderedMap.find_mapVal] at hFind
    obtain ⟨f₀, -, rfl⟩ := map_eq_some_iff.mp hFind
    exact SetFragment.sort_flagKept

theorem sort_forgetWindows (h : Named s) :
    s.forgetWindows.sort T = (s.sort T).map forgetWindows := by
  obtain ⟨hForget, hRestorable⟩ := sortFragments_forgetWindows (T := T) h
  have hList : (s.sortFragments T).forgetWindows.openFragments.elems.foldl
      (fun sorted p => insertBySize (p.2.itemCount, p.1) sorted) [] =
      (s.sortFragments T).openFragments.elems.foldl
        (fun sorted p => insertBySize (p.2.itemCount, p.1) sorted) [] := by
    simp only [forgetWindows, mapVal, foldl_map, forgetWindow_itemCount]
  unfold sort
  simp only [hForget, hList]
  exact mergeLoop_forgetWindows hRestorable _

theorem sort_restorable (h : Named s) (hSort : s.sort T = some s') : Restorable s' :=
  mergeLoop_restorable (sortFragments_forgetWindows h).2 hSort

omit [LinearOrder κ] in
theorem head?_forgetWindows : s.forgetWindows.openFragments.elems.head? =
    s.openFragments.elems.head?.map fun p => (p.1, p.2.forgetWindow) :=
  head?_map

theorem cursorFragment_forgetWindows (h : Named s) : s.forgetWindows.cursorFragment T =
    (s.cursorFragment T).map fun r => (r.1, r.2.1.forgetWindow, r.2.2.forgetWindows) := by
  unfold cursorFragment
  rw [sort_forgetWindows h]
  cases s.sort T with
  | none => rfl
  | some s' =>
    simp only [map_some, bind_eq_bind, bind_some, head?_forgetWindows]
    cases s'.openFragments.elems.head? <;> rfl

theorem find_newFragment (h : Named s) : (s.newFragment T).2.openFragments.find
    (s.newFragment T).1 = some (SetFragment.create T) := by
  unfold newFragment
  rw [OrderedMap.find_put_self, getFragment, h _ le_rfl, getD_none]

omit [LinearOrder κ] in
theorem removeFragment_forgetWindows :
    (s.removeFragment file).forgetWindows = s.forgetWindows.removeFragment file := by
  unfold removeFragment forgetWindows
  rw [mapVal_remove]

theorem unique_spec (row : Data) (rows : List Data) :
    (uniqueLoop T (T.pkey row) rows ((SetFragment.create T).append T row)).flush.forgetWindow =
        (uniqueLoop T (T.pkey row) rows ((SetFragment.create T).append T row)).flush ∧
      FlagKept (uniqueLoop T (T.pkey row) rows ((SetFragment.create T).append T row)).flush := by
  have hMerged := merged_spec (T := T) (row :: Distinct.rowsFrom T.pkey (some (T.pkey row)) rows)
  rwa [uniqueLoop_eq]

theorem makeUnique_forgetWindows (h : Named s) :
    s.forgetWindows.makeUnique T = (s.makeUnique T).map forgetWindows := by
  unfold makeUnique
  rw [sort_forgetWindows h]
  cases hSort : s.sort T with
  | none => rfl
  | some s' =>
    have hNamed := (sort_restorable h hSort).named
    simp only [map_some, bind_eq_bind, bind_some, head?_forgetWindows]
    cases s'.openFragments.elems.head? with
    | none => rfl
    | some p =>
      have hRead : (p.2.forgetWindow.cursor T).readAll = (p.2.cursor T).readAll := by
        rw [SetFragment.forgetWindow_cursor]
        exact SetFragment.forgetWindow_sameFirstStep.readAll
      simp only [map_some, bind_some, hRead]
      cases (p.2.cursor T).readAll with
      | none => rfl
      | some rows =>
        cases rows with
        | nil => rfl
        | cons row rows =>
          have hUnique := (unique_spec (T := T) row rows).1
          simp only [bind_some, map_some, newFragment_forgetWindows,
            removeFragment_forgetWindows]
          refine congrArg (fun s => some (removeFragment s p.1)) (Eq.symm ?_)
          refine updateFragment_forgetWindows ?_
          rw [getFragment, find_newFragment hNamed, getD_some,
            SetFragment.forgetWindow_create]
          exact hUnique

theorem makeUnique_restorable (h : Named s)
    (hUnique : s.makeUnique T = some s') : Restorable s' := by
  obtain ⟨s₁, hSort, hRest⟩ := bind_eq_some_iff.mp hUnique
  have hSorted := sort_restorable h hSort
  obtain ⟨p, -, hRest⟩ := bind_eq_some_iff.mp hRest
  obtain ⟨rows, -, hRest⟩ := bind_eq_some_iff.mp hRest
  cases rows with
  | nil =>
    cases hRest
    exact hSorted
  | cons row rows =>
    cases hRest
    exact (updateFragment_restorable (newFragment_restorable hSorted)
      (find_newFragment hSorted.named) (unique_spec row rows).2).remove p.1

/-! ## Sets without their windows -/

omit [LinearOrder κ] in
theorem mapVal_elems (g : SetFragment Data κ → SetFragment Data κ) (m : Fragments Data κ) :
    (m.mapVal g).elems = m.elems.map fun p => (p.1, g p.2) := rfl

theorem mapVal_usable (h : Usable T s) (g : SetFragment Data κ → SetFragment Data κ)
    (hg : ∀ file f, s.openFragments.find file = some f → Ready T (g f) (f.items T)) :
    Usable T { s with openFragments := s.openFragments.mapVal g } ∧
      elements T { s with openFragments := s.openFragments.mapVal g } = elements T s := by
  have hEach {P : SetFragment Data κ → Prop} (hP : ∀ f l, Ready T f l → P f) :
      Each P (s.openFragments.mapVal g) := by
    intro file f hFind
    rw [find_mapVal] at hFind
    obtain ⟨f₀, hFind₀, rfl⟩ := map_eq_some_iff.mp hFind
    exact hP _ _ (hg file f₀ hFind₀)
  refine ⟨⟨⟨fun {id} hId => ?_, hEach fun f l hf => hf.intact⟩, hEach fun f l hf =>
    hf.honestFlag⟩, ?_⟩
  · rw [find_mapVal, h.named hId, map_none]
  · unfold elements contents
    rw [mapVal_elems, flatMap_map]
    refine congrArg _ (flatMap_congr fun p hp => ?_)
    exact items_of_holds (hg p.1 p.2 (find_eq_some.mpr hp)).holds

theorem forgetWindows_usable (h : Usable T s) :
    Usable T s.forgetWindows ∧ elements T s.forgetWindows = elements T s :=
  mapVal_usable h _ fun _ _ hFind => forgetWindow_ready (h.ready hFind)

/-- The items in the files, once they are flushed. -/
def stored (s : FragmentSet Data κ) : List Data :=
  s.openFragments.elems.flatMap fun p => p.2.flush.file

theorem stored_eq (h : Usable T s.forgetWindows) :
    (stored s : Multiset Data) = elements T s.forgetWindows := by
  unfold stored elements contents forgetWindows
  rw [mapVal_elems, flatMap_map]
  refine congrArg _ (flatMap_congr fun p hp => ?_)
  have hFind : s.forgetWindows.openFragments.find p.1 = some p.2.forgetWindow := by
    rw [find_forgetWindows, find_eq_some.mpr hp, map_some]
  exact flush_file (h.ready hFind).holds

/-! ## Closing and opening -/

end FragmentSet

/-- The files of a set: the description, and the items and the flag of every fragment. -/
structure SetFiles (Data : Type) where
  nextID : Nat
  count : Nat
  names : List (List Nat)
  fragments : List (List Nat × List Data × Bool)

namespace FragmentSet

variable {Data κ : Type}

/-- The destructor: `saveConfig`, and every fragment is flushed. -/
def close (s : FragmentSet Data κ) : SetFiles Data where
  nextID := s.nextID
  count := s.openFragments.elems.length
  names := s.openFragments.elems.map Prod.fst
  fragments := s.openFragments.elems.map fun p => (p.1, p.2.flush.file, p.2.flush.fileSorted)

end FragmentSet

namespace SetFiles

open FragmentSet (Usable Restorable Named elements)

variable {Data κ : Type} [LinearOrder κ] (T : ItemType Data κ)

variable (d : SetFiles Data)

def getFragment (s : FragmentSet Data κ) (file : List Nat) : Option (FragmentSet Data κ) :=
  match s.openFragments.find file with
  | some _ => some s
  | none => do
    let (items, sorted) ← OrderedMap.lookup d.fragments file
    some { s with
      openFragments := s.openFragments.put file (SetFragment.openFile T items sorted) }

/-- The constructor, where the description exists. -/
def loadConfig : Option (FragmentSet Data κ) := do
  let s ← (d.names.take d.count).foldlM (d.getFragment T) ⟨d.nextID, OrderedSet.empty⟩
  -- if(!in || in.peek() != eof) throw std::runtime_error("bad set description");
  if d.names.length = d.count then some s else none

/-- No window of the fragments is read that a sort makes wrong. -/
def Legible : Prop :=
  ∀ p ∈ d.fragments, ¬ SetFragment.Misread T p.2.1 p.2.2

instance [DecidableEq Data] (d : SetFiles Data) : Decidable (d.Legible T) :=
  inferInstanceAs (Decidable (∀ p ∈ d.fragments, ¬ (_ ∧ _ ∧ _)))

variable {T} {s : FragmentSet Data κ}

theorem foldlM_getFragment {d : SetFiles Data} {ps : List (List Nat × SetFragment Data κ)}
    (hKeys : (ps.map Prod.fst).Nodup) (hFiles : ∀ p ∈ ps, lookup d.fragments p.1 =
      some (p.2.flush.file, p.2.flush.fileSorted))
    (hNew : ∀ p ∈ ps, s.openFragments.find p.1 = none) :
    (ps.map Prod.fst).foldlM (d.getFragment T) s = some { s with
      openFragments := (ps.map fun p => (p.1, p.2.reopen T)).foldl
        (fun m p => m.put p.1 p.2) s.openFragments } := by
  induction ps generalizing s with
  | nil => rfl
  | cons p ps ih =>
    obtain ⟨hFirst, hRest⟩ := nodup_cons.mp hKeys
    have hOpen : d.getFragment T s p.1 =
        some { s with openFragments := s.openFragments.put p.1 (p.2.reopen T) } := by
      unfold getFragment
      rw [hNew p mem_cons_self, hFiles p mem_cons_self]
      rfl
    rw [map_cons, foldlM_cons, hOpen]
    refine ih hRest (fun q hq => hFiles q (mem_cons_of_mem p hq)) fun q hq => ?_
    rw [find_put_of_ne, hNew q (mem_cons_of_mem p hq)]
    rintro hSame
    exact hFirst (hSame ▸ mem_map_of_mem hq)

theorem loadConfig_close (s : FragmentSet Data κ) : s.close.loadConfig T =
    some { s with openFragments := s.openFragments.mapVal (reopen T) } := by
  have hFiles : ∀ p ∈ s.openFragments.elems, lookup s.close.fragments p.1 =
      some (p.2.flush.file, p.2.flush.fileSorted) := by
    intro p hp
    have hFind : s.openFragments.find p.1 = some p.2 := find_eq_some.mpr hp
    rw [find_eq_lookup] at hFind
    unfold close
    rw [lookup_map fun f : SetFragment Data κ => (f.flush.file, f.flush.fileSorted),
      hFind, map_some]
  have hLoop := foldlM_getFragment (T := T) (s := ⟨s.nextID, OrderedSet.empty⟩)
    s.openFragments.nodup_keys hFiles fun p _ => find_empty p.1
  have hAll : s.close.names.take s.close.count = s.openFragments.elems.map Prod.fst := by
    unfold close
    rw [take_of_length_le]
    rw [length_map]
  unfold loadConfig
  rw [hAll]
  simp only [close] at hLoop ⊢
  rw [hLoop]
  simp only [bind_eq_bind, bind_some, length_map, if_true]
  refine congrArg (fun m => some (FragmentSet.mk s.nextID m)) (ext_find fun file => ?_)
  rw [find_foldl_put, find_mapVal]

theorem reopened_usable (h : Usable T s.forgetWindows) (hRestorable : Restorable s)
    (hSize : (elements T s.forgetWindows).card < 2 ^ 64) (hLegible : Legible T s.close) :
    ∃ s', s.close.loadConfig T = some s' ∧ Restorable s' ∧ Usable T s'.forgetWindows ∧
      elements T s'.forgetWindows = elements T s.forgetWindows := by
  refine ⟨_, loadConfig_close s, ⟨fun id hId => ?_, fun file f hFind => ?_⟩, ?_⟩
  · rw [find_mapVal, hRestorable.named id hId, map_none]
  · rw [find_mapVal] at hFind
    obtain ⟨f₀, -, rfl⟩ := map_eq_some_iff.mp hFind
    exact openFile_flagKept _ _
  · have hSame : forgetWindows { s with
        openFragments := s.openFragments.mapVal (reopen T) } =
        { s.forgetWindows with
          openFragments := s.forgetWindows.openFragments.mapVal
            (forgetWindow ∘ reopen T) } := by
      simp only [forgetWindows, mapVal_mapVal]
      refine congrArg (fun g => FragmentSet.mk s.nextID (s.openFragments.mapVal g)) ?_
      funext f
      simp only [Function.comp_apply, forgetWindow_reopen]
    rw [hSame]
    refine mapVal_usable h _ fun file f hFind => ?_
    have hReady := h.ready hFind
    obtain ⟨f₀, hFind₀, rfl⟩ : ∃ f₀, s.openFragments.find file = some f₀ ∧ f₀.forgetWindow = f := by
      rwa [find_forgetWindows, map_eq_some_iff] at hFind
    have hLength : (f₀.forgetWindow.items T).length < 2 ^ 64 := by
      have hPerm := (contents_remove (T := T) hFind).length_eq
      rw [length_append] at hPerm
      change (contents T s.forgetWindows.openFragments).length < 2 ^ 64 at hSize
      omega
    have hFile := flush_file hReady.holds
    have hMisread := hLegible (file, f₀.flush.file, f₀.flush.fileSorted)
      (mem_map.mpr ⟨(file, f₀), find_eq_some.mp hFind₀, rfl⟩)
    have hOpened : Ready T (openFile T (f₀.forgetWindow.items T)
        f₀.flush.fileSorted).forgetWindow (f₀.forgetWindow.items T) := by
      refine openFile_ready hLength (fun hSet => hReady.ascending ?_)
        (by rwa [hFile] at hMisread)
      rw [forgetWindow_sorted]
      exact hRestorable.flags file f₀ hFind₀ hSet
    rwa [Function.comp_apply, forgetWindow_reopen, reopen, hFile]

end SetFiles

end Fhgfs.Fsck
